import Mathlib

namespace VetWaf

abbrev Bytes := List UInt8

/-- `LONG_MAX` -/
def longMax : Nat := 2^63-1

def ntoh (bs : Bytes) : Nat := bs.foldl (fun n b => n*256+b.toNat) 0

inductive Rc where
  | ok
  | postpone
  | block
  | bad
  | drop
  | compression
  | einval
  deriving DecidableEq

structure TfwStr where
  chunks : List Bytes
  deriving DecidableEq

namespace TfwStr

def data (s : TfwStr) : Bytes := s.chunks.flatten
def len (s : TfwStr) : Nat := (s.chunks.map List.length).sum
def nchunks (s : TfwStr) : Nat := s.chunks.length

/-- `TFW_STR_PLAIN`: the string has no chunk array. -/
def plain (s : TfwStr) : Bool := s.chunks.isEmpty
end TfwStr
end VetWaf
