import VetWaf.Base

namespace VetWaf.Rfc7230
open List

def isHexdig (c : UInt8) : Bool := (0x30≤c ∧ c≤0x39) ∨ (0x41≤c ∧ c≤0x46) ∨ (0x61≤c ∧ c≤0x66)
def hexDigit (c : UInt8) : Nat := if c≤0x39 then c.toNat-0x30 else if c≤0x46 then c.toNat-0x41+10 else c.toNat-0x61+10

/-- The value of the digits `ds` after digits of value `acc`. -/
def hexValueFrom (acc : Nat) (ds : Bytes) : Nat := ds.foldl (fun a c => a*16+hexDigit c) acc

def hexValue (ds : Bytes) : Nat := hexValueFrom 0 ds

/-- Section 3.2.6. -/
def isTchar (c : UInt8) : Bool := (0x41≤c ∧ c≤0x5a) ∨ (0x61≤c ∧ c≤0x7a) ∨ (0x30≤c ∧ c≤0x39) ∨
    c∈([0x21,0x23,0x24,0x25,0x26,0x27,0x2a,0x2b,0x2d,0x2e,0x5e,0x5f,0x60,0x7c,0x7e] : Bytes)

structure Token where
  bytes : Bytes
  ne_nil : bytes≠[]
  tchars : ∀c∈bytes,isTchar c=true

/-- A line may also end in a bare LF. -/
inductive Eol where
  | crlf
  | lf
  deriving DecidableEq

def Eol.bytes : Eol → Bytes
  | crlf => [0x0d,0x0a]
  | lf => [0x0a]

/-- A chunk extension: `;name` or `;name=value`. -/
structure ChunkExt where
  name : Token
  val : Option Token

def ChunkExt.bytes (e : ChunkExt) : Bytes := 0x3b::e.name.bytes++(e.val.map fun v => 0x3d::v.bytes).getD []

structure SizeLine where
  digits : Bytes
  digits_ne : digits≠[]
  hex : ∀c∈digits,isHexdig c=true
  exts : List ChunkExt
  eol : Eol

namespace SizeLine

def extBytes (l : SizeLine) : Bytes := l.exts.flatMap ChunkExt.bytes
def bytes (l : SizeLine) : Bytes := l.digits++l.extBytes++l.eol.bytes
def size (l : SizeLine) : Nat := hexValue l.digits

end SizeLine

structure Chunk where
  line : SizeLine
  data : Bytes
  data_ne : data≠[]
  length_data : data.length=line.size
  eol : Eol

structure ChunkedBody where
  chunks : List Chunk
  last : SizeLine
  last_size : last.size=0

def framing (bs : Bytes) : List (UInt8×Bool) := bs.map (·,true)
def payload (bs : Bytes) : List (UInt8×Bool) := bs.map (·,false)

/-- The bytes of a chunk, those of its framing marked. -/
def Chunk.marked (k : Chunk) : List (UInt8×Bool) := framing k.line.bytes++payload k.data++framing k.eol.bytes

namespace ChunkedBody

def marked (b : ChunkedBody) : List (UInt8×Bool) := b.chunks.flatMap Chunk.marked++framing b.last.bytes
def bytes (b : ChunkedBody) : Bytes := b.marked.map Prod.fst

/-- What the body carries. -/
def data (b : ChunkedBody) : Bytes := b.chunks.flatMap Chunk.data

lemma data_eq_unmarked (b : ChunkedBody) : b.data=(b.marked.filter fun m => !m.2).map Prod.fst := by
  have hf (bs : Bytes) : (framing bs).filter (fun m => !m.2)=[] := by simp [framing]
  have hp (bs : Bytes) : ((payload bs).filter fun m => !m.2).map Prod.fst=bs := by
    simp [payload,filter_eq_self.2,Function.comp_def]
  have hc (k : Chunk) : (k.marked.filter fun m => !m.2).map Prod.fst=k.data := by simp [Chunk.marked,hf,hp]
  simp only [data,marked,filter_append,hf,append_nil]
  induction b.chunks with
  | nil => rfl
  | cons k ks ih => rw [flatMap_cons,flatMap_cons,filter_append,map_append,hc,ih]
end ChunkedBody
end VetWaf.Rfc7230
