import VetWaf.Base
import VetWaf.Lib.Mem
import VetWaf.Lib.Outcome

namespace VetWaf.AccessLog

def bufSize : Nat := 960

/-- `TRUNCATABLE_FIELDS_COUNT` -/
def fieldsCount : Nat := 4

/-- How a `TfwStr` is stored: plain, or as an array of one or more chunks. -/
inductive TfwStrForm where
  | plain (data : Bytes)
  | compound (first : Bytes) (rest : List Bytes)
  deriving DecidableEq

namespace TfwStrForm

/-- The string of the chunks that `TFW_STR_FOR_EACH_CHUNK` goes over. -/
def str : TfwStrForm → TfwStr
  | plain data => ⟨[data]⟩
  | compound first rest => ⟨first::rest⟩

def chunks (s : TfwStrForm) : List Bytes := s.str.chunks
def data (s : TfwStrForm) : Bytes := s.str.data
def len (s : TfwStrForm) : Nat := s.data.length

end TfwStrForm

/-- Where the data of a `BasicStr` is -/
inductive Data where
  | src
  | buf (pos : Nat)
  | empty
  deriving DecidableEq

structure BasicStr where
  data : Data
  len : Nat
  deriving DecidableEq

/-- The ways to go wrong. -/
inductive Stop where
  | divZero
  | bugOn
  | overflow
  | negative
  deriving DecidableEq

abbrev Buf := Nat → UInt8

def put (buf : Buf) (pos : Nat) (bs : Bytes) : Except Stop Buf :=
  if pos+bs.length≤bufSize then .ok (Mem.write buf pos bs) else .error .overflow

def strncpy (src : Bytes) (len : Nat) : Bytes :=
  let copied := (src.take len).takeWhile (· != 0)
  copied++List.replicate (len-copied.length) 0

/-- `min(buf_size, (int)chunk->len)`, if the `int` is not negative -/
def copyLen (size : Nat) (chunk : Bytes) : Option Nat :=
  if chunk.length%2^32<2^31 then some (min size (chunk.length%2^32)) else none

/-- The loop of `tfw_str_to_cstr()` -/
def strToCstrLoop : List Bytes → Buf → Nat → Nat → Except Stop (Buf×Nat)
  | [], buf, pos, _ => .ok (buf,pos)
  | chunk::chunks, buf, pos, size =>
    match copyLen size chunk with
    | none => .error .negative
    | some len => do
      let buf ← put buf pos (strncpy chunk len)
      if size-len=0 then .ok (buf,pos+len) else strToCstrLoop chunks buf (pos+len) (size-len)

/-- `tfw_str_to_cstr()`: the buffer, and the length of the copy -/
def tfwStrToCstr (s : TfwStrForm) (buf : Buf) (out size : Nat) : Except Stop (Buf×Nat) :=
  if size=0 then .error .bugOn
  else do
    let (buf,pos) ← strToCstrLoop s.chunks buf out (size-1)
    let buf ← put buf pos [0]
    .ok (buf,pos-out)

def makePlain (buf : Buf) (p : Nat) (s : TfwStrForm) : Except Stop (BasicStr×Buf×Nat) :=
  match s with
  | .plain data => .ok (⟨.src,data.length⟩,buf,p)
  | .compound _ _ =>
    if p<bufSize then do
      let (buf,len) ← tfwStrToCstr s buf p (bufSize-p)
      .ok (⟨.buf p,len⟩,buf,p+len)
    else .ok (⟨.empty,0⟩,buf,p)

def dots : Bytes := [46,46,46]

/-- A string that is cut to `limit` characters, the last of which are dots -/
def cut (limit : Nat) (buf : Buf) (p : Nat) (s : TfwStrForm) : Except Stop (BasicStr×Buf×Nat) := do
  let (buf,_) ← tfwStrToCstr s buf p limit
  let buf ← put buf (p+limit-3) dots
  .ok (⟨.buf p,limit⟩,buf,p+limit)

def cutOrPlain (limit : Nat) (buf : Buf) (p : Nat) (s : TfwStrForm) : Except Stop (BasicStr×Buf×Nat) :=
  if s.len<limit then makePlain buf p s else cut limit buf p s

/-- A loop over the strings, in which `p` goes on -/
def eachField (f : Buf → Nat → TfwStrForm → Except Stop (BasicStr×Buf×Nat)) :
    List TfwStrForm → Buf → Nat → Except Stop (List BasicStr×Buf)
  | [], buf, _ => .ok ([],buf)
  | s::ss, buf, p => do
    let (out,buf,p) ← f buf p s
    let (outs,buf) ← eachField f ss buf p
    .ok (out::outs,buf)

def noBufferSpace (ins : List TfwStrForm) (buf : Buf) : List BasicStr×Buf := (ins.map fun _ => ⟨.empty,0⟩,buf)
def truncatedCount (ins : List TfwStrForm) (avail : Nat) : Nat := ins.countP fun s => avail/fieldsCount ≤ s.len

def processTruncated (ins : List TfwStrForm) (buf : Buf) (p usedChars : Nat) : Except Stop (List BasicStr×Buf) :=
  if bufSize≤usedChars then .ok (noBufferSpace ins buf)
  else
    let totalLen := (ins.map TfwStrForm.len).sum%2^32
    if (totalLen+usedChars)%2^32<bufSize then eachField makePlain ins buf p
    else
      let bufAvail := bufSize-usedChars
      if truncatedCount ins bufAvail=0 then .error .divZero
      else
        let limit := bufAvail/truncatedCount ins bufAvail
        if limit<4 then .ok (noBufferSpace ins buf)
        else eachField (cutOrPlain limit) ins buf p

def BasicStr.text (out : BasicStr) (s : TfwStrForm) (buf : Buf) : Bytes :=
  match out.data with
  | .src => s.data.take out.len
  | .buf pos => Mem.slice buf pos out.len
  | .empty => []

def texts (ins : List TfwStrForm) (r : List BasicStr×Buf) : List Bytes :=
  List.zipWith (fun out s => out.text s r.2) r.1 ins
end VetWaf.AccessLog
