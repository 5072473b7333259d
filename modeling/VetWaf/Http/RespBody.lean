import VetWaf.Http.Htype
import VetWaf.Lib.Fragments
import VetWaf.Lib.Word

namespace VetWaf.Http
open Fragments Word

/-- `resp->cut`. -/
inductive CutStr where
  | plain (s : Seg)
  | compound (chunks : List Seg) (last : Seg) (len : Nat)
  deriving DecidableEq

namespace CutStr

def curr : CutStr → Seg
  | plain s => s
  | compound _ last _ => last

def len : CutStr → Nat
  | plain s => s.len
  | compound _ _ n => n

/-- The pieces that `TFW_STR_FOR_EACH_CHUNK` visits. -/
def pieces : CutStr → List Seg
  | plain s => [s]
  | compound chunks last _ => chunks++[last]

/-- `tfw_str_add_compound` followed by `__msg_field_open` of the new chunk. -/
def openChunk (grow : Nat → Bool) (p : Pos) : CutStr → Option CutStr
  | plain s => if grow 0 then some (compound [s] ⟨p,0⟩ s.len) else none
  | compound chunks last n => if grow (chunks.length+1) then some (compound (chunks++[last]) ⟨p,0⟩ n) else none

/-- `__msg_field_open(TFW_STR_CURR(..), p)` -/
def reopen (p : Pos) : CutStr → CutStr
  | plain s => plain {s with data:=p}
  | compound chunks last n => compound chunks {last with data:=p} n

def updlen (p : Pos) : CutStr → Option CutStr
  | plain s =>
    if s.data.frag=p.frag ∧ s.data.off≤p.off then
      some (plain {s with len:=s.len+trunc 32 (p.off-s.data.off)})
    else none
  | compound chunks last n =>
    if last.len=0 ∧ last.data.frag=p.frag ∧ last.data.off<p.off then
      let k := trunc 32 (p.off-last.data.off)
      some (compound chunks {last with len:=k} (n+k))
    else none

end CutStr

inductive HexRead where
  | postpone (acc cnt : Nat)
  | badlen
  | neq
  | done (n acc : Nat)
  deriving DecidableEq

/-- One more digit in `parse_int_hex`. -/
def hexShift (acc : Nat) (c : UInt8) : Nat := trunc 64 (acc*16+(c &&& 0xf).toNat+(c >>> 6).toNat*9)

/-- `parse_int_hex`, `n` bytes into its data. -/
def parseIntHex : Bytes → (acc cnt n : Nat) → HexRead
  | [], acc, cnt, _ => .postpone acc cnt
  | c::src, acc, cnt, n =>
    if isCrlf c || c=semicolon then
      if acc > longMax then .badlen else .done n acc
    else if !isxdigit c then .neq
    else if cnt ≥ 16 then .badlen
    else parseIntHex src (hexShift acc c) (cnt+1) (n+1)

/-- The labels of `__resp_parse_body`. -/
inductive BodyState where
  | bodyParseInit
  | bodyReadData
  | bodyChunked
  | bodyChunkLen
  | bodyChunkExt
  | chunkDataEnd
  | bodyCR
  | bodyDescEnd
  deriving DecidableEq

/-- What a call keeps in the parser and in the response. -/
structure RespBody where
  iSt : BodyState
  toRead : Int
  acc : Nat
  cnt : Nat
  cut : CutStr
  bodyStartData : Option Pos
  deriving DecidableEq

inductive BodyRc where
  | postpone
  | drop
  | parsed (n : Nat)
  deriving DecidableEq

/-- How the code of a label ends. -/
inductive LabelEnd where
  | move (b : RespBody) (next : BodyState) (n : Nat) (fixup : Bool)
  | drop
  | parsed (b : RespBody) (n : Nat)
  | bug
  deriving DecidableEq

section
variable (grow : Nat → Bool) (chunked : Bool) (b : RespBody) (p : Pos)
def bodyCR (c : UInt8) : LabelEnd :=
  if c≠lf then .drop
  else if b.toRead = -1 then .move b .bodyChunked 1 true
  else if b.toRead > 0 then .move b .bodyDescEnd 1 true
  else match b.cut.updlen ⟨p.frag,p.off+1⟩ with
    | none => .bug
    | some cut => .parsed {b with cut:=cut} (p.off+1)

def bodyEoL (c : UInt8) : LabelEnd := if c=cr then .move b .bodyCR 1 true else bodyCR b p c

def chunkDataEnd (c : UInt8) : LabelEnd :=
  if b.cut.curr.len≠0 then
    match b.cut.openChunk grow p with
    | none => .drop
    | some cut => bodyEoL {b with cut:=cut} p c
  else bodyEoL {b with cut:=b.cut.reopen p} p c

def bodyChunkExt (c : UInt8) : LabelEnd :=
  if c=semicolon ∨ c=equals ∨ isToken c then .move b .bodyChunkExt 1 true
  else bodyEoL b p c

def bodyChunkLen (src : Bytes) : LabelEnd :=
  match parseIntHex src b.acc b.cnt 0 with
  | .postpone acc cnt => .move {b with acc:=acc, cnt:=cnt} .bodyChunkLen src.length true
  | .badlen => .drop
  | .neq => .drop
  | .done n acc => .move {b with toRead:=acc, acc:=0, cnt:=0} .bodyChunkExt n true

def bodyChunked (c : UInt8) (src : Bytes) : LabelEnd := if !isxdigit c then .drop else bodyChunkLen b src

def bodyReadData (src : Bytes) : LabelEnd :=
  if b.toRead<0 then .bug
  else
    let b := {b with bodyStartData:=b.bodyStartData.or (some p)}
    let sz := min b.toRead.toNat src.length
    let left : Int := b.toRead-(sz : Int)
    if left≠0 then .move {b with toRead:=left} .bodyReadData sz false
    else if chunked then .move {b with toRead:=-1} .chunkDataEnd sz false
    else .parsed {b with toRead:=left} (p.off+sz)

def bodyParseInit (c : UInt8) (src : Bytes) : LabelEnd :=
  if b.toRead = -1 then bodyChunked b c src else bodyReadData chunked b p src

def bodyDescEnd (src : Bytes) : LabelEnd :=
  if p.off > 0 then
    match b.cut.updlen p with
    | none => .bug
    | some cut => bodyReadData chunked {b with cut:=cut} p src
  else bodyReadData chunked b p src

/-- The code at a label, `c` being the byte at `p` and `src` the data from `p` on. -/
def label (st : BodyState) (c : UInt8) (src : Bytes) : LabelEnd :=
  match st with
  | .bodyParseInit => bodyParseInit chunked b p c src
  | .bodyReadData => bodyReadData chunked b p src
  | .bodyChunked => bodyChunked b c src
  | .bodyChunkLen => bodyChunkLen b src
  | .bodyChunkExt => bodyChunkExt b p c
  | .chunkDataEnd => chunkDataEnd grow b p c
  | .bodyCR => bodyCR b p c
  | .bodyDescEnd => bodyDescEnd chunked b p src

end

/-- `__FSM_I_MOVE_body_lambda` at the end of the data. -/
def suspend (b : RespBody) (p : Pos) (next : BodyState) (fixup : Bool) : Option (BodyRc×RespBody) :=
  if fixup then (b.cut.updlen p).map fun cut => (.postpone,{b with cut:=cut, iSt:=next})
  else some (.postpone,{b with iSt:=next})

/-- The jumps from label to label, with `src` left from offset `p` of fragment `i` on. -/
def bodyLoop (grow : Nat → Bool) (chunked : Bool) (i : Nat) :
    Nat → BodyState → RespBody → Nat → Bytes → Option (BodyRc×RespBody)
  | 0, _, _, _, _ => none
  | _, _, _, _, [] => none
  | fuel+1, st, b, p, c::src =>
    match label grow chunked b ⟨i,p⟩ st c (c::src) with
    | .move b next n fixup =>
      if src.length+1≤n then suspend b ⟨i,p+n⟩ next fixup
      else bodyLoop grow chunked i fuel next b (p+n) ((c::src).drop n)
    | .drop => some (.drop,b)
    | .parsed b n => some (.parsed n,b)
    | .bug => none

/-- `__resp_parse_body` on the data of fragment `i`. -/
def respParseBody (grow : Nat → Bool) (chunked : Bool) (i : Nat) (data : Bytes) (b : RespBody) :
    Option (BodyRc×RespBody) :=
  if b.cut.curr.len≠0 then
    match b.cut.openChunk grow ⟨i,0⟩ with
    | none => some (.drop,b)
    | some cut => bodyLoop grow chunked i (2*data.length+1) b.iSt {b with cut:=cut} 0 data
  else bodyLoop grow chunked i (2*data.length+1) b.iSt b 0 data

/-- The body of a response whose headers have been read. -/
def bodyStart : RespBody :=
  {iSt:=.bodyParseInit, toRead:=-1, acc:=0, cnt:=0, cut:=.plain ⟨⟨0,0⟩,0⟩,bodyStartData:=none}

/-- The calls made for fragments number `i` and up, until one returns anything but `T_POSTPONE`. -/
def parseFragments (grow : Nat → Bool) (chunked : Bool) (i : Nat) (b : RespBody) :
    List Bytes → Option (Nat×BodyRc×RespBody)
  | [] => some (i,.postpone,b)
  | data::rest =>
    match respParseBody grow chunked i data b with
    | none => none
    | some (.postpone,b) => parseFragments grow chunked (i+1) b rest
    | some (rc,b) => some (i,rc,b)
end VetWaf.Http
