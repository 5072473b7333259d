import Mathlib
import VetWaf.Lib.Outcome

namespace VetWaf.Skb
open Function List

/-- `skb_frag_t`: the memory of a fragment -/
structure Frag where
  addr : Nat
  size : Nat
  deriving DecidableEq, Inhabited, Repr

def maxSkbFrags : Nat := 17
def pageSize : Nat := 4096

/-- `struct sk_buff` with its `skb_shared_info`. -/
structure SkBuff where
  ptr : Nat
  data : Nat
  tail : Nat
  bufEnd : Nat
  tailLock : Bool
  len : Int
  dataLen : Int
  nrFrags : Nat
  frags : Nat → Frag

/-- A failed `BUG_ON`, an access through a `NULL` pointer, and the error codes -/
inductive SkbErr where
  | bug
  | oops
  | einval
  | efault
  | enoent
  | enomem
  | e2big
  deriving DecidableEq

def SkBuff.headlen (s : SkBuff) : Int := s.len-s.dataLen
def SkBuff.tailroomLocked (s : SkBuff) : Nat := if s.tailLock then 0 else s.bufEnd-s.tail
def SkBuff.adjustDataLen (s : SkBuff) (delta : Int) : SkBuff := {s with len:=s.len+delta, dataLen:=s.dataLen+delta}
def SkBuff.put (s : SkBuff) (n : Int) : SkBuff := {s with tail:=(s.tail+n).toNat, len:=s.len+n}
def SkBuff.fillPageDesc (s : SkBuff) (i : Nat) (f : Frag) : SkBuff := {s with frags:=update s.frags i f}

/-- `memmove` of `cnt` slots from `start` to `start + n` -/
def shiftFrags (frags : Nat → Frag) (start n cnt : Nat) (j : Nat) : Frag :=
  if start+n≤j ∧ j<start+n+cnt then frags (j-n) else frags j

/-- The end of `__extend_pgfrags`. -/
def shiftTail (s : SkBuff) (start n nExcess : Nat) : Except SkbErr SkBuff :=
  let tailFrags := s.nrFrags-start
  if tailFrags+1<nExcess then .error .bug
  else .ok {s with
    frags:=shiftFrags s.frags start n (tailFrags-nExcess)
    nrFrags:=s.nrFrags+n-nExcess}

/-- The loop that copies the fragments from slot `maxSkbFrags - n + lo` on to the slots from `lo` on of the next buffer.
-/
def moveExcess (src : Nat → Frag) (n lo : Nat) : Nat → (Nat → Frag)×Nat → (Nat → Frag)×Nat
  | 0, acc => acc
  | i+1, (dst,eSize) =>
    if i<lo then (dst,eSize)
    else
      let f := src (maxSkbFrags-n+i)
      moveExcess src n lo i (update dst i f,eSize+f.size)

section

-- where the linear part of a new buffer begins and where it ends
variable (buf : Nat → Nat×Nat)

/-- `ss_skb_alloc` without data. -/
def skbAlloc (ptr nrFrags : Nat) : SkBuff :=
  {ptr, data:=(buf ptr).1, tail:=(buf ptr).1, bufEnd:=(buf ptr).2, tailLock:=false, len:=0, dataLen:=0,
    nrFrags, frags:=fun _ => default}

def excessSkb (fresh nExcess : Nat) : List SkBuff → Except SkbErr (SkBuff×List SkBuff×Nat)
  | [] => .ok (skbAlloc buf fresh nExcess,[],fresh+1)
  | nskb::after =>
    if nskb.headlen=0 ∧ nskb.nrFrags ≤ maxSkbFrags-nExcess then do
      let nskb ← shiftTail nskb 0 nExcess 0
      .ok (nskb,after,fresh)
    else .ok (skbAlloc buf fresh nExcess,nskb::after,fresh+1)

def extendPgfrags (fresh : Nat) (s : SkBuff) (after : List SkBuff) (start n : Nat) :
    Except SkbErr (SkBuff×List SkBuff×Nat) :=
  if n=0 ∨ 2<n ∨ s.nrFrags<start then .error .bug
  else if s.nrFrags+n ≤ maxSkbFrags then do
    let s ← shiftTail s start n 0
    .ok (s,after,fresh)
  else do
    let nExcess := s.nrFrags+n-maxSkbFrags
    let tailFrags := s.nrFrags-start
    let (nskb,after,fresh) ← excessSkb buf fresh nExcess after
    if tailFrags=0 then .ok ({s with nrFrags:=s.nrFrags+n-nExcess},nskb::after,fresh)
    else
      let (frags,eSize) := moveExcess s.frags n (nExcess-tailFrags) nExcess (nskb.frags,0)
      let nskb := {nskb with frags:=frags}.adjustDataLen eSize
      let s ← shiftTail (s.adjustDataLen (-eSize)) start n nExcess
      .ok (s,nskb::after,fresh)

/-- `__new_pgfrag` with new memory at `page` -/
def newPgfrag (fresh page : Nat) (s : SkBuff) (after : List SkBuff) (size i shift : Nat) :
    Except SkbErr (SkBuff×List SkBuff×Nat) :=
  if maxSkbFrags < i then .error .bug
  else do
    let (s,after,fresh) ← extendPgfrags buf fresh s after i shift
    if i=maxSkbFrags then
      match after with
      | [] => .error .bug
      | nskb::after => .ok (s,(nskb.fillPageDesc 0 ⟨page,size⟩).adjustDataLen size::after,fresh)
    else .ok ((s.fillPageDesc i ⟨page,size⟩).adjustDataLen size,after,fresh)

/-- A buffer of a list, with the buffers before and after it. -/
structure Cursor where
  before : List SkBuff
  skb : SkBuff
  after : List SkBuff

def Cursor.list (c : Cursor) : List SkBuff := c.before++c.skb::c.after

def Cursor.next (c : Cursor) : SkBuff :=
  match c.after, c.before with
  | nskb::_, _ => nskb
  | [], head::_ => head
  | [], [] => c.skb

/-- What is returned in `it` and `fragn`. -/
structure It where
  skb : Nat
  data : Option Nat
  fragn : Option Int
  deriving DecidableEq

def SkBuff.dataAddress (s : SkBuff) : It :=
  if s.headlen≠0 then ⟨s.ptr,some s.data,some (-1)⟩
  else if s.nrFrags≠0 then ⟨s.ptr,some (s.frags 0).addr,some 0⟩
  else ⟨s.ptr,none,some (-1)⟩

def Cursor.itNextData (c : Cursor) (i : Nat) : It :=
  if i<c.skb.nrFrags then ⟨c.skb.ptr,some (c.skb.frags i).addr,some i⟩ else c.next.dataAddress

def splitLinearData (fresh page : Nat) (c : Cursor) (pspt : Nat) (len : Int) : Except SkbErr (Cursor×It×Nat) :=
  let tailLen : Int := c.skb.tail-pspt
  if tailLen≤0 ∨ tailLen < -len then .error .bug
  else if len<0 ∧ tailLen = -len then
    let c := {c with skb:=c.skb.put len}
    .ok (c,c.itNextData 0,fresh)
  else do
    let alloc := if 0<len then 1 else 0
    let (s,after,fresh) ←
      if 0<len then newPgfrag buf fresh page c.skb c.after len.toNat 0 2
      else extendPgfrags buf fresh c.skb c.after 0 1
    let s := if len<0 then s.put len else s
    let tailLen := if len<0 then tailLen+len else tailLen
    let tailOff := if len<0 then pspt+(-len).toNat else pspt
    let s := {s with tail:=s.tail-tailLen.toNat, dataLen:=s.dataLen+tailLen}
    let s := {s.fillPageDesc alloc ⟨tailOff,tailLen.toNat⟩ with tailLock:=true}
    .ok (⟨c.before,s,after⟩,⟨s.ptr,some (s.frags 0).addr,some 0⟩,fresh)

def splitPgfragAdd (fresh page : Nat) (c : Cursor) (i off len : Nat) : Except SkbErr (Cursor×It×Nat) := do
  let split := if off=0 then 0 else 1
  let (s,after,fresh) ← newPgfrag buf fresh page c.skb c.after len (i+split) (1+split)
  if off=0 then .ok (⟨c.before,s,after⟩,⟨s.ptr,some (s.frags i).addr,some i⟩,fresh)
  else
    let frag := s.frags i
    let tailLen := frag.size-off
    let s := s.fillPageDesc i ⟨frag.addr,frag.size-tailLen⟩
    let dst := (i+2)%maxSkbFrags
    if i < maxSkbFrags-2 then
      let s := s.fillPageDesc dst ⟨frag.addr+off,tailLen⟩
      .ok (⟨c.before,s,after⟩,⟨s.ptr,some (s.frags (i+1)).addr,some ↑(i+1)⟩,fresh)
    else
      match after with
      | [] => .error .bug
      | nskb::after =>
        let nskb := (nskb.fillPageDesc dst ⟨frag.addr+off,tailLen⟩).adjustDataLen tailLen
        let s := s.adjustDataLen (-tailLen)
        let it : It := if i < maxSkbFrags-1 then ⟨s.ptr,some (s.frags (i+1)).addr,some ↑(i+1)⟩
          else ⟨nskb.ptr,some (nskb.frags 0).addr,some 0⟩
        .ok (⟨c.before,s,nskb::after⟩,it,fresh)

def splitPgfragDelWFrag (fresh : Nat) (c : Cursor) (i off len : Nat) : Except SkbErr (Cursor×It×Nat) :=
  let s := c.skb
  let frag := s.frags i
  if frag.size<off+len then .error .efault
  -- a full fragment
  else if off=0 ∧ len=frag.size then
    let s := s.adjustDataLen (-len)
    let frags := fun j => if i≤j ∧ j+1<s.nrFrags then s.frags (j+1) else s.frags j
    let c := {c with skb:={s with frags:=frags, nrFrags:=s.nrFrags-1}}
    .ok (c,c.itNextData i,fresh)
  -- the head of a fragment
  else if off=0 then
    let s := (s.fillPageDesc i ⟨frag.addr+len,frag.size-len⟩).adjustDataLen (-len)
    .ok ({c with skb:=s},⟨s.ptr,some (s.frags i).addr,none⟩,fresh)
  -- the tail of a fragment
  else if off+len=frag.size then
    let c := {c with skb:=(s.fillPageDesc i ⟨frag.addr,frag.size-len⟩).adjustDataLen (-len)}
    .ok (c,c.itNextData (i+1),fresh)
  else do
    let (s,after,fresh) ← extendPgfrags buf fresh s c.after (i+1) 1
    let tailLen := frag.size-off-len
    let dst := (i+1)%maxSkbFrags
    let tail : Frag := ⟨frag.addr+off+len,tailLen⟩
    if i < maxSkbFrags-1 then
      let s := (s.fillPageDesc dst tail).fillPageDesc i ⟨frag.addr,frag.size-(len+tailLen)⟩
      let s := s.adjustDataLen (-len)
      .ok (⟨c.before,s,after⟩,⟨s.ptr,some (s.frags dst).addr,some dst⟩,fresh)
    else
      match after with
      | [] => .error .bug
      | nskb::after =>
        let nskb := (nskb.fillPageDesc dst tail).adjustDataLen tailLen
        let s := s.fillPageDesc i ⟨frag.addr,frag.size-(len+tailLen)⟩
        let s := (s.adjustDataLen (-tailLen)).adjustDataLen (-len)
        .ok (⟨c.before,s,nskb::after⟩,⟨nskb.ptr,some (nskb.frags dst).addr,some dst⟩,fresh)

def splitPgfrag (fresh page : Nat) (c : Cursor) (i off : Nat) (len : Int) : Except SkbErr (Cursor×It×Nat) :=
  if 0<len then splitPgfragAdd buf fresh page c i off len.toNat
  else splitPgfragDelWFrag buf fresh c i off (-len).toNat

/-- The position is in fragment `f`. -/
def Frag.within (f : Frag) (pspt : Nat) : Bool := f.addr≤pspt && pspt<f.addr+f.size

/-- The split in the fragments -/
def splitFrags (fresh page : Nat) (c : Cursor) (pspt : Nat) (len : Int) : Except SkbErr (Cursor×It×Nat×Int) :=
  match (range c.skb.nrFrags).find? fun i => (c.skb.frags i).within pspt with
  | some i => do
    let f := c.skb.frags i
    let off := pspt-f.addr
    let len := max len (off-f.size : Int)
    let (c,it,fresh) ← splitPgfrag buf fresh page c i off len
    .ok (c,it,fresh,len)
  | none =>
    match ((range c.skb.nrFrags).filter fun i => pspt=(c.skb.frags i).addr+(c.skb.frags i).size).getLast? with
    | none => .error .enoent
    | some j =>
      if 0<len then do
        let (s,after,fresh) ← newPgfrag buf fresh page c.skb c.after len.toNat (j+1) 1
        let c := {c with skb:=s, after:=after}
        .ok (c,c.itNextData (j+1),fresh,len)
      else if j+1=c.skb.nrFrags then .error .efault
      else do
        let (c,it,fresh) ← splitPgfragDelWFrag buf fresh c (j+1) 0 (-len).toNat
        .ok (c,it,fresh,len)

/-- `__skb_fragment` up to its label `done` -/
def splitSkb (fresh page : Nat) (c : Cursor) (pspt : Nat) (len : Int) : Except SkbErr (Cursor×It×Nat×Int) :=
  let s := c.skb
  let offset : Int := pspt-s.data
  -- the split starts in the linear data
  if 0≤offset ∧ offset<s.headlen then do
    let len := max len (offset-s.headlen)
    let (c,it,fresh) ← splitLinearData buf fresh page c pspt len
    .ok (c,it,fresh,len)
  -- the split is between the linear data and the first fragment
  else if 0<len ∧ (s.headlen≠0 ∧ offset=s.headlen ∨ pspt=(s.frags 0).addr) then
    if len ≤ s.tailroomLocked then .ok ({c with skb:=s.put len},⟨s.ptr,some s.tail,none⟩,fresh,len)
    else do
      let (s,after,fresh) ← newPgfrag buf fresh page s c.after len.toNat 0 1
      let c := {c with skb:=s, after:=after}
      .ok (c,c.itNextData 0,fresh,len)
  else splitFrags buf fresh page c pspt len

def skbFragment (fresh page : Nat) (c : Cursor) (pspt : Nat) (len : Int) : Except SkbErr (Cursor×It×Nat×Nat) :=
  if pageSize<len.natAbs then .error .einval
  else if len=0 then .error .bug
  else do
    let (c,it,fresh,len) ← splitSkb buf fresh page c pspt len
    if it.data=none ∧ 0≤len then .error .efault
    else .ok (c,it,fresh,len.natAbs)

def getRoomWFrag (fresh page : Nat) (c : Cursor) (pspt len : Nat) : Except SkbErr (Cursor×It×Nat) := do
  let (c,it,fresh,r) ← skbFragment buf fresh page c pspt len
  if r=len then .ok (c,it,fresh) else .error .enomem
end
end VetWaf.Skb
