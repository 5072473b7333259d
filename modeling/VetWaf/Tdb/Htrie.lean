import Mathlib
import VetWaf.Lib.Outcome

namespace VetWaf.Tdb
open Function

structure TdbFRec (D : Type) where
  key : Nat
  bucket : Option Nat
  complete : Bool
  refcnt : Nat
  data : D

/-- Memory that is not written yet -/
instance {D : Type} [Inhabited D] : Inhabited (TdbFRec D) := ⟨⟨0,none,false,0,default⟩⟩

structure DataBlk (D : Type) where
  id : Nat
  recs : List (TdbFRec D)

/-- `TdbBucket` without the pointer to the next bucket -/
structure TdbBucket (D : Type) where
  id : Nat
  first : Option (DataBlk D)

/-- An entry of `shifts` of an index node. -/
inductive Shift (D : Type) where
  | none
  | bckt (b : TdbBucket D) (coll : List (TdbBucket D))
  | index (shifts : Fin 16 → Shift D)

/-- The numbers of the next bucket and the next data block -/
structure Alloc where
  bckts : Nat := 0
  datas : Nat := 0

structure TdbHdr (D : Type) where
  root : Fin 16 → Shift D := fun _ => .none
  alloc : Alloc := {}

/-- A failed `BUG_ON`, a read that leaves the table, an iteration that leaves its data block, or a loop that does
not end -/
inductive TdbStop where
  | bug
  | fault
  | stray
  | fuel
  deriving DecidableEq

def mindrec : Nat := 128

/-- `sizeof(TdbFRec)` -/
def frecSize : Nat := 24

def ralign (n : Nat) : Nat := (n+7)/8*8
def reclen (recLen : Nat) : Nat := ralign (frecSize+recLen)
def recordsAreLarge (recLen : Nat) : Bool := mindrec≤ralign recLen

/-- The number of records that `TDB_HTRIE_FOREACH_REC_SMALL` visits. -/
def smallCount (recLen : Nat) : Nat := mindrec/reclen recLen

/-- The number of records that `tdb_htrie_burst` visits. -/
def burstCount (recLen : Nat) : Nat := (mindrec-1)/reclen recLen

/-- The number of records that a data block has room for. -/
def roomCount (recLen : Nat) : Nat := max 1 (smallCount recLen)

def htrieIdx (k b : Nat) : Fin 16 := Fin.ofNat 16 (k >>> b)

/-- The number of resolved bits at an entry with `rem` levels below it -/
def bitsAt (rem : Nat) : Nat := 64-4*rem

variable {D : Type} [Inhabited D]
def TdbFRec.isRemoved (r : TdbFRec D) : Bool := r.bucket.isNone
def TdbFRec.live (r : TdbFRec D) : Bool := r.key != 0
def createRec (bckt key : Nat) (data : D) : TdbFRec D := {key, bucket:=some bckt, complete:=true, refcnt:=1, data}

/-- `tdb_rec_set_remove` and `tdb_htrie_put_rec`. -/
def removePut (r : TdbFRec D) : Except TdbStop (TdbFRec D) :=
  let r := {r with bucket:=none}
  if r.refcnt=0 then .error .bug
  else if r.refcnt=1 then .ok {r with refcnt:=0, key:=0}
  else .ok {r with refcnt:=r.refcnt-1}

section
variable (recLen : Nat)

/-- `tdb_alloc_data`: a block of free memory -/
def allocData (a : Alloc) : DataBlk D×Alloc :=
  (⟨a.datas,List.replicate (roomCount recLen) default⟩,{a with datas:=a.datas+1})

/-- A new data block with one record, which is linked to bucket `b`. -/
def assignRecord (b : TdbBucket D) (r : TdbFRec D) (a : Alloc) : TdbBucket D×Alloc :=
  let (blk,a) := allocData recLen a
  ({b with first:=some {blk with recs:=blk.recs.set 0 r}},a)

/-- A new bucket with one record in a new data block. -/
def newBucket (r : TdbFRec D) (a : Alloc) : TdbBucket D×Alloc :=
  assignRecord recLen ⟨a.bckts,none⟩ {r with bucket:=some a.bckts} {a with bckts:=a.bckts+1}

/-- A turn of `tdb_bucket_remove_small_record`. -/
def removeSmallStep (eq : TdbFRec D → Bool) (cb : TdbFRec D → Except TdbStop (TdbFRec D)) (r : TdbFRec D) :
    Except TdbStop (TdbFRec D×Bool) :=
  if !r.live || r.isRemoved then .ok (r,false)
  else if eq r then do
    let r ← cb r
    .ok (r,false)
  else .ok (r,true)

/-- The loop of `tdb_bucket_remove_small_record` -/
def removeSmallLoop (eq : TdbFRec D → Bool) (cb : TdbFRec D → Except TdbStop (TdbFRec D)) :
    List (TdbFRec D) → Except TdbStop (List (TdbFRec D)×Bool)
  | [] => .ok ([],false)
  | r::rest => do
    let (r,alive) ← removeSmallStep eq cb r
    let (rest,hasAlive) ← removeSmallLoop eq cb rest
    .ok (r::rest,alive || hasAlive)

def bucketRemoveSmallRecord (eq : TdbFRec D → Bool) (cb : TdbFRec D → Except TdbStop (TdbFRec D))
    (b : TdbBucket D) : Except TdbStop (TdbBucket D) :=
  match b.first with
  | none => .ok b
  | some blk => do
    let (recs,alive) ← removeSmallLoop eq cb (blk.recs.take (smallCount recLen))
    .ok {b with first:=if alive then some {blk with recs:=recs++blk.recs.drop (smallCount recLen)} else none}

/-- `tdb_bucket_remove_large_record` with `force`. -/
def bucketRemoveLargeRecord (eq : TdbFRec D → Bool) (b : TdbBucket D) : Except TdbStop (TdbBucket D) :=
  match b.first with
  | none => .ok b
  | some blk =>
    let r := blk.recs.headD default
    if eq r then do
      let _ ← removePut r
      if r.bucket=some b.id then .ok {b with first:=none} else .error .bug
    else .ok b

def bucketRemoveRecord (eq : TdbFRec D → Bool) (b : TdbBucket D) : Except TdbStop (TdbBucket D) :=
  if recordsAreLarge recLen then bucketRemoveLargeRecord eq b
  else bucketRemoveSmallRecord recLen eq removePut b

/-- `tdb_bucket_remove_record` in `tdb_htrie_insert` -/
def removeEq (eq : Option (TdbFRec D → Bool)) (b : TdbBucket D) : Except TdbStop (TdbBucket D) :=
  match eq with
  | none => .ok b
  | some eq => bucketRemoveRecord recLen eq b

def freeSlot (b : TdbBucket D) : Option Nat :=
  b.first.bind fun blk => (blk.recs.take (smallCount recLen)).findIdx? fun r => !r.live

def TdbBucket.setRec (b : TdbBucket D) (j : Nat) (r : TdbFRec D) : TdbBucket D :=
  {b with first:=b.first.map fun blk => {blk with recs:=blk.recs.set j r}}

/-- `tdb_htrie_smallrec_link` and the record in the place that it finds along the chain -/
def smallrecLink (r : TdbFRec D) : List (TdbBucket D) → Option (List (TdbBucket D))
  | [] => none
  | b::rest =>
    match freeSlot recLen b with
    | some j => some (b.setRec j r::rest)
    | none => (smallrecLink r rest).map (b :: ·)

/-- The rest of a collision chain in `tdb_htrie_insert`. -/
def collInsert (eq : Option (TdbFRec D → Bool)) (r : TdbFRec D) :
    List (TdbBucket D) → Alloc → Except TdbStop (List (TdbBucket D)×Alloc)
  | [], a =>
    let (b,a) := newBucket recLen r a
    .ok ([b],a)
  | b::rest, a => do
    let b ← removeEq recLen eq b
    match b.first with
    | none =>
      let (b,a) := assignRecord recLen b {r with bucket:=some b.id} a
      .ok (b::rest,a)
    | some _ =>
      let (rest,a) ← collInsert eq r rest a
      .ok (b::rest,a)

end

/-- The state of `MOVE_RECORDS`. -/
structure Burst (D : Type) where
  nb : Fin 16 → Option (TdbBucket D×Nat) := fun _ => none
  alloc : Alloc

/-- One turn of `MOVE_RECORDS` for the bucket with number `bckt` whose first record goes to `k0`. -/
def moveRec (recLen bckt : Nat) (k0 : Fin 16) (bits : Nat) (st : Burst D) (r : TdbFRec D) :
    Except TdbStop (Burst D×TdbFRec D) :=
  if r.isRemoved || !r.live then .ok (st,r)
  else
    let k := htrieIdx r.key bits
    if k=k0 then .ok (st,r)
    else
      match st.nb k with
      | none => do
        let (b,a) := newBucket recLen (createRec bckt r.key r.data) st.alloc
        let r ← removePut r
        .ok (⟨update st.nb k (some (b,1)),a⟩,r)
      | some (b,off) => do
        let b := b.setRec off (createRec bckt r.key r.data)
        let r ← removePut r
        .ok (⟨update st.nb k (some (b,off+1)),st.alloc⟩,r)

/-- The loop of `MOVE_RECORDS` -/
def moveRecs (recLen bckt : Nat) (k0 : Fin 16) (bits : Nat) :
    List (TdbFRec D) → Burst D → Except TdbStop (Burst D×List (TdbFRec D))
  | [], st => .ok (st,[])
  | r::rest, st => do
    let (st,r) ← moveRec recLen bckt k0 bits st r
    let (st,rest) ← moveRecs recLen bckt k0 bits rest st
    .ok (st,r::rest)

def htrieBurst (recLen : Nat) (beyond : Nat → Nat → Bool) (b : TdbBucket D) (bits : Nat) (a : Alloc) :
    Except TdbStop ((Fin 16 → Shift D)×Alloc) :=
  match b.first with
  | none => .error .bug
  | some blk =>
    let frec := blk.recs.headD default
    let k0 := htrieIdx frec.key bits
    let rest := blk.recs.tail
    do
      let (st,moved) ← moveRecs recLen b.id k0 bits (rest.take (burstCount recLen-1)) ⟨fun _ => none,a⟩
      let kept := rest.drop (burstCount recLen-1)
      if kept.any (fun r => !r.isRemoved) || beyond blk.id bits then
        let b := {b with first:=if frec.isRemoved then none else some {blk with recs:=frec::(moved++kept)}}
        .ok (fun k =>
          if k=k0 then .bckt b []
          else
            match st.nb k with
            | some (nbckt,_) => .bckt nbckt []
            | none => .none,st.alloc)
      else .error .fault

def bucketKey (blk : DataBlk D) : Nat := (blk.recs.headD default).key

/-- `tdb_htrie_insert` from an entry with `rem` levels below it on. -/
def insertShift (recLen : Nat) (beyond : Nat → Nat → Bool) (eq : Option (TdbFRec D → Bool)) (refcnt key : Nat)
    (data : D) : Nat → Shift D → Alloc → Except TdbStop (Shift D×Alloc)
  | _, .none, a =>
    let (b,a) := newBucket recLen {createRec 0 key data with refcnt} a
    .ok (.bckt b [],a)
  | 0, .index _, _ => .error .bug
  | rem+1, .index shifts, a => do
    let i := htrieIdx key (bitsAt (rem+1))
    let (sh,a) ← insertShift recLen beyond eq refcnt key data rem (shifts i) a
    .ok (.index (update shifts i sh),a)
  | rem, .bckt b coll, a => do
    let b ← removeEq recLen eq b
    let r := {createRec b.id key data with refcnt}
    match b.first with
    | none =>
      let (b,a) := assignRecord recLen b r a
      .ok (.bckt b coll,a)
    | some blk =>
      match if recLen < mindrec then smallrecLink recLen r (b::coll) else none with
      | some (b::coll) => .ok (.bckt b coll,a)
      | _ =>
        match rem with
        | 0 =>
          if bucketKey blk≠key then .error .bug
          else do
            let (coll,a) ← collInsert recLen eq r coll a
            .ok (.bckt b coll,a)
        | rem+1 =>
          if !coll.isEmpty then .error .bug
          else do
            let (shifts,a) ← htrieBurst recLen beyond b (bitsAt (rem+1)) a
            let i := htrieIdx key (bitsAt (rem+1))
            let (sh,a) ← insertShift recLen beyond eq refcnt key data rem (shifts i) a
            .ok (.index (update shifts i sh),a)

/-- `tdb_htrie_insert` without an equality callback, when the caller has released the record -/
def htrieInsert (recLen : Nat) (beyond : Nat → Nat → Bool) (dbh : TdbHdr D) (key : Nat) (data : D) :
    Except TdbStop (TdbHdr D) :=
  -- empty data and the key 0 are not stored
  if recLen=0 ∨ key=0 then .ok dbh
  else do
    let i := htrieIdx key 0
    let (sh,alloc) ← insertShift recLen beyond none 1 key data 15 (dbh.root i) dbh.alloc
    .ok ⟨update dbh.root i sh,alloc⟩

/-- `tdb_htrie_descend`: the chain of buckets for a key -/
def descend (key : Nat) : Nat → Shift D → Except TdbStop (List (TdbBucket D))
  | _, .none => .ok []
  | _, .bckt b coll => .ok (b::coll)
  | 0, .index _ => .error .bug
  | rem+1, .index shifts => descend key rem (shifts (htrieIdx key (bitsAt (rem+1))))

def removeChain (recLen : Nat) (eq : TdbFRec D → Bool) : List (TdbBucket D) → Except TdbStop (List (TdbBucket D))
  | [] => .ok []
  | b::rest => do
    let b ← bucketRemoveRecord recLen eq b
    let rest ← removeChain recLen eq rest
    .ok (b::rest)

/-- `tdb_htrie_remove` from an entry on -/
def removeShift (recLen : Nat) (eq : TdbFRec D → Bool) (key : Nat) : Nat → Shift D → Except TdbStop (Shift D)
  | _, .none => .ok .none
  | _, .bckt b coll => do
    let b ← bucketRemoveRecord recLen eq b
    let coll ← removeChain recLen eq coll
    .ok (.bckt b coll)
  | 0, .index _ => .error .bug
  | rem+1, .index shifts => do
    let i := htrieIdx key (bitsAt (rem+1))
    let sh ← removeShift recLen eq key rem (shifts i)
    .ok (.index (update shifts i sh))

def htrieRemove (recLen : Nat) (dbh : TdbHdr D) (key : Nat) (eq : TdbFRec D → Bool) : Except TdbStop (TdbHdr D) := do
  let i := htrieIdx key 0
  let sh ← removeShift recLen eq key 15 (dbh.root i)
  .ok {dbh with root:=update dbh.root i sh}

def htrieLookup (dbh : TdbHdr D) (key : Nat) : Except TdbStop (List (TdbBucket D)) :=
  descend key 15 (dbh.root (htrieIdx key 0))

/-- A record, with its bucket and the buckets behind it -/
structure Position (D : Type) where
  bckt : TdbBucket D
  rest : List (TdbBucket D)
  slot : Nat

def TdbBucket.getRec (b : TdbBucket D) (j : Nat) : TdbFRec D :=
  match b.first with
  | none => default
  | some blk => blk.recs.getD j default

def bscanForRec (recLen key : Nat) : List (TdbBucket D) → Option (Position D)
  | [] => none
  | b::rest =>
    match b.first.bind fun blk => (blk.recs.take (roomCount recLen)).findIdx? fun r =>
        !r.isRemoved && r.complete && r.key == key with
    | some j => some ⟨b,rest,j⟩
    | none => bscanForRec recLen key rest

/-- `tdb_htrie_next_rec` in the data block of a bucket, behind record `j` -/
def nextInBlk (recLen key : Nat) (b : TdbBucket D) (j : Nat) : Option Nat :=
  if mindrec≤recLen then none
  else ((List.range (smallCount recLen)).filter (j < ·)).find? fun i =>
    !(b.getRec i).isRemoved && (b.getRec i).key == key

/-- `tdb_htrie_next_rec` in the buckets behind one whose block is at `fr`. -/
def nextInChain (recLen key : Nat) (addr : Nat → Nat) (fr : Option Nat) :
    List (TdbBucket D) → Except TdbStop (Option (Position D))
  | [] => .ok none
  | b::rest =>
    match b.first with
    | none => nextInChain recLen key addr fr rest
    | some blk =>
      let r := b.getRec 0
      if !r.isRemoved && r.complete && r.key == key then .ok (some ⟨b,rest,0⟩)
      else if mindrec≤recLen then nextInChain recLen key addr fr rest
      else
        match fr with
        | none => nextInChain recLen key addr fr rest
        | some fr' => if fr'<addr blk.id then nextInChain recLen key addr fr rest else .error .stray

def nextRec (recLen : Nat) (addr : Nat → Nat) (key : Nat) (p : Position D) : Except TdbStop (Option (Position D)) :=
  match nextInBlk recLen key p.bckt p.slot with
  | some j => .ok (some {p with slot:=j})
  | none => nextInChain recLen key addr (p.bckt.first.map fun blk => addr blk.id) p.rest

/-- The records that `tdb_htrie_next_rec` gives from a record on -/
def iterate (recLen : Nat) (addr : Nat → Nat) (key : Nat) :
    Nat → Option (Position D) → Except TdbStop (List (TdbFRec D))
  | _, none => .ok []
  | 0, some _ => .error .fuel
  | n+1, some p => do
    let q ← nextRec recLen addr key p
    let recs ← iterate recLen addr key n q
    .ok (p.bckt.getRec p.slot::recs)

/-- All the records for a key -/
def allRecs (recLen : Nat) (addr : Nat → Nat) (dbh : TdbHdr D) (key : Nat) : Except TdbStop (List (TdbFRec D)) := do
  let chain ← htrieLookup dbh key
  iterate recLen addr key (chain.length*roomCount recLen) (bscanForRec recLen key chain)
end VetWaf.Tdb
