import VetWaf.Lib.Run
import VetWaf.Tdb.Htrie

namespace VetWaf.Tdb
variable {D : Type}
def Shift.bckts : Shift D → List (TdbBucket D)
  | .none => []
  | .bckt b coll => b::coll
  | .index shifts => (List.finRange 16).flatMap fun i => (shifts i).bckts

def TdbHdr.bckts (dbh : TdbHdr D) : List (TdbBucket D) := (Shift.index dbh.root).bckts

def Shift.map (f : TdbBucket D → TdbBucket D) : Shift D → Shift D
  | .none => .none
  | .bckt b coll => .bckt (f b) (coll.map f)
  | .index shifts => .index fun i => (shifts i).map f

def TdbHdr.mapBckts (f : TdbBucket D → TdbBucket D) (dbh : TdbHdr D) : TdbHdr D :=
  {dbh with root:=fun i => (dbh.root i).map f}

/-- The record at a place of block `blk` is changed, if this is the bucket's block. -/
def modRec (blk slot : Nat) (f : TdbFRec D → TdbFRec D) (b : TdbBucket D) : TdbBucket D :=
  {b with first:=b.first.map fun d => if d.id=blk then {d with recs:=d.recs.modify slot f} else d}

/-- The record at a place of block `blk` -/
def findRec (dbh : TdbHdr D) (blk slot : Nat) : Option (TdbFRec D) :=
  dbh.bckts.findSome? fun b => b.first.bind fun d => if d.id=blk then d.recs[slot]? else none

/-- `tdb_bucket_remove_small_record` with the callback `tdb_put_rec_eq_cb`. -/
def bucketPutRecord (recLen blk slot : Nat) (b : TdbBucket D) : TdbBucket D :=
  match b.first with
  | none => b
  | some d =>
    let seen := d.recs.take (smallCount recLen)
    let seen := if d.id=blk then seen.modify slot fun r => {r with bucket:=none} else seen
    let rest := d.recs.drop (smallCount recLen)
    {b with first:=if (seen.any fun r => r.live && !r.isRemoved) then some {d with recs:=seen++rest} else none}

/-- `tdb_htrie_put_rec` without its last step when the bucket of the record is `bckt` -/
def putBucket (recLen blk slot : Nat) (bckt : Option Nat) (dbh : TdbHdr D) : TdbHdr D :=
  match bckt with
  | none => dbh
  | some bid => dbh.mapBckts fun b => if b.id=bid then bucketPutRecord recLen blk slot b else b

/-- `tdb_htrie_put_rec` for a record that is reached from a bucket -/
def htriePutRec (recLen blk slot : Nat) (dbh : TdbHdr D) : Except TdbStop (TdbHdr D) :=
  match findRec dbh blk slot with
  | none => .ok dbh
  | some r =>
    if r.refcnt=0 then .error .bug
    else
      let dbh := dbh.mapBckts (modRec blk slot fun r => {r with refcnt:=r.refcnt-1})
      if r.refcnt=1 then
        .ok ((putBucket recLen blk slot r.bucket dbh).mapBckts (modRec blk slot fun r => {r with key:=0}))
      else .ok dbh

inductive RefOp (D : Type) where
  | insert (key : Nat) (data : D) (eq : Option (TdbFRec D → Bool))
  | remove (key : Nat) (eq : TdbFRec D → Bool)
  | get (blk slot : Nat)
  | put (blk slot : Nat)
  | putDetached (blk slot bckt : Nat)

variable [Inhabited D]
def refStep (recLen : Nat) (beyond : Nat → Nat → Bool) (dbh : TdbHdr D) : RefOp D → Except TdbStop (TdbHdr D)
  | .insert key data eq =>
    if recLen=0 ∨ key=0 then .ok dbh
    else do
      let i := htrieIdx key 0
      let (sh,alloc) ← insertShift recLen beyond eq 2 key data 15 (dbh.root i) dbh.alloc
      .ok ⟨Function.update dbh.root i sh,alloc⟩
  | .remove key eq => htrieRemove recLen dbh key eq
  | .get blk slot => .ok (dbh.mapBckts (modRec blk slot fun r => {r with refcnt:=r.refcnt+1}))
  | .put blk slot => htriePutRec recLen blk slot dbh
  | .putDetached blk slot bckt => .ok (putBucket recLen blk slot (some bckt) dbh)

def moveKeys (d : DataBlk D) : List Nat := (d.recs.tail.filter fun r => !r.isRemoved).map TdbFRec.key

/-- On no level two keys go to one new bucket, when the first record has key `k0`. -/
def apart (k0 k k' : Nat) : Bool :=
  (List.range 16).all fun rem => htrieIdx k (bitsAt rem) != htrieIdx k' (bitsAt rem) ||
    htrieIdx k (bitsAt rem) == htrieIdx k0 (bitsAt rem)

/-- A burst of the block, and those that follow it, move at most one record to each new bucket. -/
def spread (d : DataBlk D) : Bool := decide ((moveKeys d).Pairwise fun k k' => apart (bucketKey d) k k'=true)

/-- A chain is safe for an insertion. -/
def chainSafe (recLen : Nat) (b : TdbBucket D) (coll : List (TdbBucket D)) : Bool :=
  b.first.isNone || (freeSlot recLen b).isSome || (coll.all fun b' => (freeSlot recLen b').isNone) && b.first.all spread

def opSafe (recLen : Nat) (dbh : TdbHdr D) : RefOp D → Bool
  | .insert key _ _ =>
    match htrieLookup dbh key with
    | .ok (b::coll) => chainSafe recLen b coll
    | _ => true
  | _ => true
end VetWaf.Tdb
