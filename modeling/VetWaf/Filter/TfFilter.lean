import VetWaf.Tdb.Htrie

namespace VetWaf.Filter
open Tdb

abbrev RatesRec := TdbFRec Unit

structure Storage where
  mem : List (Option RatesRec) := []
  lruList : List Nat := []

def Storage.used (s : Storage) : Nat := s.mem.countP Option.isSome
def Storage.recAt (s : Storage) (a : Nat) : Option RatesRec := s.mem[a]?.join
def Storage.setRec (s : Storage) (a : Nat) (r : Option RatesRec) : Storage := {s with mem:=s.mem.set a r}
def inBucket (key : Nat) (r : Option RatesRec) : Bool := r.any fun r => !r.isRemoved && r.key == key

/-- A record that `tdb_rec_get` gives for a key -/
def visible (key : Nat) (r : Option RatesRec) : Bool := inBucket key r && r.any TdbFRec.complete

def getRec (r : RatesRec) : RatesRec := {r with refcnt:=r.refcnt+1}

def Storage.recGet (s : Storage) (key : Nat) : Option (Nat×Storage) := do
  let a ← s.mem.findIdx? (visible key)
  let r ← s.recAt a
  some (a,s.setRec a (some (getRec r)))

/-- `tdb_entry_alloc` in a table with room for `cap` records. -/
def Storage.entryAlloc (cap : Nat) (room : Bool) (s : Storage) (key : Nat) : Option (Nat×Storage) :=
  -- the key 0 is not stored
  if key=0 then none
  else if room=false ∨ cap ≤ s.used then none
  else
    let a := s.mem.length
    some (a,{s with mem:=s.mem++[some (getRec {createRec a key () with complete:=false})]})

def initRec (r : RatesRec) : RatesRec := getRec r

/-- `tdb_rec_get_alloc`, with a callback `eq_rec` that always holds -/
def Storage.recGetAlloc (cap : Nat) (room : Bool) (s : Storage) (key : Nat) : Option (Nat×Storage) :=
  match s.recGet key with
  | some (a,s) => some (a,s)
  | none => do
    let (a,s) ← s.entryAlloc cap room key
    let r ← s.recAt a
    some (a,s.setRec a (some {initRec r with complete:=true}))

/-- `tdb_entry_remove` without a callback -/
def Storage.entryRemove (s : Storage) (key : Nat) : Except TdbStop Storage :=
  match s.mem.findIdx? (inBucket key) with
  | none => .ok s
  | some a =>
    match s.recAt a with
    | none => .ok s
    | some r => do
      let r ← removePut r
      .ok (s.setRec a (if r.refcnt=0 then none else some r))

def removeAll : List Nat → Storage → Except TdbStop Storage
  | [], s => .ok s
  | a::as, s =>
    match s.recAt a with
    | none => .error .fault
    | some r => do
      let s ← s.entryRemove r.key
      removeAll as s

def dbRecsToFreeCnt : Nat := 32

/-- A turn of the loop of `get_fingerprint_rates`. -/
def Storage.evict (s : Storage) : Except TdbStop Storage :=
  removeAll (s.lruList.take dbRecsToFreeCnt).reverse {s with lruList:=s.lruList.drop dbRecsToFreeCnt}

def Storage.touch (s : Storage) (a : Nat) : Storage := {s with lruList:=s.lruList.erase a++[a]}

/-- The loop of `get_fingerprint_rates`. -/
def ratesLoop (cap : Nat) (room : Nat → Bool) (key : Nat) : Nat → Storage → Except TdbStop (Option Nat×Storage)
  | 0, _ => .error .fuel
  | n+1, s =>
    match s.recGetAlloc cap (room n) key with
    | some (a,s) => .ok (some a,s.touch a)
    | none =>
      -- nothing was cut off the list
      if s.lruList=[] then .ok (none,s)
      else do
        let s ← s.evict
        ratesLoop cap room key n s

def getFingerprintRates (cap : Nat) (room : Nat → Bool) (s : Storage) (fingerprint : UInt64) :
    Except TdbStop (Option Nat×Storage) := ratesLoop cap room fingerprint.toNat (s.lruList.length+1) s

def putFingerprintRates (s : Storage) (a : Nat) : Except TdbStop Storage :=
  match s.recAt a with
  | none => .error .fault
  | some r =>
    if r.refcnt=0 then .error .bug
    else if r.refcnt=1 then .ok (s.setRec a none)
    else .ok (s.setRec a (some {r with refcnt:=r.refcnt-1}))

/-- A user gets the rates of a fingerprint, or releases those it has. -/
inductive RatesEvent where
  | lookup (fingerprint : UInt64) (room : Nat → Bool)
  | put (a : Nat)

structure RatesState where
  storage : Storage := {}
  held : List Nat := []

def ratesStep (cap : Nat) (s : RatesState) : RatesEvent → Except TdbStop RatesState
  | .lookup fingerprint room => do
    let (res,storage) ← getFingerprintRates cap room s.storage fingerprint
    .ok ⟨storage,res.toList++s.held⟩
  | .put a =>
    if a∈s.held then do
      let storage ← putFingerprintRates s.storage a
      .ok ⟨storage,s.held.erase a⟩
    else .ok s

def ratesRun (cap : Nat) : RatesState → List RatesEvent → Except TdbStop RatesState
  | s, [] => .ok s
  | s, ev::evs => do
    let s ← ratesStep cap s ev
    ratesRun cap s evs
end VetWaf.Filter
