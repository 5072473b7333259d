import VetWaf.Lib.Run
import VetWaf.H2.Frame

namespace VetWaf.H2
open Function

inductive TfwStreamSchedState where
  | unknown
  | active
  | blocked
  deriving DecidableEq

/-- A failed `BUG_ON`, a division by zero, or a loop that does not end. -/
inductive SchedStop where
  | bug
  | divZero
  | fuel
  deriving DecidableEq

/-- The tree as such. -/
@[ext]
structure PriTree where
  streams : List Nat := []
  parent : Nat → Option Nat := fun _ => none
  weight : Nat → Nat := fun _ => 0
  isActive : Nat → Bool := fun _ => false

def PriTree.setParent (t : PriTree) (id : Nat) (parent : Option Nat) : PriTree :=
  {t with parent:=update t.parent id parent}

/-- What the scheduler keeps in addition. -/
structure TfwStreamSched extends PriTree where
  schedState : Nat → TfwStreamSchedState := fun _ => .unknown
  totalWeight : Nat → Nat := fun _ => 0
  activeCnt : Nat → Int := fun _ => 0
  active : Nat → List Nat := fun _ => []
  blocked : Nat → List Nat := fun _ => []

def http2DefWeight : Nat := 16

/-- A difference of `u64`. -/
def subWeight (total weight : Nat) : Nat := if weight≤total then total-weight else total+2^64-weight

/-- `child->weight * stream->weight / total_weight` as `unsigned short`, but not 0. -/
def shareOf (weight removed total : Nat) : Nat :=
  let product := weight*removed
  let product := if product<2^31 then product else product+2^64-2^32
  let share := product/total%2^16
  if 0<share then share else 1

namespace TfwStreamSched
variable (s : TfwStreamSched)

/-- `tfw_h2_stream_sched_insert_by_weight` on the list in reverse order -/
def insertBackwardsByWeight (id : Nat) : List Nat → List Nat
  | [] => [id]
  | pos::prev =>
    if s.weight pos<s.weight id ∨ s.weight pos=s.weight id ∧ id<pos then id::pos::prev
    else pos::insertBackwardsByWeight id prev

def insertByWeight (head : List Nat) (id : Nat) : List Nat := (s.insertBackwardsByWeight id head.reverse).reverse

/-- `list_del_init` for `sched_node`, which is in a list of the parent or in none -/
def listDelInit (id : Nat) : TfwStreamSched :=
  match s.parent id with
  | none => s
  | some parent =>
    {s with
      active:=update s.active parent ((s.active parent).erase id)
      blocked:=update s.blocked parent ((s.blocked parent).erase id)}

def insertActive (id : Nat) : Except SchedStop TfwStreamSched :=
  match s.parent id with
  | none => .error .bug
  | some parent =>
    if s.isActive id=false ∧ s.activeCnt id=0 ∨ s.schedState id=.active then .error .bug
    else
      let s := s.listDelInit id
      .ok {s with
          active:=update s.active parent (s.insertByWeight (s.active parent) id)
          schedState:=update s.schedState id .active}

def insertBlocked (id : Nat) : Except SchedStop TfwStreamSched :=
  match s.parent id with
  | none => .error .bug
  | some parent =>
    if s.isActive id=true ∨ s.activeCnt id≠0 ∨ s.schedState id=.blocked then .error .bug
    else
      let s := s.listDelInit id
      .ok {s with
          blocked:=update s.blocked parent (id::s.blocked parent)
          schedState:=update s.schedState id .blocked}

def addActiveCnt (id : Nat) (cnt : Int) : TfwStreamSched :=
  {s with activeCnt:=update s.activeCnt id (s.activeCnt id+cnt)}

def setWeight (id weight : Nat) : TfwStreamSched := {s with weight:=update s.weight id weight}

/-- The loop of `__tfw_h2_stream_sched_propagate_add_active_cnt` -/
def propagateAddLoop (activeCnt : Int) : Nat → TfwStreamSched → Nat → Except SchedStop TfwStreamSched
  | 0, _, _ => .error .fuel
  | n+1, s, parent =>
    let needActivate := s.activeCnt parent=0
    let s := s.addActiveCnt parent activeCnt
    if parent=0 then .ok s
    else
      match s.parent parent with
      | none => .ok s
      | some next =>
        if ¬needActivate ∨ s.isActive parent then propagateAddLoop activeCnt n s next
        else if s.schedState parent ≠ .blocked then .error .bug
        else do
          let s ← s.insertActive parent
          propagateAddLoop activeCnt n s next

/-- The loop of `__tfw_h2_stream_sched_propagate_dec_active_cnt` -/
def propagateDecLoop (activeCnt : Int) : Nat → TfwStreamSched → Nat → Except SchedStop TfwStreamSched
  | 0, _, _ => .error .fuel
  | n+1, s, parent =>
    let s := s.addActiveCnt parent (-activeCnt)
    if parent=0 then .ok s
    else
      match s.parent parent with
      | none => .ok s
      | some next =>
        if s.isActive parent ∨ s.activeCnt parent≠0 then propagateDecLoop activeCnt n s next
        else if s.schedState parent ≠ .active then .error .bug
        else do
          let s ← s.insertBlocked parent
          propagateDecLoop activeCnt n s next

def fuel : Nat := s.streams.length+2
def activeOf (id : Nat) : Int := s.activeCnt id+if s.isActive id then 1 else 0

def propagateAddActiveCnt (id parent : Nat) : Except SchedStop TfwStreamSched :=
  if s.activeOf id=0 then .ok s else propagateAddLoop (s.activeOf id) s.fuel s parent

/-- `__tfw_h2_stream_sched_remove` -/
def schedUnlink (id : Nat) : Except SchedStop TfwStreamSched :=
  match s.parent id with
  | none => .error .bug
  | some parent =>
    let s := s.listDelInit id
    .ok {s with
        schedState:=update s.schedState id .unknown
        parent:=update s.parent id none
        totalWeight:=update s.totalWeight parent (subWeight (s.totalWeight parent) (s.weight id))}

def schedRemove (id : Nat) : Except SchedStop TfwStreamSched :=
  match s.parent id with
  | none => .error .bug
  | some parent => do
    let s' ← s.schedUnlink id
    if s.activeOf id=0 then .ok s' else propagateDecLoop (s.activeOf id) s'.fuel s' parent

def findStreamDep (id : Nat) : Nat := if id∈s.streams then id else 0
def schedHasChildren (id : Nat) : Bool := !(s.active id).isEmpty || !(s.blocked id).isEmpty

/-- `__tfw_h2_stream_sched_enqueue`. -/
def schedLink (id parent : Nat) : Except SchedStop TfwStreamSched :=
  let s :=
    {s with
      totalWeight:=update s.totalWeight parent (s.totalWeight parent+s.weight id)
      parent:=update s.parent id (some parent)}
  if s.schedState id ≠ .unknown then .error .bug
  else if s.isActive id ∨ s.activeCnt id≠0 then s.insertActive id
  else s.insertBlocked id

def schedEnqueue (id parent : Nat) : Except SchedStop TfwStreamSched := do
  let s ← s.schedLink id parent
  s.propagateAddActiveCnt id parent

def schedReinsert (id parent : Nat) : Except SchedStop TfwStreamSched := do
  let s ← s.schedUnlink id
  s.schedLink id parent

/-- The loops of `tfw_h2_add_stream_dep`. -/
def takeChildren (head : TfwStreamSched → Nat → List Nat) (dep id : Nat) :
    Nat → TfwStreamSched → Except SchedStop TfwStreamSched
  | 0, _ => .error .fuel
  | n+1, s =>
    match head s dep with
    | [] => .ok s
    | child::_ => do
      let s ← s.schedRemove child
      let s ← s.schedEnqueue child id
      takeChildren head dep id n s

def addStreamDep (id dep : Nat) (excl : Bool) : Except SchedStop TfwStreamSched :=
  if !excl then s.schedEnqueue id dep
  else do
    let s ← takeChildren (·.blocked) dep id ((s.blocked dep).length+1) s
    let s ← takeChildren (·.active) dep id ((s.active dep).length+1) s
    if s.schedHasChildren dep then .error .bug else s.schedEnqueue id dep

/-- The loop of `tfw_h2_stream_sched_move_children`. -/
def moveChildrenLoop (head : TfwStreamSched → Nat → List Nat) (id parent total : Nat)
    (parentHasChildren : Bool) : Nat → TfwStreamSched → Except SchedStop TfwStreamSched
  | 0, _ => .error .fuel
  | n+1, s =>
    match head s id with
    | [] => .ok s
    | child::_ =>
      if parentHasChildren then
        if total=0 then .error .divZero
        else do
          let s := s.setWeight child (shareOf (s.weight child) (s.weight id) total)
          let s ← s.schedReinsert child parent
          moveChildrenLoop head id parent total parentHasChildren n s
      else do
        let s ← s.schedReinsert child parent
        moveChildrenLoop head id parent total parentHasChildren n s

def schedMoveChildren (head : TfwStreamSched → Nat → List Nat) (id parent : Nat)
    (parentHasChildren : Bool) : Except SchedStop TfwStreamSched :=
  moveChildrenLoop head id parent (s.totalWeight id) parentHasChildren ((head s id).length+1) s

def removeStreamDep (id : Nat) : Except SchedStop TfwStreamSched :=
  match s.parent id with
  | none => .error .bug
  | some parent => do
    let s' ← s.schedUnlink id
    let s' := {s' with activeCnt:=update s'.activeCnt id 0}
    let parentHasChildren := s'.schedHasChildren parent
    let s' ← s'.schedMoveChildren (·.blocked) id parent parentHasChildren
    let s' ← s'.schedMoveChildren (·.active) id parent parentHasChildren
    if s.isActive id then propagateDecLoop 1 s'.fuel s' parent else .ok s'

/-- The loop of `tfw_h2_is_stream_depend_on_child` -/
def dependLoop (id : Nat) : Nat → Option Nat → Except SchedStop Bool
  | 0, _ => .error .fuel
  | _ + 1, none => .ok false
  | n+1, some parent =>
    if parent=0 then .ok false
    else if parent=id then .ok true
    else dependLoop id n (s.parent parent)

def isStreamDependOnChild (id newParent : Nat) : Except SchedStop Bool := s.dependLoop id s.fuel (s.parent newParent)

def changeStreamDep (id newDep newWeight : Nat) (excl : Bool) : Except SchedStop TfwStreamSched :=
  match s.parent id with
  | none => .error .bug
  | some oldParent => do
    let newParent := s.findStreamDep newDep
    if ← s.isStreamDependOnChild id newParent then
      if newParent=0 then .error .bug
      else do
        let s ← s.schedRemove newParent
        let s ← s.schedRemove id
        let s ← (s.setWeight id newWeight).addStreamDep newParent oldParent false
        s.addStreamDep id newParent excl
    else do
      let s ← s.schedRemove id
      (s.setWeight id newWeight).addStreamDep id newParent excl

/-- `tfw_h2_sched_activate_stream` for a stream that got something to send -/
def schedActivateStream (id : Nat) : Except SchedStop TfwStreamSched :=
  let s := {s with isActive:=update s.isActive id true}
  match s.parent id with
  | none => .error .bug
  | some parent =>
    if s.activeCnt id=0 then do
      let s ← s.insertActive id
      propagateAddLoop 1 s.fuel s parent
    else propagateAddLoop 1 s.fuel s parent

/-- `tfw_h2_sched_deactivate_stream` for a stream that has nothing to send any more -/
def schedDeactivateStream (id : Nat) : Except SchedStop TfwStreamSched :=
  let s := {s with isActive:=update s.isActive id false}
  match s.parent id with
  | none => .error .bug
  | some parent =>
    if s.activeCnt id=0 then do
      let s ← s.insertBlocked id
      propagateDecLoop 1 s.fuel s parent
    else propagateDecLoop 1 s.fuel s parent

/-- The loop of `tfw_h2_sched_get_most_prio_stream` -/
def getMostPrioLoop : Nat → Nat → Except SchedStop (Option Nat)
  | 0, _ => .error .fuel
  | n+1, node =>
    match (s.active node).getLast? with
    | none => .ok none
    | some stream =>
      if s.isActive stream then .ok (some stream)
      else if s.activeCnt stream≠0 then getMostPrioLoop n stream
      else .error .bug

def schedGetMostPrioStream : Except SchedStop (Option Nat) := s.getMostPrioLoop s.fuel 0

def initStream (id weight : Nat) : TfwStreamSched :=
  { streams:=id::s.streams
    parent:=update s.parent id none
    weight:=update s.weight id (if weight=0 then http2DefWeight else weight)
    isActive:=update s.isActive id false
    schedState:=update s.schedState id .unknown
    totalWeight:=update s.totalWeight id 0
    activeCnt:=update s.activeCnt id 0
    active:=update s.active id []
    blocked:=update s.blocked id []}

def streamCreate (id : Nat) (pri : TfwFramePri) : Except SchedStop TfwStreamSched :=
  (s.initStream id pri.weight).addStreamDep id (s.findStreamDep pri.streamId) pri.exclusive

def stopStream (id : Nat) : Except SchedStop TfwStreamSched := do
  let s ← s.removeStreamDep id
  return {s with streams:=s.streams.erase id}

end TfwStreamSched

inductive SchedOp where
  | create (id : Nat) (pri : TfwFramePri)
  | change (id : Nat) (pri : TfwFramePri)
  | stop (id : Nat)
  | activate (id : Nat)
  | deactivate (id : Nat)
  | reinsert (id : Nat)
  deriving DecidableEq

def SchedOp.allowed (s : TfwStreamSched) : SchedOp → Bool
  | .create id pri => id != 0 && !s.streams.contains id && pri.weight<2^16
  | .change id pri => s.streams.contains id && pri.streamId != id && 0<pri.weight && pri.weight<2^16
  | .stop id => s.streams.contains id
  | .activate id => s.streams.contains id && !s.isActive id
  | .deactivate id => s.streams.contains id && s.isActive id
  | .reinsert id => s.streams.contains id

def SchedOp.exec (s : TfwStreamSched) : SchedOp → Except SchedStop TfwStreamSched
  | .create id pri => s.streamCreate id pri
  | .change id pri => s.changeStreamDep id pri.streamId pri.weight pri.exclusive
  | .stop id => s.stopStream id
  | .activate id => s.schedActivateStream id
  | .deactivate id => s.schedDeactivateStream id
  | .reinsert id =>
    match s.parent id with
    | none => .error .bug
    | some parent => s.schedReinsert id parent

def schedStep (s : TfwStreamSched) (op : SchedOp) : Option TfwStreamSched :=
  if op.allowed s then (op.exec s).toOption else none
end VetWaf.H2
