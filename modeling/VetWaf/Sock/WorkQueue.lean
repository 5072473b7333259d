import Mathlib
import VetWaf.Lib.Run

namespace VetWaf.Sock
open Function

/-- `__WqItem` is an array of four longs. -/
def wqWords : Nat := 4

/-- A work item; `W` is the type of a long. -/
abbrev WqItem (W : Type*) := Fin wqWords → W

/-- `TfwRBQueue`. A head guard of `LONG_MAX` is `none`. -/
structure TfwRBQueue (C W : Type*) where
  heads : C → Option Nat
  array : Nat → WqItem W
  qsize : Nat
  lastHead : Nat
  head : Nat
  tail : Nat

def TfwRBQueue.slot {C W : Type*} (q : TfwRBQueue C W) (pos : Nat) : Nat := pos &&& (q.qsize-1)

/-- Where a call of `__tfw_wq_push` stands. -/
inductive Push (W : Type*) where
  | idle
  /-- `head = atomic64_read(&q->head)` before the loop -/
  | readFirst (ptr : WqItem W)
  /-- `atomic64_set(head_local, head)` -/
  | setGuard (ptr : WqItem W) (head : Nat)
  /-- `tail = atomic64_read(&q->tail)` and the test for a full queue -/
  | readTail (ptr : WqItem W) (budget head : Nat)
  | cmpxchg (ptr : WqItem W) (budget head : Nat)
  /-- `head = atomic64_read(&q->head)` of the next round -/
  | readHead (ptr : WqItem W) (budget : Nat)
  /-- The first `k` longs are copied. -/
  | memcpy (ptr : WqItem W) (head k : Nat)
  /-- `atomic64_set(head_local, LONG_MAX)`, and the call returns `ret`. -/
  | release (ptr : WqItem W) (full : Bool) (ret : Nat)

/-- Where a call of `tfw_wq_pop_ticket` stands -/
inductive Pop (C W : Type*) where
  | idle
  | readTail (buf : WqItem W)
  /-- `q->last_head = atomic64_read(&q->head)` -/
  | readHead (buf : WqItem W) (tail : Nat)
  /-- The guards of these CPUs are still to be read. -/
  | scan (buf : WqItem W) (tail : Nat) (cpus : List C)
  | memcpy (buf : WqItem W) (tail k : Nat)
  | setTail (buf : WqItem W) (tail : Nat)

structure PushRet (C W : Type*) where
  cpu : C
  ptr : WqItem W
  full : Bool
  ret : Nat

structure Wq (C W : Type*) where
  cpus : List C
  q : TfwRBQueue C W
  push : C → Push W
  pop : Pop C W
  warned : Bool
  wins : List (C×WqItem W)
  rets : List (PushRet C W)
  pops : List (Option (WqItem W)×Nat)

inductive WqEvent (C W : Type*) where
  | pushCall (c : C) (ptr : WqItem W)
  | push (c : C)
  | popCall (buf : WqItem W)
  | pop

variable {C W : Type*} [DecidableEq C]
def tfwWqInit (cpus : List C) (qsize : Nat) (mem : Nat → WqItem W) : Wq C W where
  cpus := cpus
  q :=
    { heads:=fun c => if c∈cpus then none else some 0
      array:=mem
      qsize:=qsize
      lastHead:=0
      head:=0
      tail:=0}
  push := fun _ => .idle
  pop := .idle
  warned := false
  wins := []
  rets := []
  pops := []

/-- The push on a CPU goes on at `p`. -/
def Wq.at (s : Wq C W) (c : C) (p : Push W) : Wq C W := {s with push:=update s.push c p}

/-- `__tfw_wq_push()`, one step of the call on CPU `c` -/
def Wq.pushStep (s : Wq C W) (c : C) : Option (Wq C W) :=
  match s.push c with
  | .idle => none
  | .readFirst ptr => some (s.at c (.setGuard ptr s.q.head))
  | .setGuard ptr head =>
    some {s.at c (.readTail ptr 10 head) with
      q:={s.q with heads:=update s.q.heads c (some head)}}
  | .readTail ptr budget head =>
    let s := {s with warned:=s.warned || decide (s.q.tail+s.q.qsize<head)}
    if head=s.q.tail+s.q.qsize then
      if budget-1=0 then some (s.at c (.release ptr true head))
      else some (s.at c (.readHead ptr (budget-1)))
    else some (s.at c (.cmpxchg ptr budget head))
  | .cmpxchg ptr budget head =>
    if s.q.head=head then
      some {s.at c (.memcpy ptr head 0) with
        q:={s.q with head:=head+1}
        wins:=s.wins++[(c,ptr)]}
    else some (s.at c (.readHead ptr budget))
  | .readHead ptr budget => some (s.at c (.readTail ptr budget s.q.head))
  | .memcpy ptr head k =>
    if hk : k<wqWords then
      some {s.at c (.memcpy ptr head (k+1)) with
        q :=
          {s.q with
            array:=update s.q.array (s.q.slot head)
              (update (s.q.array (s.q.slot head)) ⟨k,hk⟩ (ptr ⟨k,hk⟩))}}
    else some (s.at c (.release ptr false 0))
  | .release ptr full ret =>
    some {s.at c .idle with
      q:={s.q with heads:=update s.q.heads c none}
      rets:=s.rets++[⟨c,ptr,full,ret⟩]}

def guardMin (lastHead : Nat) : Option Nat → Nat
  | none => lastHead
  | some currH => if currH<lastHead then currH else lastHead

omit [DecidableEq C] in
/-- `tfw_wq_pop_ticket()`, one step of the consumer -/
def Wq.popStep (s : Wq C W) : Option (Wq C W) :=
  match s.pop with
  | .idle => none
  | .readTail buf =>
    if s.q.lastHead ≤ s.q.tail then some {s with pop:=.readHead buf s.q.tail}
    else some {s with pop:=.memcpy buf s.q.tail 0}
  | .readHead buf tail =>
    some {s with
      q:={s.q with lastHead:=s.q.head}
      pop:=.scan buf tail s.cpus}
  | .scan buf tail (c::cpus) =>
    some {s with
      q:={s.q with lastHead:=guardMin s.q.lastHead (s.q.heads c)}
      pop:=.scan buf tail cpus}
  | .scan buf tail [] =>
    if s.q.lastHead≤tail then some {s with pop:=.idle, pops:=s.pops++[(none,tail)]}
    else some {s with pop:=.memcpy buf tail 0}
  | .memcpy buf tail k =>
    if hk : k<wqWords then
      let buf := update buf ⟨k,hk⟩ (s.q.array (s.q.slot tail) ⟨k,hk⟩)
      some {s with pop:=.memcpy buf tail (k+1)}
    else some {s with pop:=.setTail buf tail}
  | .setTail buf tail =>
    some {s with
      q:={s.q with tail:=tail+1}
      pop:=.idle
      pops:=s.pops++[(some buf,tail)]}

def Wq.step (s : Wq C W) : WqEvent C W → Option (Wq C W)
  | .pushCall c ptr =>
    match s.push c with
    | .idle => if c∈s.cpus then some (s.at c (.readFirst ptr)) else none
    | _ => none
  | .push c => s.pushStep c
  | .popCall buf =>
    match s.pop with
    | .idle => some {s with pop:=.readTail buf}
    | _ => none
  | .pop => s.popStep

omit [DecidableEq C] in
def Wq.popped (s : Wq C W) : List (WqItem W) := s.pops.filterMap Prod.fst

/-- The items of the pushes on CPU `c` that won a position -/
def Wq.winsOf (s : Wq C W) (c : C) : List (WqItem W) := s.wins.filterMap fun w => if w.1=c then some w.2 else none

/-- The items of the pushes on CPU `c` that returned success -/
def Wq.pushedOf (s : Wq C W) (c : C) : List (WqItem W) :=
  s.rets.filterMap fun r => if r.cpu=c ∧ r.ret=0 then some r.ptr else none

def Push.won : Push W → List (WqItem W)
  | .memcpy ptr _ _ => [ptr]
  | .release ptr false _ => [ptr]
  | _ => []
end VetWaf.Sock
