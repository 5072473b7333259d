import VetWaf.Lib.Lanes
import VetWaf.Sock.WorkQueueInv

namespace VetWaf.Sock
open Function
variable {C P V : Type*}

/-- Each long of a work is marked with the producer of the work and its number among the works of this producer. -/
abbrev SsWork (P V : Type*) := WqItem (V×P×Nat)

def SsWork.owner (sw : SsWork P V) : P := (sw ⟨0,by decide⟩).2.1
def SsWork.num (sw : SsWork P V) : Nat := (sw ⟨0,by decide⟩).2.2
def SsWork.mark (data : WqItem V) (p : P) (n : Nat) : SsWork P V := fun i => (data i,p,n)
@[simp] lemma SsWork.owner_mark (data : WqItem V) (p : P) (n : Nat) : (mark data p n).owner=p := rfl
@[simp] lemma SsWork.num_mark (data : WqItem V) (p : P) (n : Nat) : (mark data p n).num=n := rfl

inductive Producer (C P V : Type*) where
  | idle
  /-- In `ss_wq_push()` on CPU `c` -/
  | pushing (c : C) (sw : SsWork P V)
  /-- `ss_wq_push()` has returned the ticket. -/
  | full (ticket : Nat) (sw : SsWork P V)

/-- Where the consumer stands, in `ss_tx_action()` and `ss_wq_pop()` -/
inductive Consumer where
  /-- Not in `ss_tx_action()` -/
  | away
  /-- At the condition of the loop -/
  | loop
  /-- In the first `tfw_wq_pop_ticket()` -/
  | first
  /-- At `*ticket + 1 >= cb->turn` -/
  | test
  /-- In front of the section under the lock -/
  | lock
  /-- In the last `tfw_wq_pop_ticket()` -/
  | last
  deriving DecidableEq

/-- The queue, the backlog `cb` with `turn` (`none` is `LONG_MAX`), the producers, and the consumer with the variables
of `ss_tx_action()`. -/
structure Ss (C P V : Type*) where
  wq : Wq C (V×P×Nat)
  backlog : List (Nat×SsWork P V)
  turn : Option Nat
  producer : P → Producer C P V
  consumer : Consumer
  ticket : Nat
  sw : SsWork P V
  budget : Nat
  count : P → Nat
  queued : List (SsWork P V)
  out : List (Option Nat×SsWork P V)

inductive SsEvent (C P V : Type*) where
  /-- The producer begins to queue a work on CPU `c`. -/
  | queue (p : P) (c : C) (data : WqItem V)
  /-- One step of `ss_wq_push()` -/
  | push (p : P)
  /-- The producer gives up. -/
  | giveUp (p : P)
  /-- `ss_turnstile_push()` -/
  | turnstile (p : P)
  /-- `ss_tx_action()` begins. -/
  | action (sw : SsWork P V) (budget : Nat)
  /-- The loop calls `ss_wq_pop()`, without a budget if the sockets are not active. -/
  | call
  /-- One step of `ss_wq_pop()` -/
  | pop
  /-- The budget of the loop is used up. -/
  | leave

def Push.ret {W : Type*} : Push W → Option Nat
  | .release _ _ ret => some ret
  | _ => none

/-- `cb->turn > ticket` -/
def turnAbove (turn : Option Nat) (ticket : Nat) : Bool :=
  match turn with
  | none => true
  | some t => decide (ticket<t)

variable [DecidableEq C] [DecidableEq P]
def ssInit (cpus : List C) (qsize : Nat) (mem : Nat → SsWork P V) (sw : SsWork P V) : Ss C P V where
  wq := tfwWqInit cpus qsize mem
  backlog := []
  turn := none
  producer := fun _ => .idle
  consumer := .away
  ticket := 0
  sw := sw
  budget := 0
  count := fun _ => 0
  queued := []
  out := []

def Ss.setProducer (s : Ss C P V) (p : P) (next : Producer C P V) : Ss C P V :=
  {s with producer:=update s.producer p next}

/-- The producer goes on after a step of `ss_wq_push()`. -/
def Ss.pushed (s : Ss C P V) (p : P) (sw : SsWork P V) : Option Nat → Ss C P V
  | none => s
  | some 0 => {s.setProducer p .idle with queued:=s.queued++[sw]}
  | some ticket => s.setProducer p (.full ticket sw)

def Ss.turnstilePush (s : Ss C P V) (ticket : Nat) (sw : SsWork P V) : Ss C P V := {s with
    backlog:=s.backlog++[(ticket,sw)]
    turn:=if turnAbove s.turn ticket then some ticket else s.turn}

def updateTurn (backlog : List (Nat×SsWork P V)) : Option Nat := backlog.head?.map Prod.fst

/-- `ss_wq_pop()` begins a `tfw_wq_pop_ticket()` with the buffer `sw`. -/
def Ss.callPop (s : Ss C P V) (next : Consumer) : Option (Ss C P V) :=
  (s.wq.step (.popCall s.sw)).map fun wq => {s with wq:=wq, consumer:=next}

/-- `tfw_wq_pop_ticket()` returned. -/
def Ss.popRet (s : Ss C P V) (busy : Consumer) : Option (SsWork P V)×Nat → Ss C P V
  | (some sw,ticket) =>
    {s with ticket:=ticket, sw:=sw, consumer:=.loop, out:=s.out++[(none,sw)]}
  | (none,ticket) => {s with ticket:=ticket, consumer:=busy}

/-- A step of `tfw_wq_pop_ticket()` within `ss_wq_pop()` -/
def Ss.inPop (s : Ss C P V) (busy : Consumer) : Option (Ss C P V) := s.wq.popStep.map fun wq =>
    match wq.pop, wq.pops.getLast? with
    | .idle, some ret => {s with wq:=wq}.popRet busy ret
    | _, _ => {s with wq:=wq}

/-- One step of `ss_wq_pop()` -/
def Ss.popStep (s : Ss C P V) : Option (Ss C P V) :=
  match s.consumer with
  | .away | .loop => none
  | .first => s.inPop .test
  | .test => if turnAbove s.turn (s.ticket+1) then s.callPop .last else some {s with consumer:=.lock}
  | .lock =>
    match s.backlog with
    | [] => s.callPop .last
    | (ticket,sw)::backlog =>
      some {s with
        backlog:=backlog
        turn:=updateTurn backlog
        sw:=sw
        consumer:=.loop
        out:=s.out++[(some ticket,sw)]}
  | .last => s.inPop .away

def Ss.step (s : Ss C P V) : SsEvent C P V → Option (Ss C P V)
  | .queue p c data =>
    match s.producer p with
    | .idle =>
      let sw := SsWork.mark data p (s.count p)
      (s.wq.step (.pushCall c sw)).map fun wq =>
        {s.setProducer p (.pushing c sw) with
          wq:=wq
          count:=update s.count p (s.count p+1)}
    | _ => none
  | .push p =>
    match s.producer p with
    | .pushing c sw => (s.wq.pushStep c).map fun wq => {s with wq:=wq}.pushed p sw (s.wq.push c).ret
    | _ => none
  | .giveUp p =>
    match s.producer p with
    | .full _ _ => some (s.setProducer p .idle)
    | _ => none
  | .turnstile p =>
    match s.producer p with
    | .full ticket sw => some {(s.turnstilePush ticket sw).setProducer p .idle with queued:=s.queued++[sw]}
    | _ => none
  | .action sw budget =>
    if s.consumer=.away then
      some {s with consumer:=.loop, ticket:=0, sw:=sw, budget:=max 10 budget}
    else none
  | .call =>
    let s' := {s with budget:=s.budget-1}
    if s.consumer=.loop then
      if s.ticket=0 then s'.callPop .first else some {s' with consumer:=.test}
    else none
  | .pop => s.popStep
  | .leave => if s.consumer=.loop ∧ s.budget=0 then some {s with consumer:=.away} else none

/-- When the order is kept. -/
def Ss.inTurn (s : Ss C P V) : SsEvent C P V → Bool
  | .turnstile p =>
    match s.producer p with
    | .full ticket _ => s.backlog.all fun n => decide (n.1≤ticket)
    | _ => true
  | .pop =>
    match s.consumer with
    | .test => !(decide (s.wq.q.tail=s.ticket) && decide (s.turn=some (s.ticket+1)))
    | .first | .last =>
      match s.wq.pop with
      | .setTail _ tail => turnAbove s.turn tail
      | _ => true
    | _ => true
  | _ => true
end VetWaf.Sock
