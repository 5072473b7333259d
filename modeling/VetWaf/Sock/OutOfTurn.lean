import VetWaf.Sock.TurnstileOrder

namespace VetWaf.Sock
open Function List Run Nat

/-- The item is in the slot of position `pos`. -/
def Wq.store {C W : Type*} (wq : Wq C W) (pos : Nat) (item : WqItem W) : Wq C W :=
  {wq with q:={wq.q with array:=update wq.q.array (wq.q.slot pos) item}}

/-- The guard of the producer is at the head. -/
def Wq.guarded {W : Type*} (wq : Wq Bool W) (p : Bool) : Wq Bool W :=
  {wq with q:={wq.q with heads:=update wq.q.heads p (some wq.q.head)}}

/-- The producer has won the position at the head. -/
def Wq.won {W : Type*} (wq : Wq Bool W) (p : Bool) (ptr : WqItem W) : Wq Bool W :=
  {wq.guarded p with q:={(wq.guarded p).q with head:=wq.q.head+1}, wins:=wq.wins++[(p,ptr)]}

/-- Some steps lead from one state to the other. -/
abbrev Leads (s s' : Ss Bool Bool Unit) : Prop := Relation.ReflTransGen (fun s s' => ∃e,Ss.step s e=some s') s s'

namespace Ss
variable (s : Ss Bool Bool Unit) (p : Bool)

def nextWork : SsWork Bool Unit := SsWork.mark noData p (s.count p)

/-- The producer is at `place` of `ss_wq_push()` with its next work, and the queue is `wq`. -/
def pushing (wq : Wq Bool (Unit×Bool×Nat)) (place : Push (Unit×Bool×Nat)) : Ss Bool Bool Unit := {s with
    wq:=wq.at p place
    producer:=update s.producer p (.pushing p (s.nextWork p))
    count:=update s.count p (s.count p+1)}

/-- The producer has set its guard and has not won a position yet. -/
def guarded : Ss Bool Bool Unit := s.pushing p (s.wq.guarded p) (.readTail (s.nextWork p) 10 s.wq.q.head)

/-- The producer has queued its next work. -/
def afterPush : Ss Bool Bool Unit := {s with
    wq :=
      {s.wq with
        q :=
          {s.wq.q with
            heads:=update s.wq.q.heads p none
            array:=update s.wq.q.array (s.wq.q.slot s.wq.q.head) (s.nextWork p)
            head:=s.wq.q.head+1}
        push:=update s.wq.push p .idle
        wins:=s.wq.wins++[(p,s.nextWork p)]
        rets:=s.wq.rets++[⟨p,s.nextWork p,false,0⟩]}
    producer:=update s.producer p .idle
    count:=update s.count p (s.count p+1)
    queued:=s.queued++[s.nextWork p]}

/-- The producer has a ticket for its next work. -/
def afterFull : Ss Bool Bool Unit := {s with
    wq :=
      {s.wq with
        q:={s.wq.q with heads:=update s.wq.q.heads p none}
        push:=update s.wq.push p .idle
        rets:=s.wq.rets++[⟨p,s.nextWork p,true,s.wq.q.head⟩]}
    producer:=update s.producer p (.full s.wq.q.head (s.nextWork p))
    count:=update s.count p (s.count p+1)}

end Ss

variable {s : Ss Bool Bool Unit} {p : Bool} {wq : Wq Bool (Unit×Bool×Nat)} {place : Push (Unit×Bool×Nat)}

lemma leads_pushing (wq' : Wq Bool (Unit×Bool×Nat)) (place' : Push (Unit×Bool×Nat))
    (h : (wq.at p place).pushStep p=some (wq'.at p place')) (hr : place.ret=none) :
    Leads (s.pushing p wq place) (s.pushing p wq' place') := by
  refine .single ⟨.push p,?_⟩
  have hpl : (wq.at p place).push p=place := update_self ..
  simp only [Ss.step,Ss.pushing,update_self,h,Option.map_some,hpl,hr,Ss.pushed]

lemma leads_guarded (hp : s.producer p=.idle) (hpu : s.wq.push p=.idle) (hc : p∈s.wq.cpus) :
    Leads s (s.guarded p) := by
  have hq : Leads s (s.pushing p s.wq (.readFirst (s.nextWork p))) := by
    refine .single ⟨.queue p p noData,?_⟩
    simp [Ss.step,hp,Wq.step,hpu,hc,Ss.setProducer,Ss.pushing,Ss.nextWork,Wq.at]
  refine hq.trans ((leads_pushing s.wq (.setGuard (s.nextWork p) s.wq.q.head) ?_ rfl).trans
    (leads_pushing _ _ ?_ rfl))
  · simp [Wq.pushStep,Wq.at]
  · simp [Wq.pushStep,Wq.at,Wq.guarded]

lemma copied_item {W : Type*} (a b : WqItem W) : update (update (update (update a ⟨0,by decide⟩ (b ⟨0,by decide⟩))
      ⟨1,by decide⟩ (b ⟨1,by decide⟩)) ⟨2,by decide⟩ (b ⟨2,by decide⟩)) ⟨3,by decide⟩ (b ⟨3,by decide⟩)=b := by
  funext i
  obtain ⟨i,hi⟩ := i
  unfold wqWords at hi
  interval_cases i <;> rfl

/-- The longs of an item are copied to the slot of its position. -/
lemma leads_memcpy (wq : Wq Bool (Unit×Bool×Nat)) (ptr : SsWork Bool Unit) (head : Nat) :
    Leads (s.pushing p wq (.memcpy ptr head 0)) (s.pushing p (wq.store head ptr) (.release ptr false 0)) := by
  have hcopy (k : Nat) (hk : k<wqWords) (item : SsWork Bool Unit) :
      Leads (s.pushing p (wq.store head item) (.memcpy ptr head k))
        (s.pushing p (wq.store head (update item ⟨k,hk⟩ (ptr ⟨k,hk⟩))) (.memcpy ptr head (k+1))) := by
    refine leads_pushing _ _ ?_ rfl
    simp [Wq.pushStep,Wq.at,hk,Wq.store,TfwRBQueue.slot]
  have h0 := hcopy 0 (by decide) (wq.q.array (wq.q.slot head))
  have hsame : wq.store head (wq.q.array (wq.q.slot head))=wq := by rw [Wq.store,update_eq_self]
  rw [hsame] at h0
  have h4 := h0.trans ((hcopy 1 (by decide) _).trans ((hcopy 2 (by decide) _).trans (hcopy 3 (by decide) _)))
  rw [copied_item] at h4
  refine h4.trans (leads_pushing _ _ ?_ rfl)
  simp [Wq.pushStep,Wq.at,wqWords]

lemma leads_afterPush (hp : s.producer p=.idle) (hpu : s.wq.push p=.idle) (hc : p∈s.wq.cpus)
    (hlt : s.wq.q.head<s.wq.q.tail+s.wq.q.qsize) : Leads s (s.afterPush p) := by
  refine (leads_guarded hp hpu hc).trans ((leads_pushing (s.wq.guarded p) (.cmpxchg (s.nextWork p) 10 s.wq.q.head) ?_
    rfl).trans ((leads_pushing (s.wq.won p (s.nextWork p)) (.memcpy (s.nextWork p) s.wq.q.head 0) ?_ rfl).trans
      ((leads_memcpy _ (s.nextWork p) s.wq.q.head).trans (.single ⟨.push p,?_⟩))))
  · simp [Wq.pushStep,Wq.at,Wq.guarded,hlt.ne,hlt.not_gt]
  · simp [Wq.pushStep,Wq.at,Wq.guarded,Wq.won]
  · simp [Ss.step,Ss.pushing,Wq.pushStep,Wq.at,Push.ret,Ss.pushed,Ss.setProducer,Ss.afterPush,Wq.store,Wq.won,
      Wq.guarded,TfwRBQueue.slot]

/-- The rest of the budget is spent on a full ring. -/
lemma leads_full (wq : Wq Bool (Unit×Bool×Nat)) (ptr : SsWork Bool Unit) (hfull : wq.q.head=wq.q.tail+wq.q.qsize)
    (b : Nat) : Leads (s.pushing p wq (.readTail ptr (b+1) wq.q.head))
      (s.pushing p wq (.release ptr true wq.q.head)) := by
  induction b with
  | zero =>
    refine leads_pushing _ _ ?_ rfl
    simp [Wq.pushStep,Wq.at,hfull]
  | succ b ih =>
    refine (leads_pushing wq (.readHead ptr (b+1)) ?_ rfl).trans ((leads_pushing _ _ ?_ rfl).trans ih)
    · simp [Wq.pushStep,Wq.at,hfull]
    · simp [Wq.pushStep,Wq.at]

lemma leads_afterFull (hp : s.producer p=.idle) (hpu : s.wq.push p=.idle) (hc : p∈s.wq.cpus)
    (hfull : s.wq.q.head=s.wq.q.tail+s.wq.q.qsize) (h0 : s.wq.q.head≠0) : Leads s (s.afterFull p) := by
  refine (leads_guarded hp hpu hc).trans ((leads_full (s.wq.guarded p) _ hfull 9).trans (.single ⟨.push p,?_⟩))
  obtain ⟨h,hh⟩ := Nat.exists_eq_succ_of_ne_zero h0
  simp [Ss.step,Ss.pushing,Wq.pushStep,Wq.at,Push.ret,Ss.pushed,Ss.setProducer,Ss.afterFull,Wq.guarded,hh]

namespace Ss
variable (s : Ss Bool Bool Unit)

/-- The consumer is at `pop` of `tfw_wq_pop_ticket()`, which was called at `c` of `ss_wq_pop()`. -/
def popping (c : Consumer) (wq : Wq Bool (Unit×Bool×Nat)) (pop : Pop Bool (Unit×Bool×Nat)) : Ss Bool Bool Unit :=
  {s with wq:={wq with pop:=pop}, consumer:=c}

/-- What the guards let the consumer see of the queue -/
def seen : Nat := guardMin (guardMin s.wq.q.head (s.wq.q.heads true)) (s.wq.q.heads false)

def first : SsWork Bool Unit := s.wq.q.array (s.wq.q.slot s.wq.q.tail)

/-- The first item was taken, with `lastHead` as the consumer saw it. -/
def afterPop (lastHead : Nat) : Ss Bool Bool Unit := {s with
    wq :=
      {s.wq with
        q:={s.wq.q with lastHead:=lastHead, tail:=s.wq.q.tail+1}
        pop:=.idle
        pops:=s.wq.pops++[(some s.first,s.wq.q.tail)]}
    consumer:=.loop
    budget:=s.budget-1
    ticket:=s.wq.q.tail
    sw:=s.first
    out:=s.out++[(none,s.first)]}

/-- Nothing was seen to take. -/
def afterFail (c : Consumer) : Ss Bool Bool Unit := {s with
    wq:={s.wq with q:={s.wq.q with lastHead:=s.seen}, pop:=.idle, pops:=s.wq.pops++[(none,s.wq.q.tail)]}
    consumer:=c
    budget:=s.budget-1
    ticket:=s.wq.q.tail}

end Ss

variable {pop : Pop Bool (Unit×Bool×Nat)} {c : Consumer}
lemma leads_popping (wq' : Wq Bool (Unit×Bool×Nat)) (pop' : Pop Bool (Unit×Bool×Nat)) (hc : c=.first ∨ c=.last)
    (h : ({wq with pop:=pop} : Wq Bool _).popStep=some {wq' with pop:=pop'}) (hne : pop' ≠ .idle) :
    Leads (s.popping c wq pop) (s.popping c wq' pop') := by
  have hin (busy : Consumer) : (s.popping c wq pop).inPop busy=some (s.popping c wq' pop') := by
    simp only [Ss.inPop,Ss.popping,h,Option.map_some]
    split
    · exact absurd rfl hne
    · rfl
  obtain rfl | rfl := hc
  · exact .single ⟨.pop,hin .test⟩
  · exact .single ⟨.pop,hin .away⟩

/-- Where `ss_wq_pop()` calls `tfw_wq_pop_ticket()` -/
def Ss.caller (s : Ss Bool Bool Unit) : Consumer := if s.ticket=0 then .first else .last

lemma caller_eq (s : Ss Bool Bool Unit) : s.caller=.first ∨ s.caller=.last := by
  unfold Ss.caller
  split_ifs
  · exact .inl rfl
  · exact .inr rfl

lemma leads_test (hl : s.consumer=.loop) (h0 : s.ticket≠0) :
    Leads s {s with budget:=s.budget-1, consumer:=.test} := .single ⟨.call,by simp [Ss.step,hl,h0]⟩

lemma leads_call (hl : s.consumer=.loop) (hp : s.wq.pop=.idle)
    (ht : s.ticket=0 ∨ turnAbove s.turn (s.ticket+1)=true) :
    Leads s ({s with budget:=s.budget-1}.popping s.caller s.wq (.readTail s.sw)) := by
  by_cases h0 : s.ticket=0
  · refine .single ⟨.call,?_⟩
    simp [Ss.step,hl,h0,Ss.callPop,Wq.step,hp,Ss.popping,Ss.caller]
  · refine (leads_test hl h0).trans (.single ⟨.pop,?_⟩)
    have ht : turnAbove s.turn (s.ticket+1)=true := ht.resolve_left h0
    simp [Ss.step,Ss.popStep,h0,ht,Ss.callPop,Wq.step,hp,Ss.popping,Ss.caller]

/-- The head and the guards are read. -/
lemma leads_scan (hc : c=.first ∨ c=.last) (hcpus : wq.cpus=[true,false]) (hle : wq.q.lastHead≤wq.q.tail)
    (buf : SsWork Bool Unit) : Leads (s.popping c wq (.readTail buf)) (s.popping c
      {wq with q:={wq.q with lastHead:=guardMin (guardMin wq.q.head (wq.q.heads true)) (wq.q.heads false)}}
      (.scan buf wq.q.tail [])) := by
  refine (leads_popping wq (.readHead buf wq.q.tail) hc ?_ (by simp)).trans
    ((leads_popping {wq with q:={wq.q with lastHead:=wq.q.head}} (.scan buf wq.q.tail [true,false]) hc ?_
      (by simp)).trans ((leads_popping {wq with q:={wq.q with lastHead:=guardMin wq.q.head (wq.q.heads true)}}
        (.scan buf wq.q.tail [false]) hc ?_ (by simp)).trans (leads_popping _ _ hc ?_ (by simp))))
  · simp [Wq.popStep,hle]
  · simp [Wq.popStep,hcpus]
  · simp [Wq.popStep]
  · simp [Wq.popStep]

/-- The longs of the first item are copied. -/
lemma leads_copy (hc : c=.first ∨ c=.last) (wq : Wq Bool (Unit×Bool×Nat)) (buf : SsWork Bool Unit) (tail : Nat) :
    Leads (s.popping c wq (.memcpy buf tail 0)) (s.popping c wq (.setTail (wq.q.array (wq.q.slot tail)) tail)) := by
  have hcopy (k : Nat) (hk : k<wqWords) (buf : SsWork Bool Unit) : Leads (s.popping c wq (.memcpy buf tail k))
      (s.popping c wq (.memcpy (update buf ⟨k,hk⟩ (wq.q.array (wq.q.slot tail) ⟨k,hk⟩)) tail (k+1))) := by
    refine leads_popping _ _ hc ?_ (by simp)
    simp [Wq.popStep,hk]
  have h4 := (hcopy 0 (by decide) buf).trans ((hcopy 1 (by decide) _).trans ((hcopy 2 (by decide) _).trans
    (hcopy 3 (by decide) _)))
  rw [copied_item] at h4
  refine h4.trans (leads_popping _ _ hc ?_ (by simp))
  simp [Wq.popStep,wqWords]

lemma leads_setTail (hc : c=.first ∨ c=.last) (wq : Wq Bool (Unit×Bool×Nat)) (item : SsWork Bool Unit) (tail : Nat) :
    Leads (s.popping c wq (.setTail item tail)) {s with
      wq:={wq with q:={wq.q with tail:=tail+1}, pop:=.idle, pops:=wq.pops++[(some item,tail)]}
      ticket:=tail
      sw:=item
      consumer:=.loop
      out:=s.out++[(none,item)]} := by
  obtain rfl | rfl := hc
  · refine .single ⟨.pop,?_⟩
    simp [Ss.step,Ss.popStep,Ss.popping,Ss.inPop,Wq.popStep,Ss.popRet]
  · refine .single ⟨.pop,?_⟩
    simp [Ss.step,Ss.popStep,Ss.popping,Ss.inPop,Wq.popStep,Ss.popRet]

lemma leads_afterPop (hl : s.consumer=.loop) (hp : s.wq.pop=.idle) (hcpus : s.wq.cpus=[true,false])
    (ht : s.ticket=0 ∨ turnAbove s.turn (s.ticket+1)=true) (hlt : s.wq.q.tail<s.seen) :
    ∃lastHead,(lastHead=s.wq.q.lastHead ∨ lastHead=s.seen) ∧ Leads s (s.afterPop lastHead) := by
  have hc := caller_eq s
  have hca := leads_call hl hp ht
  have htake (lastHead : Nat) : Leads ({s with budget:=s.budget-1}.popping s.caller
      {s.wq with q:={s.wq.q with lastHead:=lastHead}} (.memcpy s.sw s.wq.q.tail 0)) (s.afterPop lastHead) := by
    exact (leads_copy hc _ _ _).trans (leads_setTail hc _ _ _)
  by_cases hle : s.wq.q.lastHead≤ s.wq.q.tail
  · refine ⟨s.seen,.inr rfl,hca.trans ((leads_scan hc hcpus hle _).trans
      ((leads_popping _ _ hc ?_ (by simp)).trans (htake _)))⟩
    have hno : ¬guardMin (guardMin s.wq.q.head (s.wq.q.heads true)) (s.wq.q.heads false) ≤ s.wq.q.tail := not_le.2 hlt
    simp [Wq.popStep,hno,Ss.seen]
  · refine ⟨s.wq.q.lastHead,.inl rfl,hca.trans ((leads_popping _ _ hc ?_ (by simp)).trans (htake _))⟩
    simp [Wq.popStep,hle]

lemma leads_afterFail (hl : s.consumer=.loop) (hp : s.wq.pop=.idle) (hcpus : s.wq.cpus=[true,false])
    (ht : s.ticket=0 ∨ turnAbove s.turn (s.ticket+1)=true) (hle : s.wq.q.lastHead≤ s.wq.q.tail)
    (hse : s.seen≤ s.wq.q.tail) : Leads s (s.afterFail (if s.ticket=0 then .test else .away)) := by
  refine (leads_call hl hp ht).trans ((leads_scan (caller_eq s) hcpus hle _).trans (.single ⟨.pop,?_⟩))
  unfold Ss.seen at hse
  by_cases h0 : s.ticket=0
  · simp [Ss.step,Ss.popStep,Ss.caller,h0,Ss.popping,Ss.inPop,Wq.popStep,Ss.popRet,hse,Ss.afterFail,Ss.seen]
  · simp [Ss.step,Ss.popStep,Ss.caller,h0,Ss.popping,Ss.inPop,Wq.popStep,Ss.popRet,hse,Ss.afterFail,Ss.seen]

abbrev work (n : Nat) : SsWork Bool Unit := SsWork.mark noData true n

/-- What the course of the steps depends on: the works in the queue stand for its memory. -/
structure View where
  producer : Bool → Producer Bool Bool Unit := fun _ => .idle
  push : Bool → Push (Unit×Bool×Nat) := fun _ => .idle
  guard : Bool → Option Nat := fun _ => none
  count : Bool → Nat := fun _ => 0
  tail : Nat := 0
  ring : List (SsWork Bool Unit) := []
  lastHead : Nat := 0
  backlog : List (Nat×SsWork Bool Unit) := []
  turn : Option Nat := none
  consumer : Consumer := .away
  ticket : Nat := 0
  budget : Nat := 0
  queued : List (SsWork Bool Unit) := []
  out : List (Option Nat×SsWork Bool Unit) := []

def Ss.view (s : Ss Bool Bool Unit) : View where
  producer := s.producer
  push := s.wq.push
  guard := s.wq.q.heads
  count := s.count
  tail := s.wq.q.tail
  ring := (range' s.wq.q.tail (s.wq.q.head-s.wq.q.tail)).map fun i => s.wq.q.array (s.wq.q.slot i)
  lastHead := s.wq.q.lastHead
  backlog := s.backlog
  turn := s.turn
  consumer := s.consumer
  ticket := s.ticket
  budget := s.budget
  queued := s.queued
  out := s.out

namespace View
variable (v : View)
def head : Nat := v.tail+v.ring.length
def seen : Nat := guardMin (guardMin v.head (v.guard true)) (v.guard false)

/-- The first `j` works were taken. -/
def drained (j l t : Nat) : View :=
  {v with tail:=v.tail+j, ring:=v.ring.drop j, lastHead:=l, ticket:=t, budget:=v.budget-j
          out:=v.out++(v.ring.take j).map (fun w => (none,w))}

lemma seen_drained {j : Nat} (l t : Nat) (hj : j≤v.ring.length) : (v.drained j l t).seen=v.seen := by
  rw [seen,seen,head,head,drained,length_drop,show v.tail+j+(v.ring.length-j)=v.tail+v.ring.length by omega]

lemma drained_drained (j l t l' : Nat) :
    (v.drained j l t).drained 1 l' (v.tail+j)=v.drained (j+1) l' (v.tail+j) := by
  simp [drained,take_add,Nat.sub_sub,Nat.add_assoc]

/-- Nothing was seen to take. -/
def failed : View :=
  {v with lastHead:=v.seen, consumer:=if v.ticket=0 then .test else .away, ticket:=v.tail, budget:=v.budget-1}

end View

/-- Nobody is in `tfw_wq_pop_ticket()`, and the positions are in range. -/
structure Calm (k : Nat) (wq : Wq Bool (Unit×Bool×Nat)) : Prop where
  cpus : wq.cpus=[true,false]
  qsize : wq.q.qsize=2^k
  pop : wq.pop=.idle
  le : wq.q.tail≤wq.q.head
  ge : wq.q.head≤wq.q.tail+2^k

/-- The queue of a CPU with `2^k` slots; `TFW_DFLT_QSZ` is `2^11`. -/
def siWq (k : Nat) : Ss Bool Bool Unit := ssInit [true,false] (2^k) (fun _ => work 0) (work 0)

/-- A run leads to a state with this view. -/
def Reach (k : Nat) (v : View) : Prop := ∃s,Leads (siWq k) s ∧ Calm k s.wq ∧ s.view=v

variable {k n : Nat} {v : View}
lemma reach_init (k : Nat) : Reach k {} :=
  ⟨_,.refl,⟨rfl,rfl,rfl,le_rfl,zero_le⟩,by simp [siWq,Ss.view,ssInit,tfwWqInit]⟩

lemma Calm.head (h : Calm k s.wq) : s.view.head=s.wq.q.head := by
  have := h.le
  simp only [View.head,Ss.view,length_map,length_range']
  omega

lemma Calm.seen (h : Calm k s.wq) : s.view.seen=s.seen := by
  rw [View.seen,h.head]
  rfl

lemma Calm.mem_cpus (h : Calm k s.wq) (p : Bool) : p∈s.wq.cpus := by cases p <;> simp [h.cpus]

lemma Calm.ring_afterPush (h : Calm k s.wq) (hlt : s.wq.q.head<s.wq.q.tail+2^k) :
    (s.afterPush true).view.ring=s.view.ring++[s.nextWork true] := by
  have hle := h.le
  change (range' s.wq.q.tail (s.wq.q.head+1-s.wq.q.tail)).map (fun i =>
    update s.wq.q.array (s.wq.q.slot s.wq.q.head) (s.nextWork true) (s.wq.q.slot i))=_
  rw [Nat.succ_sub hle,range'_1_concat,Nat.add_sub_of_le hle,map_append,map_singleton,update_self]
  congr 1
  refine map_congr_left fun i hi => update_of_ne (fun heq => ?_) _ _
  rw [mem_range'_1] at hi
  have := TfwRBQueue.slot_inj h.qsize hi.1 (by rw [h.qsize]; omega) hle (by rwa [h.qsize]) heq
  omega

namespace Reach
lemma push (h : Reach k v) (hp : v.producer true=.idle) (hpu : v.push true=.idle) (hg : v.guard true=none)
    (hn : v.count true=n) (hlt : v.ring.length<2^k) :
    Reach k {v with count:=update v.count true (n+1), ring:=v.ring++[work n], queued:=v.queued++[work n]} := by
  obtain ⟨s,hl,hc,rfl⟩ := h
  have hlt : s.wq.q.head<s.wq.q.tail+2^k := by
    rw [← hc.head]
    exact Nat.add_lt_add_left hlt _
  have hw : s.nextWork true=work n := congrArg (SsWork.mark noData true) hn
  have hr := hc.ring_afterPush hlt
  refine ⟨_,hl.trans (leads_afterPush hp hpu (hc.mem_cpus true) (by rwa [hc.qsize])),
    ⟨hc.cpus,hc.qsize,hc.pop,hc.le.trans (le_succ _),hlt⟩,?_⟩
  have hp' : update s.producer true .idle=s.producer := update_eq_self_iff.2 hp.symm
  have hpu' : update s.wq.push true .idle=s.wq.push := update_eq_self_iff.2 hpu.symm
  have hg' : update s.wq.q.heads true none=s.wq.q.heads := update_eq_self_iff.2 hg.symm
  rw [← hw,← hr,← hn]
  simp only [Ss.view,Ss.afterPush,hp',hpu',hg']

lemma fill (h : Reach k v) (hp : v.producer true=.idle) (hpu : v.push true=.idle) (hg : v.guard true=none)
    (hn : v.count true=n) (j : Nat) (hj : v.ring.length+j≤2^k) :
    Reach k {v with count:=update v.count true (n+j), ring:=v.ring++(range' n j).map work
                    queued:=v.queued++(range' n j).map work} := by
  induction j with
  | zero => simpa [← hn] using h
  | succ j ih =>
    have h1 := (ih (by omega)).push hp hpu hg (update_self true (n+j) v.count) (by simp; omega)
    simpa [range'_1_concat,Nat.add_assoc] using h1

lemma guarded (h : Reach k v) (hp : v.producer false=.idle) (hpu : v.push false=.idle) (hn : v.count false=n) :
    Reach k {v with
      producer:=update v.producer false (.pushing false (SsWork.mark noData false n))
      push:=update v.push false (.readTail (SsWork.mark noData false n) 10 v.head)
      guard:=update v.guard false (some v.head)
      count:=update v.count false (n+1)} := by
  obtain ⟨s,hl,hc,rfl⟩ := h
  refine ⟨_,hl.trans (leads_guarded hp hpu (hc.mem_cpus false)),⟨hc.cpus,hc.qsize,hc.pop,hc.le,hc.ge⟩,?_⟩
  rw [hc.head,← hn]
  rfl

lemma full (h : Reach k v) (hp : v.producer p=.idle) (hpu : v.push p=.idle) (hg : v.guard p=none)
    (hn : v.count p=n) (hfull : v.ring.length=2^k) {t : Nat} (ht : v.head=t) :
    Reach k {v with
      producer:=update v.producer p (.full t (SsWork.mark noData p n))
      count:=update v.count p (n+1)} := by
  obtain ⟨s,hl,hc,rfl⟩ := h
  have hf : s.wq.q.head=s.wq.q.tail+2^k := by
    rw [← hc.head,View.head,hfull]
    rfl
  have hpo := Nat.two_pow_pos k
  refine ⟨_,hl.trans (leads_afterFull hp hpu (hc.mem_cpus p) (by rw [hc.qsize,hf]) (by omega)),
    ⟨hc.cpus,hc.qsize,hc.pop,hc.le,hc.ge⟩,?_⟩
  have hpu' : update s.wq.push p .idle=s.wq.push := update_eq_self_iff.2 hpu.symm
  have hg' : update s.wq.q.heads p none=s.wq.q.heads := update_eq_self_iff.2 hg.symm
  rw [← ht,hc.head,← hn]
  simp only [Ss.view,Ss.afterFull,hpu',hg']
  rfl

lemma turnstile {t : Nat} {w : SsWork Bool Unit} (h : Reach k v) (hp : v.producer p=.full t w) :
    Reach k {v with
      producer:=update v.producer p .idle
      backlog:=v.backlog++[(t,w)]
      turn:=if turnAbove v.turn t then some t else v.turn
      queued:=v.queued++[w]} := by
  obtain ⟨s,hl,hc,rfl⟩ := h
  have hp' : s.producer p=.full t w := hp
  refine ⟨{(s.turnstilePush t w).setProducer p .idle with queued:=s.queued++[w]},hl.tail ⟨.turnstile p,?_⟩,hc,rfl⟩
  simp [Ss.step,hp']

lemma acting (size : Nat) (h : Reach k v) (hc : v.consumer=.away) :
    Reach k {v with consumer:=.loop, ticket:=0, budget:=max 10 size} := by
  obtain ⟨s,hl,hs,rfl⟩ := h
  exact ⟨_,hl.tail ⟨.action (work 0) size,if_pos hc⟩,hs,rfl⟩

lemma leave (h : Reach k v) (hc : v.consumer=.loop) (hb : v.budget=0) : Reach k {v with consumer:=.away} := by
  obtain ⟨s,hl,hs,rfl⟩ := h
  exact ⟨_,hl.tail ⟨.leave,if_pos ⟨hc,hb⟩⟩,hs,rfl⟩

lemma fail (h : Reach k v) (hc : v.consumer=.loop) (ht : v.ticket=0 ∨ turnAbove v.turn (v.ticket+1)=true)
    (hle : v.lastHead≤v.tail) (hse : v.seen≤v.tail) : Reach k v.failed := by
  obtain ⟨s,hl,hs,rfl⟩ := h
  rw [View.failed,hs.seen]
  rw [hs.seen] at hse
  exact ⟨_,hl.trans (leads_afterFail hc hs.pop hs.cpus ht hle hse),⟨hs.cpus,hs.qsize,rfl,hs.le,hs.ge⟩,rfl⟩

lemma backlog {t : Nat} {w : SsWork Bool Unit} {rest : List (Nat×SsWork Bool Unit)} (h : Reach k v)
    (hc : v.consumer=.test) (ht : turnAbove v.turn (v.ticket+1)=false) (hb : v.backlog=(t,w)::rest) :
    Reach k {v with backlog:=rest, turn:=updateTurn rest, consumer:=.loop, out:=v.out++[(some t,w)]} := by
  obtain ⟨s,hl,hs,rfl⟩ := h
  have hc' : s.consumer=.test := hc
  have ht' : turnAbove s.turn (s.ticket+1)=false := ht
  have hb' : s.backlog=(t,w)::rest := hb
  refine ⟨{s with backlog:=rest, turn:=updateTurn rest, sw:=w, consumer:=.loop, out:=s.out++[(some t,w)]},
    (hl.tail (c := {s with consumer:=.lock}) ⟨.pop,?_⟩).tail ⟨.pop,?_⟩,hs,rfl⟩
  · simp [Ss.step,Ss.popStep,hc',ht']
  · simp [Ss.step,Ss.popStep,hb']

lemma test (h : Reach k v) (hc : v.consumer=.loop) (h0 : v.ticket≠0) :
    Reach k {v with budget:=v.budget-1, consumer:=.test} := by
  obtain ⟨s,hl,hs,rfl⟩ := h
  exact ⟨_,hl.trans (leads_test hc h0),hs,rfl⟩

lemma take (h : Reach k v) (hc : v.consumer=.loop) (ht : v.ticket=0 ∨ turnAbove v.turn (v.ticket+1)=true)
    (hr : v.ring≠[]) (hse : v.tail<v.seen) :
    ∃l,(l=v.lastHead ∨ l=v.seen) ∧ Reach k (v.drained 1 l v.tail) := by
  obtain ⟨s,hl,hs,rfl⟩ := h
  rw [hs.seen] at hse ⊢
  obtain ⟨l,hla,hlp⟩ := leads_afterPop hc hs.pop hs.cpus ht hse
  obtain ⟨n,hn⟩ : ∃n,s.wq.q.head-s.wq.q.tail=n+1 := by
    refine Nat.exists_eq_succ_of_ne_zero fun h0 => hr ?_
    simp [Ss.view,h0]
  refine ⟨l,hla,_,hl.trans hlp,⟨hs.cpus,hs.qsize,rfl,by change s.wq.q.tail+1≤ s.wq.q.head; omega,?_⟩,?_⟩
  · exact hs.ge.trans (by change _≤ s.wq.q.tail+1+2^k; omega)
  · have hn' : s.wq.q.head-(s.wq.q.tail+1)=n := by omega
    simp [Ss.view,Ss.afterPop,View.drained,Ss.first,hn,hn',range'_succ]
    exact ⟨fun _ _ _ => rfl,hc.symm⟩

lemma drain (j : Nat) (h : Reach k v) (hc : v.consumer=.loop) (htk : v.ticket=0 ∨ v.ticket+1≤v.tail)
    (hturn : ∀i<v.seen,turnAbove v.turn i=true) (hj : j≤v.ring.length) (hse : v.tail+j≤v.seen)
    (hla : v.lastHead≤v.seen) :
    ∃l t,l≤v.seen ∧ (j=0 ∧ t=v.ticket ∨ t+1=v.tail+j) ∧ Reach k (v.drained j l t) := by
  induction j with
  | zero =>
    refine ⟨v.lastHead,v.ticket,hla,.inl ⟨rfl,rfl⟩,?_⟩
    simpa [View.drained] using h
  | succ j ih =>
    obtain ⟨l,t,hl,ht,h1⟩ := ih (by omega) (by omega)
    have hs1 := v.seen_drained l t (show j≤v.ring.length by omega)
    have ht1 : t=0 ∨ turnAbove v.turn (t+1)=true := by
      obtain ⟨-,rfl⟩ | ht := ht
      · exact htk.imp_right fun h => hturn _ (by omega)
      · exact .inr (hturn _ (by omega))
    have hr1 : (v.drained j l t).ring≠[] := by
      rw [ne_eq,View.drained,drop_eq_nil_iff]
      omega
    obtain ⟨l',hl',h2⟩ := h1.take hc ht1 hr1 (by rw [hs1]; exact hse)
    refine ⟨l',v.tail+j,?_,.inr rfl,v.drained_drained _ _ _ _ ▸ h2⟩
    obtain rfl | rfl := hl'
    · exact hl
    · exact hs1.le
end Reach

lemma ten_le (hk : 4≤k) : 10≤2^k := (by decide : 10≤2^4).trans (Nat.pow_le_pow_right two_pos hk)

/-- The pop fails at the guard of the second producer with the last work in the queue, and the ticket it leaves lets
the work in the backlog pass. -/
lemma stale_guard_overtakes (hk : 4≤k) : ∃v,Reach k v ∧ v.queued=(range (2^k+1)).map work ∧
    v.out=(range (2^k-1)).map (fun i => (none,work i))++[(some (2^k),work (2^k))] := by
  have hn := ten_le hk
  have hr : range (2^k)=range (2^k-1)++[2^k-1] := by rw [← range_succ,succ_eq_add_one,Nat.sub_add_cancel (by omega)]
  have h1 := (reach_init k).fill rfl rfl rfl rfl (2^k-1) (by simp)
  have h2 := (h1.guarded rfl rfl rfl).push (n := 2^k-1) rfl rfl rfl (zero_add _) (by simp)
  have h3 := h2.full (p := true) (t := 2^k) (n := 2^k) rfl rfl rfl (by simp; omega) (by simp; omega)
    (by simp [View.head]; omega)
  obtain ⟨v,hv,h4⟩ : ∃v,v=_ ∧ Reach k v := ⟨_,rfl,(h3.turnstile (p := true) rfl).acting (2^k+1) rfl⟩
  have hri : v.ring=(range (2^k)).map work := by
    have hri : v.ring=(range' 0 (2^k-1)).map work++[work (2^k-1)] := by
      rw [hv]
      rfl
    rw [hri,hr,map_append,range_eq_range']
    rfl
  have htu : v.turn=some (2^k) := by
    rw [hv]
    rfl
  have hta : v.tail=0 := by rw [hv]
  have hse : v.seen=2^k-1 := by
    rw [hv]
    simp [View.seen,View.head,guardMin]
  have hturn (i : Nat) (hi : i<2^k) : turnAbove v.turn i=true := by
    rw [htu]
    exact decide_eq_true hi
  obtain ⟨l,t,hl,ht,h5⟩ := h4.drain (2^k-1) (by rw [hv]) (.inl (by rw [hv])) (fun i hi => hturn i (by omega))
    (by simp [hri]) (by omega) (by rw [hv]; exact zero_le)
  have hse' : (v.drained (2^k-1) l t).seen≤v.tail+(2^k-1) := by
    rw [v.seen_drained l t (by simp [hri])]
    omega
  have h6 := h5.fail (by rw [View.drained,hv]) (.inr (hturn (t+1) (by omega))) (show l≤v.tail+(2^k-1) by omega) hse'
  -- the next `ss_tx_action()` fails in the same place, now with the ticket 0 that makes `ss_wq_pop()` go on
  have h7 := (h6.acting 2 (if_neg (show t≠0 by omega))).fail rfl (.inl rfl) hse' hse'
  have hto : turnAbove v.turn (v.tail+(2^k-1)+1)=false := by
    rw [htu,hta]
    exact decide_eq_false (by omega)
  have hb : v.backlog=[(2^k,work (2^k))] := by
    rw [hv]
    rfl
  refine ⟨_,h7.backlog rfl hto hb,?_,?_⟩
  · change v.queued=_
    have hq : v.queued=(range' 0 (2^k-1)).map work++[work (2^k-1)]++[work (2^k)] := by
      rw [hv]
      rfl
    rw [hq,range_succ,hr,map_append,map_append,range_eq_range']
    rfl
  · change v.out++(v.ring.take (2^k-1)).map (fun w => (none,w))++[(some (2^k),work (2^k))]=_
    have ho : v.out=[] := by rw [hv]
    rw [ho,hri,hr,map_append,take_left' (by simp)]
    simp

/-- The queue was full, `p` has a ticket for its work `n`, and `ss_tx_action()` has emptied the queue. -/
def emptied (k : Nat) (p : Bool) (n l t : Nat) : View where
  producer := update (fun _ => .idle) p (.full (2^k) (SsWork.mark noData p n))
  count := update (update (fun _ => 0) true (2^k)) p (n+1)
  tail := 2^k
  lastHead := l
  ticket := t
  queued := (range (2^k)).map work
  out := (range (2^k)).map fun i => (none,work i)

lemma exists_emptied (hk : 4≤k) (p : Bool) (hn : update (fun _ => 0) true (2^k) p=n) :
    ∃l t,Reach k (emptied k p n l t) := by
  have hn10 := ten_le hk
  have h1 := (reach_init k).fill rfl rfl rfl rfl (2^k) (by simp)
  have h2 := h1.full (p := p) (t := 2^k) (n := n) rfl rfl rfl (by simpa using hn) (by simp) (by simp [View.head])
  obtain ⟨v,hv,h3⟩ : ∃v,v=_ ∧ Reach k v := ⟨_,rfl,h2.acting (2^k) rfl⟩
  have hse : v.seen=2^k := by
    rw [hv]
    simp [View.seen,View.head,guardMin]
  obtain ⟨l,t,-,-,h4⟩ := h3.drain (2^k) (by rw [hv]) (.inl (by rw [hv])) (fun i _ => by rw [hv]; rfl)
    (by rw [hv]; simp) (by rw [hse,hv]; simp) (by rw [hv]; exact zero_le)
  have h5 := h4.leave (by rw [hv]; rfl) (by rw [hv]; simp [View.drained]; omega)
  refine ⟨l,t,?_⟩
  have hb : max 10 (2^k)-2^k=0 := by omega
  convert h5 using 1
  rw [hv]
  simp [emptied,View.drained,hb,range_eq_range',take_of_length_le,comp_def]

/-- At the start of `ss_tx_action()` the queue goes before the work in the backlog. -/
lemma queue_overtakes (hk : 4≤k) : ∃v,Reach k v ∧ v.queued=(range (2^k+2)).map work ∧
    v.out=(range (2^k)).map (fun i => (none,work i))++[(none,work (2^k+1))] := by
  obtain ⟨l,t,h1⟩ := exists_emptied hk true rfl
  have h2 := (h1.turnstile (p := true) rfl).push (n := 2^k+1) rfl rfl rfl rfl (Nat.two_pow_pos k)
  obtain ⟨l',-,h3⟩ := (h2.acting 2 rfl).take rfl (.inl rfl) (by simp)
    (by simp [View.seen,View.head,guardMin,emptied])
  refine ⟨_,h3,?_,?_⟩
  · simp [View.drained,emptied,range_succ]
  · simp [View.drained,emptied]

/-- The backlog is popped in the order it was entered, not in that of the tickets. -/
lemma backlog_overtakes (hk : 4≤k) : ∃v,Reach k v ∧
    v.queued=(range (2*2^k+1)).map work++[SsWork.mark noData false 0] ∧
    v.out=(range (2^k+1)).map (fun i => (none,work i))++[(some (2*2^k),work (2*2^k))] := by
  have hn := ten_le hk
  obtain ⟨l,t,h1⟩ := exists_emptied hk false rfl
  have h2 := h1.fill (n := 2^k) rfl rfl rfl rfl (2^k) (by simp [emptied])
  have h3 := h2.full (p := true) (t := 2*2^k) (n := 2*2^k) rfl rfl rfl (by simp; omega) (by simp [emptied])
    (by simp [View.head,emptied]; omega)
  have h4 := ((h3.turnstile (p := true) rfl).turnstile (p := false) rfl).acting (2^k+2) rfl
  obtain ⟨l',-,h5⟩ := h4.take rfl (.inl rfl) (by simp [emptied]) (by simp [View.seen,View.head,guardMin,emptied])
  have h6 := h5.test rfl (Nat.two_pow_pos k).ne'
  have h7 := h6.backlog (t := 2*2^k) (w := work (2*2^k)) rfl (by simp [View.drained,emptied,turnAbove]) rfl
  refine ⟨_,h7,?_,?_⟩
  · have hr : range (2*2^k)=range (2^k)++range' (2^k) (2^k) := by
      rw [range_eq_range',range_eq_range',two_mul,← range'_append_1,zero_add]
    simp [View.drained,emptied,range_succ,hr]
  · have ht (a : Nat) : (range' a (2^k)).take 1=[a] := by
      rw [← Nat.sub_add_cancel (Nat.two_pow_pos k),range'_succ]
      rfl
    simp [View.drained,emptied,range_succ,← map_take,ht]

/-- In a queue of the size that `tfw_sync_socket_wq_init()` makes, a work is returned before one that its producer
queued earlier: because of an old guard, of the first pop of `ss_tx_action()`, and of the order of the backlog. -/
theorem works_popped_out_of_turn :
    (∃es s,run Ss.step (siWq 11) es=some s ∧ s.queued=(range (2^11+1)).map work ∧
      s.out=(range (2^11-1)).map (fun i => (none,work i))++[(some (2^11),work (2^11))]) ∧
    (∃es s,run Ss.step (siWq 11) es=some s ∧ s.queued=(range (2^11+2)).map work ∧
      s.out=(range (2^11)).map (fun i => (none,work i))++[(none,work (2^11+1))]) ∧
    ∃es s,run Ss.step (siWq 11) es=some s ∧ s.queued=(range (2*2^11+1)).map work++[SsWork.mark noData false 0] ∧
      s.out=(range (2^11+1)).map (fun i => (none,work i))++[(some (2*2^11),work (2*2^11))] := by
  have hrun {v : View} {q o} (h : Reach 11 v) (hq : v.queued=q) (ho : v.out=o) :
      ∃es s,run Ss.step (siWq 11) es=some s ∧ s.queued=q ∧ s.out=o := by
    obtain ⟨s,hl,-,rfl⟩ := h
    exact (exists_run_of_reflTransGen Ss.step hl).imp fun es hes => ⟨s,hes,hq,ho⟩
  refine ⟨?_,?_,?_⟩
  · obtain ⟨v,h,hq,ho⟩ := stale_guard_overtakes (k := 11) (by decide)
    exact hrun h hq ho
  · obtain ⟨v,h,hq,ho⟩ := queue_overtakes (k := 11) (by decide)
    exact hrun h hq ho
  · obtain ⟨v,h,hq,ho⟩ := backlog_overtakes (k := 11) (by decide)
    exact hrun h hq ho
end VetWaf.Sock
