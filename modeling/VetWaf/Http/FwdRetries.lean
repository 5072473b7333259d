import VetWaf.Http.FwdConn

namespace VetWaf.Http.FwdQueue
open List ListCursor
namespace SrvConn

/-- The requests whose `retries` the loop of `tfw_http_conn_resend` increments. -/
def resendTried (env : Env) (first : Bool) (c : SrvConn) : List Req → List Req
  | [] => []
  | r::rs =>
    match c.evictStaleReq env r with
    | some c => resendTried env first c rs
    | none =>
      r::match c.evictRetries env r with
        | some c => resendTried env first c rs
        | none =>
          match c.fwdSend env r with
          | (.ebadf,_) => []
          | (.ebusy,_) => []
          | (.other,c) => resendTried env first c rs
          | (.ok,c) => if first then [] else resendTried env first {c with currMsgSent:=some r} rs

section
variable (retryNip : Bool) (nip : Req → Bool) (c : SrvConn)

/-- The requests whose `retries` is incremented by `tfw_http_conn_resend`. -/
def sentTried (env : Env) (first : Bool) : List Req :=
  match c.lastMsgSent with
  | none => []
  | some l => c.resendTried env first (upTo l c.q.fwdQueue)

/-- Those of `tfw_http_conn_repair` of a live connection. -/
def repairTried (env : Env) : List Req :=
  if c.q.fwdQueue=[] then []
  else
    match {c with currMsgSent:=none}.treatnip retryNip nip with
    | .error _ => []
    | .ok c => c.sentTried env true

/-- The requests whose `retries` an event increments. -/
def tried : Event → List Req
  | .popreq fwdUnsent env _ =>
    match c.paired with
    | [] => []
    | r::_ => if fwdUnsent && c.resend && !c.qforwd then (c.unlinkAnswered nip r).sentTried env false else []
  | .connectComplete env _ =>
    if c.newSocket.connInit.resend then c.newSocket.connInit.repairTried retryNip nip env else []
  | _ => []

/-- `-EBUSY` is returned for no request sent before but the last one, when a connection under repair
re-sends all of them. -/
def busyAtLast : Event → Bool
  | .popreq _ env _ =>
    !c.resend || c.qforwd || c.q.fwdQueue.all fun r => env.send r != .ebusy || c.lastMsgSent == some r
  | _ => true

def unsent : List Req := after c.lastMsgSent c.q.fwdQueue
def holding : List Req := c.q.fwdQueue++c.reschq

end
end SrvConn

/-- What stays as it is during an event of a connection. -/
structure Ledger where
  /-- `max_refwd` -/
  limit : Nat
  /-- The requests that the connection may hold. -/
  own : Req → Prop
  /-- How often a request was sent on other connections. -/
  others : Req → Nat
  /-- How often a request was sent on the connection before the event. -/
  start : Req → Nat
  /-- The counters before the event. -/
  counters : Req → Nat

def Ledger.sends (L : Ledger) (c : SrvConn) (r : Req) : Nat := L.others r+c.handed.count r

/-- Every sending of a request but the first one was paid for by its counter. -/
structure Paid (L : Ledger) (retries : Req → Nat) (c : SrvConn) : Prop where
  nodup : c.holding.Nodup
  own : ∀r∈c.holding,L.own r
  limit : ∀r∈c.holding,retries r≤L.limit
  held : ∀r∈c.holding,L.sends c r≤retries r+1
  unsent : ∀r∈c.unsent,L.sends c r≤retries r
  total : ∀r,L.sends c r≤L.limit+1
  frame : ∀r,¬ L.own r → c.handed.count r=L.start r ∧ retries r=L.counters r

lemma SrvConn.unsent_sublist (c : SrvConn) : c.unsent.Sublist c.holding := by
  have hq : c.unsent.Sublist c.q.fwdQueue := by
    rw [SrvConn.unsent]
    cases c.lastMsgSent with
    | none => exact .refl _
    | some l => exact (tail_sublist _).trans (dropWhile_sublist _)
  exact hq.trans (sublist_append_left _ _)

namespace Paid
variable {L : Ledger} {retries : Req → Nat} {c c' : SrvConn} {new : List Req}
lemma sends_append (hh : c'.handed=c.handed++new) (r : Req) : L.sends c' r=L.sends c r+new.count r := by
  rw [Ledger.sends,Ledger.sends,hh,count_append,add_assoc]

lemma nodup_of_subperm {l m : List Req} (h : l.Subperm m) (hm : m.Nodup) : l.Nodup := by
  obtain ⟨k,hk,hs⟩ := h
  exact hk.nodup_iff.1 (hm.sublist hs)

variable (h : Paid L retries c)
include h
lemma forward (hh : c'.handed=c.handed++new)
    (hho : c'.holding.Subperm c.holding) (hn : (new++c'.unsent).Sublist c.unsent) : Paid L retries c' := by
  have hnd : (new++c'.unsent).Nodup := (h.nodup.sublist c.unsent_sublist).sublist hn
  have hu : ∀r∈new++c'.unsent,r∈c.unsent := fun r hr => hn.subset hr
  -- A request that is sent was sent at most as often as it was counted.
  have hs : ∀r∈new,L.sends c r≤retries r ∧ retries r≤L.limit := by
    intro r hr
    have hru := hu r (mem_append_left _ hr)
    exact ⟨h.unsent r hru,h.limit r (c.unsent_sublist.subset hru)⟩
  have hc : ∀r,new.count r≤1 := nodup_iff_count_le_one.1 (nodup_append.1 hnd).1
  have ho : ∀r∉new,L.sends c' r=L.sends c r := by
    intro r hr
    rw [sends_append hh,count_eq_zero.2 hr,add_zero]
  refine ⟨nodup_of_subperm hho h.nodup,fun r hr => h.own r (hho.subset hr),
    fun r hr => h.limit r (hho.subset hr),?_,?_,?_,?_⟩
  · intro r hr
    by_cases hrn : r∈new
    · have := hc r
      have := (hs r hrn).1
      rw [sends_append hh]
      omega
    · rw [ho r hrn]
      exact h.held r (hho.subset hr)
  · intro r hr
    have hrn : r∉new := fun hrn => (nodup_append.1 hnd).2.2 r hrn r hr rfl
    rw [ho r hrn]
    exact h.unsent r (hu r (mem_append_right _ hr))
  · intro r
    by_cases hrn : r∈new
    · have := hc r
      have := hs r hrn
      rw [sends_append hh]
      omega
    · rw [ho r hrn]
      exact h.total r
  · intro r hr
    have hrn : r∉new := by
      intro hrn
      exact hr (h.own r (c.unsent_sublist.subset (hu r (mem_append_left _ hrn))))
    rw [hh,count_append,count_eq_zero.2 hrn]
    exact h.frame r hr

lemma counted {T : List Req} (hh : c'.handed=c.handed++new)
    (hho : c'.holding.Subperm c.holding) (hT : T.Nodup) (hTc : ∀r∈T,r∈c.holding)
    (hn : new.Sublist T) (hnw : ∀r∈new,r∈c'.holding) (hs : ∀r∈T,r∈c'.holding → retries r<L.limit)
    (hu : ∀r∈c'.unsent,r∉new ∧ (r∈c.unsent ∨ r∈T)) : Paid L (fun r => retries r+T.count r) c' := by
  have hc : ∀r,new.count r≤T.count r := fun r => hn.count_le r
  have ho : ∀r∈T,T.count r=1 := fun r hr => count_eq_one_of_mem hT hr
  have hl : ∀r∈c'.holding,retries r+T.count r≤L.limit := by
    intro r hr
    by_cases hrT : r∈T
    · have := hs r hrT hr
      have := ho r hrT
      omega
    · rw [count_eq_zero.2 hrT]
      exact h.limit r (hho.subset hr)
  refine ⟨nodup_of_subperm hho h.nodup,fun r hr => h.own r (hho.subset hr),hl,?_,?_,?_,?_⟩
  · intro r hr
    have := h.held r (hho.subset hr)
    have := hc r
    rw [sends_append hh]
    omega
  · intro r hr
    obtain ⟨hrn,hru⟩ := hu r hr
    rw [sends_append hh,count_eq_zero.2 hrn,add_zero]
    obtain hru | hrT := hru
    · exact Nat.le_add_right_of_le (h.unsent r hru)
    · rw [ho r hrT]
      exact h.held r (hTc r hrT)
  · intro r
    rw [sends_append hh]
    by_cases hrn : r∈new
    · have := h.held r (hho.subset (hnw r hrn))
      have := hl r (hnw r hrn)
      have := hc r
      omega
    · rw [count_eq_zero.2 hrn]
      exact h.total r
  · intro r hr
    have hrT : r∉T := fun hrT => hr (h.own r (hTc r hrT))
    have hrn : r∉new := fun hrn => hrT (hn.subset hrn)
    rw [hh,count_append,count_eq_zero.2 hrn,count_eq_zero.2 hrT]
    exact h.frame r hr

lemma enter {r : Req} (hh : c'.handed=c.handed)
    (hho : c'.holding.Perm (r::c.holding)) (hu : ∀a∈c'.unsent,a∈c.unsent ∨ a=r)
    (hr : r∉c.holding) (ho : L.own r) (hl : retries r≤L.limit) (hse : L.sends c r≤retries r) : Paid L retries c' := by
  have hm : ∀a∈c'.holding,a=r ∨ a∈c.holding := fun a ha => mem_cons.1 (hho.mem_iff.1 ha)
  have hs : ∀a,L.sends c' a=L.sends c a := by
    intro a
    rw [Ledger.sends,Ledger.sends,hh]
  refine ⟨hho.nodup_iff.2 (nodup_cons.2 ⟨hr,h.nodup⟩),?_,?_,?_,?_,?_,?_⟩
  · intro a ha
    obtain rfl | ha := hm a ha
    · exact ho
    · exact h.own a ha
  · intro a ha
    obtain rfl | ha := hm a ha
    · exact hl
    · exact h.limit a ha
  · intro a ha
    rw [hs]
    obtain rfl | ha := hm a ha
    · exact Nat.le_add_right_of_le hse
    · exact h.held a ha
  · intro a ha
    rw [hs]
    obtain ha | rfl := hu a ha
    · exact h.unsent a ha
    · exact hse
  · intro a
    rw [hs]
    exact h.total a
  · intro a ha
    rw [hh]
    exact h.frame a ha

lemma shrink (hh : c'.handed=c.handed)
    (hho : c'.holding.Subperm c.holding) (hu : c'.unsent.Sublist c.unsent) : Paid L retries c' :=
  h.forward (hh.trans (append_nil _).symm) hho hu

lemma congr (hq : c'.q.fwdQueue=c.q.fwdQueue) (hl : c'.lastMsgSent=c.lastMsgSent) (hr : c'.reschq=c.reschq)
    (hh : c'.handed=c.handed) : Paid L retries c' := by
  have hho : c'.holding=c.holding := by rw [SrvConn.holding,SrvConn.holding,hq,hr]
  have hu : c'.unsent=c.unsent := by rw [SrvConn.unsent,SrvConn.unsent,hq,hl]
  refine h.shrink hh (hho ▸ List.Subperm.refl _) ?_
  rw [hu]

end Paid

lemma Layout.unsent {nip : Req → Bool} {c : SrvConn} {S O U : List Req} (h : Layout c S O U)
    (hb : Books nip c.q) : c.unsent=U := by
  rw [SrvConn.unsent,h.last,h.queue]
  exact after_getLast? (h.queue ▸ hb.nodup)

namespace SrvConn
variable {nip : Req → Bool} {env : Env} {c c' : SrvConn} {S O U : List Req}

/-- What the loop of `tfw_http_conn_resend` over `rs` did with the requests `T` that it counted. -/
structure LoopTried (env : Env) (first : Bool) (c : SrvConn) (rs T : List Req)
    (res : Rc×Option Req×SrvConn) : Prop where
  sublist : T.Sublist rs
  sent : ∃new,res.2.2.handed=c.handed++new ∧ new.Sublist T
  spared : ∀r∈T,r∈res.2.2.q.fwdQueue → env.exhausted r=false
  last : res.1 ≠ .ebusy → res.2.2.lastMsgSent=c.lastMsgSent
  done : res.1=.ok → first=false ∨ res.2.1=none → ∀r∈rs,r∈res.2.2.q.fwdQueue → r∈T
  /-- The requests behind the one that met `-EBUSY` are not counted. -/
  busy : res.1=.ebusy → ∃r ts,r::ts <:+ rs ∧ env.send r=.ebusy ∧ ∀a∈rs,a∈res.2.2.q.fwdQueue → a∈T ∨ a∈ts

section
variable {first : Bool} {r : Req} {rs T : List Req} {res : Rc×Option Req×SrvConn}
variable (h : LoopTried env first c' rs T res)
include h
lemma LoopTried.skip {T' : List Req} (hrem : Removed c c' r) (hr : r∉res.2.2.q.fwdQueue) (hT' : T'=T ∨ T'=r::T) :
    LoopTried env first c (r::rs) T' res := by
  have hs : T.Sublist T' ∧ T'.Sublist (r::rs) := by
    obtain rfl | rfl := hT'
    · exact ⟨.refl _,h.sublist.cons r⟩
    · exact ⟨sublist_cons_self r T,h.sublist.cons_cons r⟩
  have hre : ∀a∈r::rs,a∈res.2.2.q.fwdQueue → a∈rs := by
    intro a ha haq
    obtain rfl | ha := mem_cons.1 ha
    · exact absurd haq hr
    · exact ha
  obtain ⟨new,hn,hnw⟩ := h.sent
  refine ⟨hs.2,⟨new,by simp [hn,hrem.sent.handed],hnw.trans hs.1⟩,?_,fun hne => (h.last hne).trans hrem.last,?_,?_⟩
  · intro a ha haq
    obtain rfl | rfl := hT'
    · exact h.spared a ha haq
    · obtain rfl | ha := mem_cons.1 ha
      · exact absurd haq hr
      · exact h.spared a ha haq
  · intro hok hf a ha haq
    exact hs.1.subset (h.done hok hf a (hre a ha haq) haq)
  · intro hb
    obtain ⟨b,ts,hsu,hse,hm⟩ := h.busy hb
    refine ⟨b,ts,hsu.trans (suffix_cons r rs),hse,fun a ha haq => ?_⟩
    exact (hm a (hre a ha haq) haq).imp_left (hs.1.subset ·)

lemma LoopTried.send (hh : c'.handed=c.handed++[r])
    (hl : c'.lastMsgSent=c.lastMsgSent) (hr : env.exhausted r=false) : LoopTried env first c (r::rs) (r::T) res := by
  obtain ⟨new,hn,hnw⟩ := h.sent
  refine ⟨h.sublist.cons_cons r,⟨r::new,by simp [hn,hh],hnw.cons_cons r⟩,?_,fun hne => (h.last hne).trans hl,?_,?_⟩
  · intro a ha haq
    obtain rfl | ha := mem_cons.1 ha
    · exact hr
    · exact h.spared a ha haq
  · intro hok hf a ha haq
    obtain rfl | ha := mem_cons.1 ha
    · exact .head _
    · exact mem_cons_of_mem r (h.done hok hf a ha haq)
  · intro hb
    obtain ⟨b,ts,hs,hse,hm⟩ := h.busy hb
    refine ⟨b,ts,hs.trans (suffix_cons r rs),hse,fun a ha haq => ?_⟩
    obtain rfl | ha := mem_cons.1 ha
    · exact .inl (.head _)
    · exact (hm a ha haq).imp_left (mem_cons_of_mem r)

end

variable {r : Req} {first : Bool}
lemma evictRetries_eq_none (h : c.evictRetries env r=none) : env.exhausted r=false := by
  rw [evictRetries] at h
  split_ifs at h with hex
  exact Bool.eq_false_iff.2 hex

lemma evict_eq_or (c : SrvConn) (env : Env) (r : Req) :
    c.evict env r=(c.evictStaleReq env r).or (c.evictRetries env r) := by
  rw [evict,evictStaleReq,Option.or_assoc]

lemma fwdSend_ebusy (h : c.fwdSend env r=(.ebusy,c')) : env.send r=.ebusy := by
  rw [fwdSend] at h
  split_ifs at h
  · cases h
  · cases hs : env.send r with
    | ebusy => rfl
    | ok | ebadf | other =>
      simp only [hs] at h
      cases h

lemma resendLoop_not_mem {rs : List Req} (hb : Books nip c.q)
    (hqu : c.q.fwdQueue=S++r::(rs++U)) (hcu : c.currMsgSent=S.getLast?)
    (hr : Removed c c' r) : r∉(c'.resendLoop env first S.getLast? rs).2.2.q.fwdQueue := by
  obtain ⟨hb',hq'⟩ := hr.cut hb hqu
  have hq : c'.q.fwdQueue=S++rs++U := by simpa using hq'
  obtain ⟨new,rest,h⟩ := resendLoop_spec env first hb' hq (hr.curr.trans hcu)
  have hc := nodup_cut (hqu ▸ hb.nodup)
  intro hm
  rw [h.queue,append_assoc S,mem_append,mem_append] at hm
  obtain (hm | hm) | hm := hm
  · exact hc.1 hm
  · exact hc.2 (mem_append_left _ (h.sublist.subset hm))
  · exact hc.2 (mem_append_right _ hm)

lemma resendLoop_tried {rs : List Req} (hb : Books nip c.q)
    (hq : c.q.fwdQueue=S++rs++U) (hc : c.currMsgSent=S.getLast?) :
    LoopTried env first c rs (c.resendTried env first rs) (c.resendLoop env first S.getLast? rs) := by
  induction rs generalizing c S with
  | nil =>
    rw [resendLoop,resendTried]
    exact ⟨.refl _,⟨[],by simp⟩,by simp,fun _ => rfl,by simp,fun h => by cases h⟩
  | cons r rs ih =>
    have hqu' : c.q.fwdQueue=S++r::(rs++U) := by simpa using hq
    have hsk : ∀ {c' : SrvConn},Removed c c' r → LoopTried env first c' rs (c'.resendTried env first rs)
          (c'.resendLoop env first S.getLast? rs) := by
      intro c' hr
      obtain ⟨hb',hq'⟩ := hr.cut hb hqu'
      exact ih hb' (by simpa using hq') (hr.curr.trans hc)
    have hg : ∀ {c' : SrvConn},Removed c c' r → r∉(c'.resendLoop env first S.getLast? rs).2.2.q.fwdQueue :=
      fun hr => resendLoop_not_mem hb hqu' hc hr
    rw [resendLoop,resendTried,evict_eq_or]
    cases hst : c.evictStaleReq env r with
    | some c' =>
      have hr := evictStaleReq_removed hst
      exact (hsk hr).skip hr (hg hr) (.inl rfl)
    | none =>
      rw [Option.none_or]
      cases hret : c.evictRetries env r with
      | some c' =>
        have hr := evictRetries_removed hret
        exact (hsk hr).skip hr (hg hr) (.inr rfl)
      | none =>
        have hex := evictRetries_eq_none hret
        cases hre : c.fwdSend env r with
        | mk rc c' =>
          have hs := fwdSend_spec hre
          cases rc with
          | ebadf =>
            refine ⟨by simp,⟨[],by simpa using hs.2.1.handed,by simp⟩,?_,fun _ => hs.1.last,(fun h => by cases h),
              fun h => by cases h⟩
            intro a ha _
            rwa [mem_singleton.1 ha]
          | ebusy =>
            refine ⟨by simp,⟨[],by simpa using hs.2.handed,by simp⟩,?_,
              fun hne => absurd rfl hne,(fun h => by cases h),?_⟩
            · intro a ha _
              rwa [mem_singleton.1 ha]
            · intro _
              refine ⟨r,rs,suffix_refl _,fwdSend_ebusy hre,fun a ha _ => ?_⟩
              simpa using ha
          | other => exact (hsk hs).skip hs (hg hs) (.inr rfl)
          | ok =>
            obtain ⟨hk,hse⟩ := hs
            dsimp only
            split_ifs with hf
            · refine ⟨by simp,⟨[r],hse.handed,by simp⟩,?_,fun _ => hk.last,?_,fun h => by cases h⟩
              · intro a ha _
                rwa [mem_singleton.1 ha]
              · rintro - (hf' | hn)
                · exact absurd (hf.symm.trans hf') (by decide)
                · cases hn
            · have h := ih (c := {c' with currMsgSent:=some r}) (S := S++[r]) (hk.q ▸ hb)
                (by simp [hk.q,hqu']) (by simp)
              rw [getLast?_concat] at h
              exact h.send hse.handed hk.last hex


/-- What re-sending did with the requests `T` that it counted, of which it sent `new`. -/
structure Tries (env : Env) (c : SrvConn) (T new : List Req) (c' : SrvConn) : Prop where
  handed : c'.handed=c.handed++new
  reschq : c'.reschq=c.reschq
  queue : c'.q.fwdQueue.Sublist c.q.fwdQueue
  sublist : T.Sublist c.q.fwdQueue
  sent : new.Sublist T
  left : ∀r∈new,r∈c'.q.fwdQueue
  spared : ∀r∈T,r∈c'.q.fwdQueue → env.exhausted r=false

/-- The queue and the requests handed over are those the loop left. -/
structure SameQueue (c c' : SrvConn) : Prop where
  q : c'.q=c.q
  handed : c'.handed=c.handed

lemma resentResult_cases {out : Rc×Option Req×SrvConn} {res : Rc×SrvConn} (h : (match out with
      | (.ok,resent,c) =>
        if !first || resent.isNone then .ok (.ok,{c with currMsgSent:=resent, lastMsgSent:=resent})
        else .ok (.ok,c)
      | (rc,_,c) => .ok (rc,c) : Except BugOn (Rc×SrvConn))=.ok res) : SameQueue out.2.2 res.2 ∧ res.1=out.1 ∧
      (out.1=.ok ∧ (first=false ∨ out.2.1=none) ∨ res.2.lastMsgSent=out.2.2.lastMsgSent) := by
  obtain ⟨rc,resent,c⟩ := out
  cases rc with
  | ok =>
    dsimp only at h
    split_ifs at h with hc
    · cases h
      refine ⟨⟨rfl,rfl⟩,rfl,.inl ⟨rfl,?_⟩⟩
      simpa using hc
    · cases h
      exact ⟨⟨rfl,rfl⟩,rfl,.inr rfl⟩
  | ebusy | ebadf | other =>
    cases h
    exact ⟨⟨rfl,rfl⟩,rfl,.inr rfl⟩

lemma resendSent_tries {res : Rc×SrvConn} (hb : Books nip c.q)
    (hl : Layout c [] O U) (h : c.resendSent env first=.ok res) : ∃new,Tries env c (c.sentTried env first) new res.2 ∧
      ((res.1=.ebusy → ∀r∈O,env.send r=.ebusy → c.lastMsgSent=some r) →
        ∀r∈res.2.unsent,r∉new ∧ (r∈c.unsent ∨ r∈c.sentTried env first)) := by
  have hla : c.lastMsgSent=O.getLast? := by simpa using hl.last
  have hq : c.q.fwdQueue=O++U := by simpa using hl.queue
  have hu : c.unsent=U := hl.unsent hb
  obtain ⟨res',new,O',U',hr',hr⟩ := resendSent_spec env first hb hl
  obtain rfl : res'=res := Except.ok.inj (hr'.symm.trans h)
  have hu' : res'.2.unsent=U' := hr.layout.unsent hr.books
  have hnd : (new++O'++U').Nodup := hr.layout.queue ▸ hr.books.nodup
  have hn : ∀r∈U',r∉new := fun r hrU hrn => (nodup_append.1 hnd).2.2 r (mem_append_left _ hrn) r hrU rfl
  have hs : res'.2.q.fwdQueue.Sublist c.q.fwdQueue := by
    rw [hr.layout.queue,hq]
    exact hr.sublist
  have hm : ∀r∈U',r∈res'.2.q.fwdQueue := by
    intro r hrU
    rw [hr.layout.queue]
    exact mem_append_right _ hrU
  have hold : ∀r∈U',r∈O ∨ r∈U := fun r hrU => mem_append.1 (hq ▸ hs.subset (hm r hrU))
  have hlf : ∀r∈new,r∈res'.2.q.fwdQueue := by
    intro r hrn
    rw [hr.layout.queue]
    exact mem_append_left _ (mem_append_left _ hrn)
  rw [hu,hu']
  cases hO : O.getLast? with
  | none =>
    rw [getLast?_eq_none_iff] at hO
    subst hO
    rw [getLast?_nil] at hla
    rw [resendSent,hla] at h
    cases h
    have hT : c.sentTried env first=[] := by rw [sentTried,hla]
    rw [hT]
    refine ⟨[],⟨by simp,rfl,hs,by simp,.refl _,by simp,by simp⟩,fun _ r hrU => ?_⟩
    exact ⟨by simp,.inl ((hold r hrU).resolve_left (by simp))⟩
  | some l =>
    have hlq : l∈c.q.fwdQueue := by
      rw [hq]
      exact mem_append_left _ (mem_of_getLast? hO)
    have hup : upTo l c.q.fwdQueue=O := by rw [hq,upTo_getLast? (hq ▸ hb.nodup) hO]
    have hT : c.sentTried env first=c.resendTried env first O := by
      rw [sentTried,hla,hO]
      simp only [hup]
    have hlo : LoopTried env first c O (c.resendTried env first O) (c.resendLoop env first none O) :=
      resendLoop_tried (S := []) hb (by simpa using hq) hl.curr
    rw [resendSent,hla,hO] at h
    simp only [hlq,not_true_eq_false,if_false,show c.currMsgSent=none from hl.curr,
      Option.isSome_none,Bool.false_and,Bool.false_eq_true,hup] at h
    obtain ⟨hc,hrc,hst⟩ := resentResult_cases h
    obtain ⟨new',hn',hsn⟩ := hlo.sent
    rw [← hc.handed,hr.sent.handed,append_cancel_left_eq] at hn'
    subst hn'
    rw [hT]
    refine ⟨new,⟨hr.sent.handed,hr.sent.reschq,hs,?_,hsn,hlf,?_⟩,?_⟩
    · rw [hq]
      exact hlo.sublist.trans (sublist_append_left O U)
    · intro r hrT hrq
      exact hlo.spared r hrT (hc.q ▸ hrq)
    · intro hbu r hrU
      refine ⟨hn r hrU,?_⟩
      have hrq := hc.q ▸ hm r hrU
      by_cases hrb : res'.1=.ebusy
      · obtain ⟨b,ts,hsu,hse,hco⟩ := hlo.busy (hrc ▸ hrb)
        have hb_last := hbu hrb b (hsu.subset (.head _)) hse
        have ht : ts=[] := by
          refine ListCursor.eq_nil_of_getLast? ?_ ((getLast?_suffix hsu (by simp)).trans ?_)
          · exact (((nodup_append.1 (hq ▸ hb.nodup)).1).sublist hsu.sublist)
          · exact hla.symm.trans hb_last
        refine (hold r hrU).symm.imp_right fun hrO => (hco r hrO hrq).resolve_right ?_
        simp [ht]
      · obtain ⟨hok,hf⟩ | hsa := hst
        · exact (hold r hrU).symm.imp_right fun hrO => hlo.done hok hf r hrO hrq
        · -- The pointer to the last request sent has not moved.
          have hl' : res'.2.lastMsgSent=some l := (hsa.trans (hlo.last (hrc ▸ hrb))).trans (hla.trans hO)
          have hlq' : l∈res'.2.q.fwdQueue := by
            rw [hr.layout.queue]
            exact mem_append_left _ (mem_of_getLast? (hr.layout.last ▸ hl'))
          refine .inl ?_
          rw [← hu',unsent,hl'] at hrU
          rw [← hu,unsent,hla,hO]
          exact (after_sublist hs hb.nodup hlq').subset hrU
end SrvConn
end VetWaf.Http.FwdQueue
