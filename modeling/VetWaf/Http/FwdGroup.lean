import VetWaf.Http.FwdConn

namespace VetWaf.Http.FwdQueue
open SrvConn Option List

structure Group (C : Type) where
  nip : Req → Bool
  conns : C → SrvConn
  seen : List Req

def Group.init (C : Type) : Group C := ⟨fun _ => false,fun _ => .init,[]⟩

inductive GroupInput (C : Type) where
  /-- A new request is scheduled to a connection. -/
  | request (c : C) (r : Req) (nonIdemp : Bool) (env : Env)
  | conn (c : C) (e : Event)
  /-- `TFW_HTTP_B_NON_IDEMP` is cleared for a request that a connection holds. -/
  | clearNonIdemp (c : C) (r : Req)
  /-- A round of `tfw_http_fwdq_resched`, with the connection that was found. -/
  | resched (c : C) (dst : Option C) (env : Env)

section
variable {C : Type} [DecidableEq C] (retryNip : Bool)
namespace Group
variable (g : Group C)
def setConn (c : C) (conn : SrvConn) : Group C := {g with conns:=Function.update g.conns c conn}

def act (c : C) (e : Event) : Option (Except BugOn (Group C)) :=
  ((g.conns c).act retryNip g.nip e).map fun res => res.map fun conn => g.setConn c conn

/-- `tfw_http_req_fwd` of a request taken out of the queue of `c`. -/
def reschedTo (c : C) (r : Req) (d : C) (env : Env) : Option (Except BugOn (Group C)) :=
  let conn := g.conns d
  if conn.live ∧ ¬ conn.resend ∧ r∉conn.q.fwdQueue then
    some <| (conn.reqFwd g.nip env r true).map fun (accepted,conn) =>
      let g := g.setConn d conn
      if accepted then g
      else g.setConn c {g.conns c with reschq:=r::(g.conns c).reschq}
  else none

def step : Except BugOn (Group C) → GroupInput C → Option (Except BugOn (Group C))
  | .error _, _ => none
  | .ok g, .request c r nonIdemp env =>
    if r∈g.seen then none
    else
      let g := {g with nip:=setFlag g.nip r nonIdemp, seen:=r::g.seen}
      g.act retryNip c (if r.hmonitor then .fwd r false env else .fwdResched r env)
  | .ok g, .conn c e => if e.enters.isSome then none else g.act retryNip c e
  | .ok g, .clearNonIdemp c r =>
    if r∈(g.conns c).q.fwdQueue ∨ r∈(g.conns c).reschq then
      some (.ok {g with nip:=setFlag g.nip r false})
    else none
  | .ok g, .resched c dst env =>
    match (g.conns c).fwdqResched retryNip g.nip env with
    | none => none
    | some (none,conn) => some (.ok (g.setConn c conn))
    | some (some r,conn) =>
      match dst with
      | none => some (.ok (g.setConn c conn))
      | some d => (g.setConn c conn).reschedTo c r d env

end Group
end

def Good (nip : Req → Bool) (c : SrvConn) : Prop := ∃S O U,Inv nip c S O U ∧ Once nip c (S++O)

section
variable {nip : Req → Bool} {c c' : SrvConn} {r : Req} {e : Event} (hg : Good nip c)
include hg
lemma Good.act {res : Except BugOn SrvConn} (h : c.act false nip e=some res)
    (hf : ∀r,e.enters=some r → nip r=true → r∉c.handed) : res=.error .treatnipUnlisted ∨
      ∃c',res=.ok c' ∧ Good nip c' ∧ ∀r,Has c' r → Has c r ∨ e.enters=some r := by
  obtain ⟨S,O,U,hi,ho⟩ := hg
  obtain ⟨-,rfl⟩ | ⟨c',S',O',U',-,rfl,hm⟩ := act_cases hi h
  · exact .inl rfl
  · exact .inr ⟨c',rfl,⟨S',O',U',hm.inv,hm.once rfl hf ho⟩,hm.has⟩

lemma Good.reschq (reschq : List Req) (eq : List HttpErr) : Good nip {c with reschq, eq} := by
  obtain ⟨S,O,U,hi,ho⟩ := hg
  exact ⟨S,O,U,⟨hi.books,⟨hi.layout.queue,hi.layout.curr,hi.layout.last⟩,hi.paired,hi.direct,
    hi.probing,hi.dead⟩,ho.handed,ho.only,ho.repair,ho.count⟩

lemma Good.setFlag_of_not_has (hr : ¬ Has c r) (b : Bool) : Good (setFlag nip r b) c := by
  obtain ⟨S,O,U,hi,ho⟩ := hg
  have hne : ∀a,Has c a → setFlag nip r b a=nip a := by
    intro a ha
    rw [setFlag,if_neg]
    rintro rfl
    exact hr ha
  refine ⟨S,O,U,hi.setFlag fun h => hr (.inl h.2),ho.handed,?_,?_,?_⟩
  · intro a ha hn hh
    exact ho.only a ha (hne a (.inl ha) ▸ hn) hh
  · intro hl hre hq a ha hn
    exact ho.repair hl hre hq a ha (hne a (.inl ha) ▸ hn)
  · intro a hn
    by_cases ha : a∈c.handed
    · exact ho.count a (hne a (.inr (.inr ha)) ▸ hn)
    · rw [count_eq_zero.2 ha]
      exact Nat.zero_le 1

lemma Good.clearFlag : Good (setFlag nip r false) c := by
  obtain ⟨S,O,U,hi,ho⟩ := hg
  have hle : ∀a,setFlag nip r false a=true → nip a=true := by
    intro a hn
    rw [setFlag] at hn
    split_ifs at hn
    exact hn
  refine ⟨S,O,U,hi.setFlag (by simp),ho.handed,?_,?_,?_⟩
  · exact fun a ha hn => ho.only a ha (hle a hn)
  · exact fun hl hr hq a ha hn => ho.repair hl hr hq a ha (hle a hn)
  · exact fun a hn => ho.count a (hle a hn)

end

lemma fwdqResched_cases {nip : Req → Bool} {env : Env} {c c' : SrvConn} {o : Option Req}
    (h : c.fwdqResched false nip env=some (o,c')) : ∃r reschq eq,c.reschq=r::reschq ∧ c'={c with reschq, eq} ∧
      (o=none ∨ o=some r ∧ nip r=false) := by
  have herr : ∀ (d : SrvConn) (r : Req) (status : Nat) (reason : String),
      ∃eq,d.queueErr r status reason={d with eq} := by
    intro d r status reason
    rw [queueErr]
    split_ifs
    · exact ⟨d.eq,rfl⟩
    · exact ⟨_,rfl⟩
  rw [fwdqResched] at h
  cases hq : c.reschq with
  | nil =>
    rw [hq] at h
    cases h
  | cons r reschq =>
    simp only [hq,Option.some.injEq] at h
    refine ⟨r,reschq,?_⟩
    split_ifs at h with h1 h2 h3 h4
    · cases h
      exact ⟨c.eq,rfl,rfl,.inl rfl⟩
    · obtain ⟨eq,he⟩ := herr {c with reschq} r 504 "request evicted: timed out"
      rw [he] at h
      cases h
      exact ⟨eq,rfl,rfl,.inl rfl⟩
    · obtain ⟨eq,he⟩ := herr {c with reschq} r 504
        "request dropped: non-idempotent requests aren't re-forwarded or re-scheduled"
      rw [he] at h
      cases h
      exact ⟨eq,rfl,rfl,.inl rfl⟩
    · obtain ⟨eq,he⟩ := herr {c with reschq} r 504
        "request evicted: the number of retries exceeded"
      rw [he] at h
      cases h
      exact ⟨eq,rfl,rfl,.inl rfl⟩
    · cases h
      refine ⟨c.eq,rfl,rfl,.inr ⟨rfl,?_⟩⟩
      simpa using h3

section
variable {C : Type} {g g' : Group C}

/-- A request with the flag was only ever in the hands of one connection. -/
structure GroupInv (g : Group C) : Prop where
  good : ∀c,Good g.nip (g.conns c)
  seen : ∀c r,Has (g.conns c) r → r∈g.seen
  apart : ∀c d r,g.nip r=true → Has (g.conns c) r → Has (g.conns d) r → c=d

namespace GroupInv

lemma enter {r : Req} (h : GroupInv g) (hr : r∉g.seen) (b : Bool) :
    GroupInv {g with nip:=setFlag g.nip r b, seen:=r::g.seen} := by
  have hno : ∀c,¬ Has (g.conns c) r := fun c hc => hr (h.seen c r hc)
  refine ⟨fun c => (h.good c).setFlag_of_not_has (hno c) b,?_,?_⟩
  · intro c a ha
    exact mem_cons_of_mem r (h.seen c a ha)
  · intro c d a hn ha ha'
    have hne : a≠r := by
      rintro rfl
      exact hno c ha
    refine h.apart c d a ?_ ha ha'
    simpa [setFlag,hne] using hn

lemma clear (h : GroupInv g) (r : Req) : GroupInv {g with nip:=setFlag g.nip r false} := by
  refine ⟨fun c => (h.good c).clearFlag,h.seen,?_⟩
  intro c d a hn
  refine h.apart c d a ?_
  simp only [setFlag] at hn
  split_ifs at hn
  exact hn

variable [DecidableEq C]
lemma setConn (h : GroupInv g) (c : C) {conn : SrvConn} (hgo : Good g.nip conn)
    (hne : ∀r,Has conn r → Has (g.conns c) r ∨
      r∈g.seen ∧ (g.nip r=true → ∀d,¬ Has (g.conns d) r)) : GroupInv (g.setConn c conn) := by
  have hc : ∀d,(g.setConn c conn).conns d=if d=c then conn else g.conns d := by
    intro d
    rw [Group.setConn]
    exact Function.update_apply g.conns c conn d
  have hold : ∀d r,Has ((g.setConn c conn).conns d) r →
      Has (g.conns d) r ∨ d=c ∧ r∈g.seen ∧ (g.nip r=true → ∀d,¬ Has (g.conns d) r) := by
    intro d r hr
    rw [hc] at hr
    split_ifs at hr with hd
    · subst hd
      exact (hne r hr).imp_right fun h => ⟨rfl,h⟩
    · exact .inl hr
  refine ⟨?_,?_,?_⟩
  · intro d
    rw [hc]
    split_ifs
    · exact hgo
    · exact h.good d
  · intro d r hr
    obtain hr | ⟨-,hr,-⟩ := hold d r hr
    · exact h.seen d r hr
    · exact hr
  · intro d d' r hn hr hr'
    obtain hro | ⟨hd,-,hno⟩ := hold d r hr
    · obtain hro' | ⟨-,-,hno⟩ := hold d' r hr'
      · exact h.apart d d' r hn hro hro'
      · exact absurd hro (hno hn d)
    · obtain hro' | ⟨hd',-⟩ := hold d' r hr'
      · exact absurd hro' (hno hn d')
      · exact hd.trans hd'.symm

variable {t : Except BugOn (Group C)}
lemma act {c : C} {e : Event} (h : GroupInv g) (hn : ∀r,e.enters=some r → r∈g.seen ∧ ∀d,¬ Has (g.conns d) r)
    (ht : g.act false c e=some t) : ∀g',t=.ok g' → GroupInv g' := by
  intro g' hg'
  rw [Group.act,map_eq_some_iff] at ht
  obtain ⟨res,hre,rfl⟩ := ht
  rcases (h.good c).act hre (fun r hr _ hh => (hn r hr).2 c (.inr (.inr hh))) with
    rfl | ⟨c',rfl,hgo,hha⟩
  · cases hg'
  · cases hg'
    refine h.setConn c hgo fun r hr => (hha r hr).imp_right fun hr => ?_
    exact ⟨(hn r hr).1,fun _ => (hn r hr).2⟩

lemma reschedTo {c d : C} {r : Req} {env : Env} (h : GroupInv g)
    (hs : r∈g.seen) (hn : g.nip r=false) (ht : g.reschedTo c r d env=some t) : ∀g',t=.ok g' → GroupInv g' := by
  intro g' hg'
  have hne : r∈g.seen ∧ (g.nip r=true → ∀d,¬ Has (g.conns d) r) := ⟨hs,fun h => absurd (hn.symm.trans h) (by decide)⟩
  simp only [Group.reschedTo,ite_none_right_eq_some,Option.some.injEq,Bool.not_eq_true] at ht
  obtain ⟨⟨hl,hre,hr⟩,rfl⟩ := ht
  obtain ⟨S,O,U,hi,ho⟩ := h.good d
  obtain ⟨⟨accepted,conn⟩,S',O',U',hok,he⟩ := reqFwd_entered env true hi hl hre hr
  have hgo : Good g.nip conn := ⟨S',O',U',he.inv,he.once (fun h => absurd (hn.symm.trans h) (by decide)) ho⟩
  have hg1 : GroupInv (g.setConn d conn) := by
    refine h.setConn d hgo fun a ha => (he.has a ha).imp_right ?_
    rintro rfl
    exact hne
  rw [hok] at hg'
  cases hg'
  cases accepted with
  | true => exact hg1
  | false =>
    refine hg1.setConn c ((hg1.good c).reschq _ ((g.setConn d conn).conns c).eq) ?_
    intro a ha
    obtain ha | ha | ha := ha
    · exact .inl (.inl ha)
    · obtain rfl | ha := mem_cons.1 ha
      · exact .inr ⟨hs,fun h => absurd (hn.symm.trans h) (by decide)⟩
      · exact .inl (.inr (.inl ha))
    · exact .inl (.inr (.inr ha))

lemma step {i : GroupInput C} (h : GroupInv g)
    (ht : Group.step false (.ok g) i=some t) : ∀g',t=.ok g' → GroupInv g' := by
  cases i with
  | request c r nonIdemp env =>
    rw [Group.step] at ht
    split_ifs at ht with hr hm
    all_goals
      refine (h.enter hr nonIdemp).act ?_ ht
      intro a ha
      cases ha
      exact ⟨.head _,fun d hd => hr (h.seen d r hd)⟩
  | conn c e =>
    rw [Group.step] at ht
    split_ifs at ht with he
    refine h.act ?_ ht
    intro a ha
    rw [ha] at he
    exact absurd rfl he
  | clearNonIdemp c r =>
    rw [Group.step] at ht
    split_ifs at ht
    cases ht
    intro g' hg'
    cases hg'
    exact h.clear r
  | resched c dst env =>
    rw [Group.step] at ht
    cases hre : (g.conns c).fwdqResched false g.nip env with
    | none =>
      rw [hre] at ht
      cases ht
    | some p =>
      obtain ⟨o,conn⟩ := p
      obtain ⟨r,reschq,eq,hq,rfl,ho⟩ := fwdqResched_cases hre
      have hg1 : GroupInv (g.setConn c {g.conns c with reschq, eq}) := by
        refine h.setConn c ((h.good c).reschq reschq eq) fun a ha => .inl ?_
        obtain ha | ha | ha := ha
        · exact .inl ha
        · exact .inr (.inl (hq ▸ mem_cons_of_mem r ha))
        · exact .inr (.inr ha)
      rw [hre] at ht
      obtain rfl | ⟨rfl,hn⟩ := ho
      · cases ht
        intro g' hg'
        cases hg'
        exact hg1
      · cases dst with
        | none =>
          cases ht
          intro g' hg'
          cases hg'
          exact hg1
        | some d =>
          have hs : r∈g.seen := h.seen c r (.inr (.inl (hq ▸ (.head _))))
          exact hg1.reschedTo hs hn ht

end GroupInv

variable [DecidableEq C]

/-- Without `TFW_SRV_RETRY_NIP`, a request that carries the non-idempotent flag until it leaves the queues is handed to
the socket of at most one connection. -/
theorem nonidempotent_sent_at_most_once (is : List (GroupInput C)) (g : Group C)
    (hrun : Run.run (Group.step false) (.ok (.init C)) is=some (.ok g)) (r : Req) (hr : g.nip r=true) :
    (∀c,(g.conns c).handed.count r≤1) ∧ ∀c d,r∈(g.conns c).handed → r∈(g.conns d).handed → c=d := by
  have hinit : GroupInv (Group.init C) := by
    refine ⟨fun c => ⟨[],[],[],init_inv,?_⟩,?_,?_⟩
    · exact .of_noNipSent (by simp) (by intro r hr; cases hr) (by intro r hn; exact Nat.zero_le 1)
    · rintro c r (h | h | h) <;> cases h
    · intro c d r hn
      cases hn
  have hi : ∀g',(.ok g : Except BugOn (Group C))=.ok g' → GroupInv g' := by
    refine Run.run_invariant (Group.step false) (P := fun t => ∀g',t=.ok g' → GroupInv g') ?_ ?_ hrun
    · intro t i t' ht hst
      cases t with
      | error b => cases hst
      | ok g₀ => exact (ht g₀ rfl).step hst
    · intro g' hg'
      cases hg'
      exact hinit
  have hg := hi g rfl
  refine ⟨?_,?_⟩
  · intro c
    obtain ⟨S,O,U,-,ho⟩ := hg.good c
    exact ho.count r hr
  · intro c d hc hd
    exact hg.apart c d r hr (.inr (.inr hc)) (.inr (.inr hd))

/-- A non-idempotent and a plain request are sent, the connection is lost and given up, and the plain
request moves to the other connection. -/
def movedRequests : List (GroupInput Bool) :=
  [.conn false (.connectComplete .good .good),.conn true (.connectComplete .good .good),
    .request false (plainReq 0) false .good,.request false (plainReq 1) true .good,
    .conn false (.release false),.conn false (.repairDead true .good),
    .resched false (some true) .good,.resched false (some true) .good]

theorem nonidempotent_sent_at_most_once_moved :
    ∃g : Group Bool,Run.run (Group.step false) (.ok (.init Bool)) movedRequests=some (.ok g) ∧
      plainReq 1∈(g.conns false).handed ∧ plainReq 1∉(g.conns true).handed ∧ plainReq 0∈(g.conns true).handed := by
  have he : (Run.run (Group.step false) (.ok (.init Bool)) movedRequests).map (fun t => t.toOption.map fun g =>
        (g.nip (plainReq 1),(g.conns false).handed,(g.conns true).handed)) =
      some (some (true,[plainReq 0,plainReq 1],[plainReq 0])) := by decide +kernel
  obtain ⟨t,hr,ht⟩ := map_eq_some_iff.1 he
  cases t with
  | error b => cases ht
  | ok g =>
    simp only [Except.toOption,map_some,Option.some.injEq,Prod.mk.injEq] at ht
    obtain ⟨hn,hf,htr⟩ := ht
    have hm : plainReq 1∈(g.conns false).handed := by simp [hf]
    refine ⟨g,hr,hm,?_,by simp [htr]⟩
    intro hm'
    have h := nonidempotent_sent_at_most_once movedRequests g hr (plainReq 1) hn
    exact absurd (h.2 false true hm hm') (by decide)
end
end VetWaf.Http.FwdQueue
