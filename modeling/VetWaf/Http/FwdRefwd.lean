import VetWaf.Http.FwdPaid
import VetWaf.Http.FwdGroup

namespace VetWaf.Http.FwdQueue
open List Run SrvConn Option

/-- A server group, and `req->retries` of the requests. -/
structure Refwd (C : Type) where
  group : Group C
  retries : Req → Nat

def Refwd.init (C : Type) : Refwd C := ⟨.init C,fun _ => 0⟩

def GroupInput.setExhausted {C : Type} (f : Req → Bool) : GroupInput C → GroupInput C
  | .request c r nonIdemp env => .request c r nonIdemp (env.setExhausted f)
  | .conn c e => .conn c (e.setExhausted f)
  | .clearNonIdemp c r => .clearNonIdemp c r
  | .resched c dst env => .resched c dst (env.setExhausted f)

/-- The request whose `retries` a round of `tfw_http_fwdq_resched` increments. -/
def SrvConn.reschedTried (retryNip : Bool) (nip : Req → Bool) (env : Env) (c : SrvConn) : List Req :=
  match c.reschq with
  | [] => []
  | r::_ =>
    if !r.hmonitor && env.dropped r then []
    else if env.overdue r then []
    else if nip r && !retryNip then []
    else [r]

/-- The requests whose `retries` a step of the group increments. -/
def Group.tried {C : Type} (retryNip : Bool) (g : Group C) : GroupInput C → List Req
  | .conn c e => (g.conns c).tried retryNip g.nip e
  | .resched c _ env => (g.conns c).reschedTried retryNip g.nip env
  | .request .. => []
  | .clearNonIdemp .. => []

def Group.sends {C : Type} (g : Group C) (D : Finset C) (r : Req) : Nat := ∑ c∈D,(g.conns c).handed.count r

namespace Refwd
variable {C : Type} [DecidableEq C] (maxRefwd : Nat) (retryNip : Bool)
def step : Except BugOn (Refwd C) → GroupInput C → Option (Except BugOn (Refwd C))
  | .error _, _ => none
  | .ok s, i =>
    let i := i.setExhausted fun r => decide (maxRefwd ≤ s.retries r)
    (Group.step retryNip (.ok s.group) i).map fun res => res.map fun group =>
      ⟨group,counting s.retries (s.group.tried retryNip i)⟩

def busyAtLast : Except BugOn (Refwd C) → GroupInput C → Bool
  | .ok s, .conn c e => (s.group.conns c).busyAtLast e
  | _, _ => true

end Refwd

section
variable {C : Type} [DecidableEq C] {g : Group C} {c : C} {conn : SrvConn} {r : Req}

/-- What an event of the connection `c` starts from. -/
def Group.ledger (g : Group C) (limit : Nat) (retries : Req → Nat) (own : Req → Prop) (c : C) (D : Finset C) : Ledger :=
  ⟨limit,own,g.sends (D.erase c),fun r => (g.conns c).handed.count r,retries⟩

lemma Group.setConn_conns (d : C) : (g.setConn c conn).conns d=if d=c then conn else g.conns d := by
  rw [Group.setConn]
  exact Function.update_apply g.conns c conn d

variable (D : Finset C)
include D
lemma Group.sends_erase_setConn : (g.setConn c conn).sends (D.erase c) r=g.sends (D.erase c) r := by
  refine Finset.sum_congr rfl fun d hd => ?_
  rw [setConn_conns,if_neg (Finset.ne_of_mem_erase hd)]

lemma Group.sends_insert : g.sends (insert c D) r=g.sends (D.erase c) r+(g.conns c).handed.count r := by
  rw [← Finset.insert_erase (Finset.mem_insert_self c D),Finset.erase_insert_eq_erase,sends,
    Finset.sum_insert (Finset.notMem_erase c D),Nat.add_comm,sends]

lemma Group.sends_le_insert : g.sends D r≤g.sends (insert c D) r :=
  Finset.sum_le_sum_of_subset (Finset.subset_insert c D)

lemma Group.sends_setConn_le {limit : Nat} {retries : Req → Nat} {own : Req → Prop} :
    (g.setConn c conn).sends D r≤(g.ledger limit retries own c D).sends conn r := by
  refine (sends_le_insert (c := c) D).trans_eq ?_
  rw [sends_insert,sends_erase_setConn,setConn_conns,if_pos rfl]
  rfl

lemma Group.sends_setConn_of_count_eq (h : conn.handed.count r=(g.conns c).handed.count r) :
    (g.setConn c conn).sends D r=g.sends D r := by
  refine Finset.sum_congr rfl fun d _ => ?_
  rw [setConn_conns]
  split_ifs with hd
  · rw [h,hd]
  · rfl

end

lemma SrvConn.queueErr_eq (c : SrvConn) (r : Req) (status : Nat) (reason : String) :
    ∃eq,c.queueErr r status reason={c with eq} := by
  rw [queueErr]
  split_ifs
  · exact ⟨c.eq,rfl⟩
  · exact ⟨_,rfl⟩

lemma SrvConn.fwdqResched_tried {retryNip : Bool} {nip : Req → Bool} {env : Env} {c c' : SrvConn}
    {o : Option Req} (h : c.fwdqResched retryNip nip env=some (o,c')) :
    ∃r reschq eq,c.reschq=r::reschq ∧ c'={c with reschq, eq} ∧ (o=none ∧ (c.reschedTried retryNip nip env).Sublist [r] ∨
        o=some r ∧ c.reschedTried retryNip nip env=[r] ∧ env.exhausted r=false) := by
  rw [fwdqResched] at h
  cases hq : c.reschq with
  | nil =>
    rw [hq] at h
    cases h
  | cons r reschq =>
    have hev : ∀status reason,o=none → c'=queueErr {c with reschq} r status reason →
        (c.reschedTried retryNip nip env).Sublist [r] →
        ∃r' reschq' eq,r::reschq=r'::reschq' ∧ c'={c with reschq:=reschq', eq} ∧
          (o=none ∧ (c.reschedTried retryNip nip env).Sublist [r'] ∨
            o=some r' ∧ c.reschedTried retryNip nip env=[r'] ∧ env.exhausted r'=false) := by
      intro status reason ho hc' hs
      obtain ⟨eq,he⟩ := queueErr_eq {c with reschq} r status reason
      exact ⟨r,reschq,eq,rfl,hc'.trans he,.inl ⟨ho,hs⟩⟩
    simp only [hq,Option.some.injEq] at h
    rw [reschedTried,hq] at hev ⊢
    dsimp only at hev ⊢
    split_ifs at h with h1 h2 h3 h4
    · cases h
      rw [if_pos h1]
      exact ⟨r,reschq,c.eq,rfl,rfl,.inl ⟨rfl,nil_sublist _⟩⟩
    · cases h
      rw [if_neg h1,if_pos h2] at hev ⊢
      exact hev _ _ rfl rfl (nil_sublist _)
    · cases h
      rw [if_neg h1,if_neg h2,if_pos h3] at hev ⊢
      exact hev _ _ rfl rfl (nil_sublist _)
    · cases h
      rw [if_neg h1,if_neg h2,if_neg h3] at hev ⊢
      exact hev _ _ rfl rfl (.refl _)
    · cases h
      rw [if_neg h1,if_neg h2,if_neg h3]
      exact ⟨r,reschq,c.eq,rfl,rfl,.inr ⟨rfl,rfl,Bool.eq_false_iff.2 h4⟩⟩

/-- A request whose sendings on all connections are paid. -/
structure Group.Idle {C : Type} (g : Group C) (limit : Nat) (retries : Req → Nat) (r : Req) : Prop where
  seen : r∈g.seen
  free : ∀c,r∉(g.conns c).holding
  within : retries r≤limit
  sends : ∀D,g.sends D r≤retries r

/-- No request is in two queues, and the sendings of all connections are paid. -/
structure Bounded {C : Type} (limit : Nat) (g : Group C) (retries : Req → Nat) : Prop where
  inv : ∀c,∃S O U,Inv g.nip (g.conns c) S O U
  seen : ∀c r,Has (g.conns c) r → r∈g.seen
  fresh : ∀r,r∉g.seen → retries r=0
  nodup : ∀c,(g.conns c).holding.Nodup
  apart : ∀c d r,r∈(g.conns c).holding → r∈(g.conns d).holding → c=d
  within : ∀c,∀r∈(g.conns c).holding,retries r≤limit
  held : ∀c,∀r∈(g.conns c).holding,∀D,g.sends D r≤retries r+1
  unsent : ∀c,∀r∈(g.conns c).unsent,∀D,g.sends D r≤retries r
  total : ∀D r,g.sends D r≤limit+1

namespace Bounded
variable {C : Type} [DecidableEq C] {limit : Nat} {g : Group C} {retries : Req → Nat}
lemma sends_ledger {own : Req → Prop} (c : C) (D : Finset C) (r : Req) :
    (g.ledger limit retries own c D).sends (g.conns c) r=g.sends (insert c D) r := (Group.sends_insert D).symm

lemma paid (h : Bounded limit g retries) (c : C) (D : Finset C) {own : Req → Prop}
    (ho : ∀r∈(g.conns c).holding,own r) : Paid (g.ledger limit retries own c D) retries (g.conns c) where
  nodup := h.nodup c
  own := ho
  limit := h.within c
  held r hr := (sends_ledger c D r).trans_le (h.held c r hr _)
  unsent r hr := (sends_ledger c D r).trans_le (h.unsent c r hr _)
  total r := (sends_ledger c D r).trans_le (h.total _ r)
  frame _ _ := ⟨rfl,rfl⟩

variable {c : C} {r : Req} {retryNip : Bool} {g' : Group C} {env : Env}
lemma setConn (own : Req → Prop) {retries' : Req → Nat} {conn : SrvConn}
    (h : Bounded limit g retries) (hi : ∃S O U,Inv g.nip conn S O U) (hsn : ∀r,Has conn r → r∈g.seen)
    (hown : ∀r,own r → r∈g.seen ∧ (r∈(g.conns c).holding ∨ ∀d,r∉(g.conns d).holding))
    (hp : ∀D,Paid (g.ledger limit retries own c D) retries' conn) : Bounded limit (g.setConn c conn) retries' := by
  have hc : ∀d,(g.setConn c conn).conns d=if d=c then conn else g.conns d := fun d => Group.setConn_conns d
  have hle : ∀D r,(g.setConn c conn).sends D r≤(g.ledger limit retries own c D).sends conn r :=
    fun D r => Group.sends_setConn_le D
  -- What another connection holds is as it was.
  have hoh : ∀d,d≠c → ∀r∈(g.conns d).holding,¬ own r := by
    intro d hd r hr ho
    obtain hrc | hf := (hown r ho).2
    · exact hd (h.apart d c r hr hrc)
    · exact hf d hr
  have hs : ∀r,¬ own r → retries' r=retries r ∧ ∀D,(g.setConn c conn).sends D r=g.sends D r := by
    intro r ho
    obtain ⟨hcn,hre⟩ := (hp ∅).frame r ho
    exact ⟨hre,fun D => Group.sends_setConn_of_count_eq D hcn⟩
  refine ⟨?_,?_,?_,?_,?_,?_,?_,?_,?_⟩
  · intro d
    rw [hc]
    split_ifs
    · exact hi
    · exact h.inv d
  · intro d r hr
    rw [hc] at hr
    split_ifs at hr
    · exact hsn r hr
    · exact h.seen d r hr
  · intro r hr
    have ho : ¬ own r := fun ho => hr (hown r ho).1
    rw [(hs r ho).1]
    exact h.fresh r hr
  · intro d
    rw [hc]
    split_ifs
    · exact (hp ∅).nodup
    · exact h.nodup d
  · intro d d' r hr hr'
    rw [hc] at hr hr'
    split_ifs at hr hr' with hd hd' hd'
    · exact hd.trans hd'.symm
    · exact absurd ((hp ∅).own r hr) (hoh d' hd' r hr')
    · exact absurd ((hp ∅).own r hr') (hoh d hd r hr)
    · exact h.apart d d' r hr hr'
  · intro d r hr
    rw [hc] at hr
    split_ifs at hr with hd
    · exact (hp ∅).limit r hr
    · rw [(hs r (hoh d hd r hr)).1]
      exact h.within d r hr
  · intro d r hr D
    rw [hc] at hr
    split_ifs at hr with hd
    · exact (hle D r).trans ((hp D).held r hr)
    · obtain ⟨hre,hse⟩ := hs r (hoh d hd r hr)
      rw [hre,hse]
      exact h.held d r hr D
  · intro d r hr D
    rw [hc] at hr
    split_ifs at hr with hd
    · exact (hle D r).trans ((hp D).unsent r hr)
    · have hrh := (g.conns d).unsent_sublist.subset hr
      obtain ⟨hre,hse⟩ := hs r (hoh d hd r hrh)
      rw [hre,hse]
      exact h.unsent d r hr D
  · intro D r
    exact (hle D r).trans ((hp D).total r)

def ownWith (g : Group C) (c : C) (r : Option Req) (a : Req) : Prop := a∈(g.conns c).holding ∨ r=some a

omit [DecidableEq C] in
lemma ownWith_cases {o : Option Req} (h : Bounded limit g retries) (ho : ∀r,o=some r → g.Idle limit retries r) :
    ∀a,ownWith g c o a → a∈g.seen ∧ (a∈(g.conns c).holding ∨ ∀d,a∉(g.conns d).holding) := by
  rintro a (ha | rfl)
  · refine ⟨h.seen c a ?_,.inl ha⟩
    obtain hq | hq := mem_append.1 ha
    · exact .inl hq
    · exact .inr (.inl hq)
  · exact ⟨(ho a rfl).seen,.inr (ho a rfl).free⟩

lemma enters (hr : g.Idle limit retries r) (D : Finset C) :
    SrvConn.Enters (g.ledger limit retries (ownWith g c (some r)) c D) retries (g.conns c) r :=
  ⟨.inr rfl,hr.free c,hr.within,(sends_ledger c D r).trans_le (hr.sends _)⟩

lemma act {e : Event} (h : Bounded limit g retries) (hn : ∀r,e.enters=some r → g.Idle limit retries r)
    (hb : (g.conns c).busyAtLast e=true)
    (ht : g.act retryNip c (e.setExhausted fun r => decide (limit≤retries r))=some (.ok g')) :
    Bounded limit g' (counting retries ((g.conns c).tried retryNip g.nip
      (e.setExhausted fun r => decide (limit≤retries r)))) := by
  rw [Group.act,map_eq_some_iff] at ht
  obtain ⟨res,hre,ht⟩ := ht
  obtain ⟨S,O,U,hi⟩ := h.inv c
  obtain ⟨-,rfl⟩ | ⟨c',S',O',U',-,rfl,hm⟩ := act_cases hi hre
  · cases ht
  · cases ht
    refine h.setConn (ownWith g c e.enters) ⟨S',O',U',hm.inv⟩ ?_ (h.ownWith_cases hn) ?_
    · intro r hr
      obtain hr | hr := hm.has r hr
      · exact h.seen c r hr
      · refine (hn r ?_).seen
        cases e <;> exact hr
    · intro D
      refine (h.paid c D fun r hr => .inl hr).act hi ?_ hb hre
      intro r hr
      rw [hr]
      exact enters (hn r hr) D

lemma unpark {reschq T : List Req} (eq : List HttpErr)
    (h : Bounded limit g retries) (hq : (g.conns c).reschq=r::reschq) (hT : T.Sublist [r]) :
    Bounded limit (g.setConn c {g.conns c with reschq, eq}) (counting retries T) := by
  obtain ⟨S,O,U,hi⟩ := h.inv c
  have hh : (g.conns c).holding=(g.conns c).q.fwdQueue++r::reschq := by rw [holding,hq]
  have hr : r∉(g.conns c).q.fwdQueue++reschq := by
    have hc := ListCursor.nodup_cut (hh ▸ h.nodup c)
    exact fun hm => (mem_append.1 hm).elim hc.1 hc.2
  refine h.setConn (ownWith g c none) ⟨S,O,U,?_⟩ ?_ (h.ownWith_cases fun _ h => by cases h) ?_
  · exact ⟨hi.books,⟨hi.layout.queue,hi.layout.curr,hi.layout.last⟩,hi.paired,hi.direct,hi.probing,hi.dead⟩
  · intro a ha
    refine h.seen c a (ha.imp_right (.imp_left fun ha => ?_))
    rw [hq]
    exact mem_cons_of_mem r ha
  · intro D
    refine (h.paid c D fun a ha => .inl ha).counted (append_nil _).symm (List.Sublist.subperm ?_)
      (nodup_singleton r |>.sublist hT) ?_ (nil_sublist T) (by simp) ?_ ?_
    · rw [hh]
      exact List.Sublist.append (.refl _) (sublist_cons_self r reschq)
    · intro a ha
      rw [mem_singleton.1 (hT.subset ha),hh]
      simp
    · intro a ha hah
      rw [mem_singleton.1 (hT.subset ha)] at hah
      exact absurd hah hr
    · exact fun a ha => ⟨not_mem_nil,.inl ha⟩

lemma park (h : Bounded limit g retries) (hr : g.Idle limit retries r) :
    Bounded limit (g.setConn c {g.conns c with reschq:=r::(g.conns c).reschq}) retries := by
  obtain ⟨S,O,U,hi⟩ := h.inv c
  refine h.setConn (ownWith g c (some r)) ⟨S,O,U,?_⟩ ?_ (h.ownWith_cases fun a ha => Option.some.inj ha ▸ hr) ?_
  · exact ⟨hi.books,⟨hi.layout.queue,hi.layout.curr,hi.layout.last⟩,hi.paired,hi.direct,hi.probing,hi.dead⟩
  · intro a ha
    obtain ha | ha | ha := ha
    · exact h.seen c a (.inl ha)
    · obtain rfl | ha := mem_cons.1 ha
      · exact hr.seen
      · exact h.seen c a (.inr (.inl ha))
    · exact h.seen c a (.inr (.inr ha))
  · intro D
    have he := enters (c := c) hr D
    refine (h.paid c D fun a ha => .inl ha).enter rfl ?_ (fun a ha => .inl ha) he.fresh he.own he.limit he.sends
    exact perm_middle

lemma reschedTo {d : C} (h : Bounded limit g retries)
    (hr : g.Idle limit retries r) (ht : g.reschedTo c r d env=some (.ok g')) : Bounded limit g' retries := by
  simp only [Group.reschedTo,ite_none_right_eq_some,Option.some.injEq,Bool.not_eq_true] at ht
  obtain ⟨⟨hl,hre,hrq⟩,ht⟩ := ht
  obtain ⟨S,O,U,hi⟩ := h.inv d
  obtain ⟨⟨accepted,conn⟩,S',O',U',hok,he⟩ := reqFwd_entered env true hi hl hre hrq
  have hp : ∀D,_ := fun D => reqFwd_paid hi hl hre (h.paid d D fun a ha => .inl ha) (enters hr D) hok
  have hg : Bounded limit (g.setConn d conn) retries := by
    refine h.setConn (ownWith g d (some r)) ⟨S',O',U',he.inv⟩ ?_
      (h.ownWith_cases fun a ha => Option.some.inj ha ▸ hr) fun D => (hp D).1
    intro a ha
    obtain ha | rfl := he.has a ha
    · exact h.seen d a ha
    · exact hr.seen
  rw [hok] at ht
  cases ht
  cases accepted with
  | true => exact hg
  | false =>
    refine hg.park ⟨hr.seen,?_,hr.within,?_⟩
    · intro e
      rw [Group.setConn_conns]
      split_ifs
      · exact ((hp ∅).2 rfl).fresh
      · exact hr.free e
    · exact fun D => (Group.sends_setConn_le D).trans ((hp D).2 rfl).sends

omit [DecidableEq C] in
lemma setFlag {b : Bool} (seen : List Req) (h : Bounded limit g retries)
    (hr : b=true → ∀c,r∉(g.conns c).q.fwdQueue) (hs : ∀a∈g.seen,a∈seen) :
    Bounded limit {g with nip:=FwdQueue.setFlag g.nip r b, seen} retries := by
  refine ⟨?_,fun c a ha => hs a (h.seen c a ha),fun a ha => h.fresh a fun hm => ha (hs a hm),
    h.nodup,h.apart,h.within,h.held,h.unsent,h.total⟩
  intro c
  obtain ⟨S,O,U,hi⟩ := h.inv c
  exact ⟨S,O,U,hi.setFlag fun hb => hr hb.1 c hb.2⟩

omit [DecidableEq C] in
lemma sends_of_not_seen (h : Bounded limit g retries) (hr : r∉g.seen) (D : Finset C) : g.sends D r=0 := by
  refine Finset.sum_eq_zero fun c _ => count_eq_zero.2 fun hm => ?_
  exact hr (h.seen c r (.inr (.inr hm)))

lemma request {nonIdemp : Bool} (h : Bounded limit g retries) (ht : Group.step retryNip (.ok g) (.request c r nonIdemp
      (env.setExhausted fun r => decide (limit≤retries r)))=some (.ok g')) : Bounded limit g' retries := by
  rw [Group.step] at ht
  split_ifs at ht with hr
  all_goals
    have hf : ∀d,r∉(g.conns d).holding := fun d hd => hr (h.seen d r ((mem_append.1 hd).imp_right .inl))
    have hg := h.setFlag (r := r) (b := nonIdemp) (r::g.seen)
      (fun _ d hd => hf d (mem_append_left _ hd)) fun a ha => mem_cons_of_mem r ha
    have hi : Group.Idle {g with nip:=FwdQueue.setFlag g.nip r nonIdemp, seen:=r::g.seen} limit retries r :=
      ⟨.head _,hf,(h.fresh r hr).trans_le zero_le,fun D => (h.sends_of_not_seen hr D).trans_le zero_le⟩
  · exact hg.act (e := .fwd r false env) (fun a ha => Option.some.inj ha ▸ hi) rfl ht
  · exact hg.act (e := .fwdResched r env) (fun a ha => Option.some.inj ha ▸ hi) rfl ht

lemma resched {dst : Option C} (h : Bounded limit g retries) (hex : ∀r,env.exhausted r=decide (limit≤retries r))
    (ht : Group.step retryNip (.ok g) (.resched c dst env)=some (.ok g')) : Bounded limit g'
      (counting retries ((g.conns c).reschedTried retryNip g.nip env)) := by
  rw [Group.step] at ht
  cases hr : (g.conns c).fwdqResched retryNip g.nip env with
  | none =>
    rw [hr] at ht
    cases ht
  | some p =>
    obtain ⟨o,conn⟩ := p
    obtain ⟨r,reschq,eq,hq,rfl,⟨rfl,hT⟩ | ⟨rfl,hT,hexr⟩⟩ := SrvConn.fwdqResched_tried hr
    · rw [hr] at ht
      cases ht
      exact h.unpark eq hq hT
    · rw [hr] at ht
      have hg := h.unpark eq hq (List.Sublist.refl [r])
      cases dst with
      | none =>
        cases ht
        rw [hT]
        exact hg
      | some d =>
        have hrh : r∈(g.conns c).holding := mem_append_right _ (hq ▸ (.head _))
        have hc := h.nodup c
        rw [holding,hq] at hc
        rw [hT]
        refine hg.reschedTo ⟨h.seen c r (.inr (.inl (hq ▸ (.head _)))),?_,?_,?_⟩ ht
        · intro e
          rw [Group.setConn_conns]
          split_ifs with he
          · exact fun hm => (mem_append.1 hm).elim (ListCursor.nodup_cut hc).1 (ListCursor.nodup_cut hc).2
          · exact fun hm => he (h.apart e c r hm hrh)
        · rw [hex,decide_eq_false_iff_not] at hexr
          rw [counting,count_singleton_self]
          exact Nat.lt_of_not_le hexr
        · intro D
          rw [counting,count_singleton_self]
          refine (Group.sends_setConn_of_count_eq D ?_).trans_le (h.held c r hrh D)
          rfl

lemma step {s s' : Refwd C} {i : GroupInput C}
    (h : Bounded limit s.group s.retries) (hbu : Refwd.busyAtLast (.ok s) i=true)
    (ht : Refwd.step limit retryNip (.ok s) i=some (.ok s')) : Bounded limit s'.group s'.retries := by
  rw [Refwd.step,map_eq_some_iff] at ht
  obtain ⟨res,hre,ht⟩ := ht
  cases res with
  | error b => cases ht
  | ok g' =>
    cases ht
    cases i with
    | request c r nonIdemp env => exact h.request hre
    | conn c e =>
      rw [GroupInput.setExhausted,Group.step] at hre
      split_ifs at hre with hne
      refine h.act ?_ hbu hre
      intro r hr
      exfalso
      revert hne hr
      cases e <;> simp [Event.setExhausted,Event.enters]
    | clearNonIdemp c r =>
      rw [GroupInput.setExhausted,Group.step] at hre
      split_ifs at hre
      cases hre
      exact h.setFlag _ (fun hb => by cases hb) fun a ha => ha
    | resched c dst env => exact h.resched (fun _ => rfl) hre

end Bounded

lemma bounded_init (C : Type) (limit : Nat) : Bounded limit (Group.init C) (Refwd.init C).retries := by
  have hs : ∀D r,(Group.init C).sends D r=0 := fun D r => Finset.sum_eq_zero fun _ _ => rfl
  refine ⟨fun c => ⟨[],[],[],init_inv⟩,?_,fun _ _ => rfl,fun c => nodup_nil,?_,?_,?_,?_,?_⟩
  · rintro c r (h | h | h) <;> cases h
  · intro c d r hr
    cases hr
  · intro c r hr
    cases hr
  · intro c r hr
    cases hr
  · intro c r hr
    cases hr
  · intro D r
    exact (hs D r).trans_le zero_le

section
variable {C : Type} [DecidableEq C]

/-- As long as the re-sending of the requests of a connection meets `-EBUSY` only for the last of them,
a request is handed to the sockets of all connections at most once more than `max_refwd`. -/
theorem reforwarding_bounded (maxRefwd : Nat) (retryNip : Bool) (is : List (GroupInput C)) (s : Refwd C)
    (hrun : run (Refwd.step maxRefwd retryNip) (.ok (.init C)) is=some (.ok s))
    (hbusy : along (Refwd.step maxRefwd retryNip) Refwd.busyAtLast (.ok (.init C)) is=true)
    (D : Finset C) (r : Req) : s.group.sends D r ≤ maxRefwd+1 := by
  have hi : ∀s',(.ok s : Except BugOn (Refwd C))=.ok s' → Bounded maxRefwd s'.group s'.retries := by
    refine run_invariant_along (Refwd.step maxRefwd retryNip)
      (P := fun t => ∀s',t=.ok s' → Bounded maxRefwd s'.group s'.retries) ?_ ?_ hbusy hrun
    · intro t i t' ht hb hst s' hs'
      cases t with
      | error b => cases hst
      | ok s₀ =>
        subst hs'
        exact (ht s₀ rfl).step hb hst
    · intro s' hs'
      cases hs'
      exact bounded_init C maxRefwd
  exact (hi s rfl).total D r

/-- Three requests are sent and the connection is lost. -/
def busyRepair (busy : Req) : List (GroupInput Unit) :=
  [.conn () (.connectComplete .good .good),.request () (plainReq 1) false .good,
    .request () (plainReq 2) false .good,.request () (plainReq 3) false .good,
    .conn () (.release false),.conn () (.connectComplete .good .good),.conn () .respond,
    .conn () (.popreq true (.sending fun r => if r=busy then .ebusy else .ok) .good),
    .conn () (.release false),.conn () (.connectComplete .good .good)]

def handedOf : Except BugOn (Refwd Unit) → List Nat
  | .error _ => []
  | .ok s => (s.group.conns ()).handed.map Req.id

/-- With one attempt allowed, the third request is sent three times. -/
theorem uncounted_reforwarding : (run (Refwd.step 1 false) (.ok (.init Unit)) (busyRepair (plainReq 2))).map handedOf =
      some [1,2,3,1,2,3,3] := by
  decide +kernel

/-- With `-EBUSY` for the third request, its second sending is counted, and it is evicted. -/
theorem reforwarding_bounded_busyRepair :
    ∃s : Refwd Unit,run (Refwd.step 1 false) (.ok (.init Unit)) (busyRepair (plainReq 3)) =
        some (.ok s) ∧ handedOf (.ok s)=[1,2,3,1,2,3] ∧ s.group.sends Finset.univ (plainReq 3)≤2 := by
  have he : (run (Refwd.step 1 false) (.ok (.init Unit)) (busyRepair (plainReq 3))).map
      handedOf=some [1,2,3,1,2,3] := by decide +kernel
  obtain ⟨t,hr,ht⟩ := map_eq_some_iff.1 he
  cases t with
  | error b => cases ht
  | ok s => exact ⟨s,hr,ht,reforwarding_bounded 1 false _ s hr (by decide +kernel) _ _⟩
end
end VetWaf.Http.FwdQueue
