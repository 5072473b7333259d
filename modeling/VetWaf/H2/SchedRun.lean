import VetWaf.H2.SchedRemove

namespace VetWaf.H2
open Function List Forest TfwStreamSched Option PriTree Bool Nat
namespace SchedInv
variable {off : Nat → Int} {freed : Option Nat} {s s' : TfwStreamSched} {id p : Nat}
lemma setActive (cnt : Int) {isActive : Bool} (h : SchedInv 0 freed s) (hp : s.parent id=some p)
    (hcn : cnt=(if isActive then 1 else 0)-if s.isActive id then 1 else 0) (hl : s'.Linked none)
    (hs' : Relisted {s with isActive:=update s.isActive id isActive} s') :
    SchedInv (owed (some p) cnt) freed s' := by
  have ha : s'.activeOf=update s.activeOf id (cnt+s.activeOf id) := by
    rw [hs'.activeOf]
    funext c
    by_cases hc : c=id
    · simp only [hc,activeOf,update_self]
      omega
    · simp only [activeOf,update_of_ne hc]
  refine h.recount hl ⟨_,hs'.tree⟩ hs'.totalWeight ?_ ?_
  · intro q
    rw [ha,(h.linked.children q).sum_update,← h.counts q,hs'.activeCnt,hp]
    simp [owed]
  · rw [hs'.activeCnt]
    exact h.nonneg

section
variable (h : SchedInv off freed s)
include h
lemma linked_setActive (id : Nat) (isActive : Bool) : TfwStreamSched.Linked (some id)
      {s with isActive:=update s.isActive id isActive} := by
  refine (h.linked.weaken id).congr (fun _ _ => rfl) ?_ (fun q c _ => h.linked.parent q c) rfl rfl rfl
  intro c hc
  have hne : c≠id := fun heq => hc (by rw [heq])
  simp only [Busy,update_of_ne hne]

lemma linked_setActive_of_ne_zero (hcn : s.activeCnt id≠0) (isActive : Bool) :
    TfwStreamSched.Linked none {s with isActive:=update s.isActive id isActive} := by
  refine h.linked.congr (fun _ _ => rfl) ?_ (fun q c _ => h.linked.parent q c) rfl rfl rfl
  intro c _
  by_cases hc : c=id
  · simp [Busy,hc,hcn]
  · simp only [Busy,update_of_ne hc]

lemma schedState_of_parent (hp : s.parent id=some p) : s.schedState id=if s.Busy id then .active else .blocked := by
  rw [h.linked.state id (by simp),stateOf,hp]

end

lemma schedActivateStream (h : SchedInv 0 freed s) (hp : s.parent id=some p) (hi : s.isActive id=false) :
    ∃s',s.schedActivateStream id=.ok s' ∧ SchedInv 0 freed s' ∧
      s'.toPriTree={s.toPriTree with isActive:=update s.isActive id true} := by
  simp only [TfwStreamSched.schedActivateStream,hp]
  by_cases hc : s.activeCnt id=0
  · have hst := h.schedState_of_parent hp
    rw [if_neg (by simp [Busy,hi,hc])] at hst
    obtain ⟨s1,hs1,hl1,hr⟩ := (h.linked_setActive id true).insertActive hp (.inl (update_self ..)) (by simp [hst])
    have hi1 := h.setActive 1 hp (by simp [hi]) hl1 hr
    obtain ⟨s2,hs2,hi2,hco⟩ := hi1.propagateAddLoop Int.one_pos (hi1.within p)
    refine ⟨s2,?_,hi2,hco.tree.trans hr.tree⟩
    rw [if_pos hc,hs1,Outcome.ok_bind,hs2]
  · have hi1 := h.setActive 1 hp (by simp [hi]) (h.linked_setActive_of_ne_zero hc true) ⟨rfl,rfl,rfl⟩
    obtain ⟨s2,hs2,hi2,hco⟩ := hi1.propagateAddLoop Int.one_pos (hi1.within p)
    refine ⟨s2,?_,hi2,hco.tree⟩
    rw [if_neg hc,hs2]

lemma schedDeactivateStream (h : SchedInv 0 freed s) (hp : s.parent id=some p) (ha : s.isActive id=true) :
    ∃s',s.schedDeactivateStream id=.ok s' ∧ SchedInv 0 freed s' ∧
      s'.toPriTree={s.toPriTree with isActive:=update s.isActive id false} := by
  simp only [TfwStreamSched.schedDeactivateStream,hp]
  by_cases hc : s.activeCnt id=0
  · have hst := h.schedState_of_parent hp
    rw [if_pos (.inl ha)] at hst
    obtain ⟨s1,hs1,hl1,hr⟩ := (h.linked_setActive id false).insertBlocked hp
      (by simp [Busy,hc]) (by simp [hst])
    have hi1 := h.setActive (-1) hp (by simp [ha]) hl1 hr
    obtain ⟨s2,hs2,hi2,hco⟩ := hi1.propagateDecLoop Int.one_pos (hi1.within p)
    refine ⟨s2,?_,hi2,hco.tree.trans hr.tree⟩
    rw [if_pos hc,hs1,Outcome.ok_bind,hs2]
  · have hi1 := h.setActive (-1) hp (by simp [ha]) (h.linked_setActive_of_ne_zero hc false) ⟨rfl,rfl,rfl⟩
    obtain ⟨s2,hs2,hi2,hco⟩ := hi1.propagateDecLoop Int.one_pos (hi1.within p)
    refine ⟨s2,?_,hi2,hco.tree⟩
    rw [if_neg hc,hs2]

lemma parent_eq_none (h : SchedInv off freed s) (hid : id∉s.streams) : s.parent id=none := by
  cases hp : s.parent id with
  | none => rfl
  | some p => exact absurd (h.live id p hp).1 hid

lemma children_eq_nil (h : SchedInv off freed s) (hid : id∉0::s.streams) : s.children id=[] := by
  refine eq_nil_iff_forall_not_mem.2 ?_
  intro c hc
  exact hid (h.live c id (h.linked.parent id c hc)).2

lemma initStream {weight : Nat} (h : SchedInv 0 none s) (hid : id∉0::s.streams)
    (hw : weight<2^16) : SchedInv 0 none (s.initStream id weight) := by
  have hn : id∉s.streams := fun hm => hid (.tail _ hm)
  have hno := h.parent_eq_none hn
  obtain ⟨ha,hb⟩ := append_eq_nil_iff.1 (h.children_eq_nil hid)
  have hst : s.schedState id=.unknown := by rw [h.linked.state id (by simp),stateOf,hno]
  generalize hs' : s.initStream id weight=s'
  have hp : s'.parent=s.parent := by rw [← hs',TfwStreamSched.initStream,← hno,update_eq_self]
  have hch : s'.children=s.children := by
    funext q
    rw [← hs',children,children,TfwStreamSched.initStream]
    simp only
    rw [← ha,update_eq_self,ha,← hb,update_eq_self]
  have ho : ∀c,c≠id → s'.activeOf c=s.activeOf c ∧ (s'.Busy c ↔ s.Busy c) ∧
      s'.activeCnt c=s.activeCnt c ∧ s'.weight c=s.weight c ∧ s'.totalWeight c=s.totalWeight c := by
    intro c hc
    rw [← hs']
    simp [activeOf,Busy,TfwStreamSched.initStream,hc]
  have hse : s'.activeCnt id=0 ∧ s'.totalWeight id=0 ∧ s'.weight id=if weight=0 then http2DefWeight else weight := by
    rw [← hs']
    simp [TfwStreamSched.initStream]
  have hl : s'.Linked none := by
    refine TfwStreamSched.Linked.detached (x := id) ?_ (by rw [hp,hno]) ?_
    · refine (h.linked.weaken id).congr (fun _ _ => by rw [hp]) ?_ ?_ ?_ ?_ ?_
      · intro c hc
        exact (ho c (fun heq => hc (by rw [heq]))).2.1
      · intro q c _ hc
        rw [hp]
        exact h.linked.parent q c hc
      · rw [← hs',TfwStreamSched.initStream,← ha,update_eq_self]
      · rw [← hs',TfwStreamSched.initStream,← hb,update_eq_self]
      · rw [← hs',TfwStreamSched.initStream,← hst,update_eq_self]
    · rw [← hs',TfwStreamSched.initStream]
      exact update_self ..
  have hne : ∀ {q c},c∈s.children q → c≠id := by
    intro q c hc heq
    exact h.linked.not_mem hno q (heq ▸ hc)
  have hs : s'.streams=id::s.streams := by rw [← hs',TfwStreamSched.initStream]
  refine ⟨hl,hp ▸ h.acyclic,?_,?_,?_,?_,?_,?_,?_⟩
  · intro c q hq
    rw [hp] at hq
    obtain ⟨hc,hq⟩ := h.live c q hq
    rw [hs]
    exact ⟨.tail _ hc,by rw [mem_cons] at hq ⊢; exact hq.imp_right (.tail _)⟩
  · rw [hs,mem_cons]
    exact fun hor => hor.elim (fun heq => hid (heq ▸ (.head _))) h.root
  · rw [hs]
    exact nodup_cons.2 ⟨hn,h.nodup⟩
  · intro c hc
    by_cases hci : c=id
    · rw [hci,hse.2.2,http2DefWeight]
      split_ifs <;> omega
    · rw [(ho c hci).2.2.2.1]
      rw [hs] at hc
      exact h.bounds c (mem_of_ne_of_mem hci hc)
  · intro q hq _
    rw [hch]
    by_cases hqi : q=id
    · rw [hqi,hse.2.1,h.children_eq_nil hid]
      rfl
    · rw [(ho q hqi).2.2.2.2,map_congr_left fun c hc => (ho c (hne hc)).2.2.2.1]
      refine h.weights q ?_ (by simp)
      rw [hs] at hq
      simpa [hqi] using hq
  · intro q
    rw [hch]
    by_cases hqi : q=id
    · rw [hqi,hse.1,h.children_eq_nil hid]
      rfl
    · rw [(ho q hqi).2.2.1,map_congr_left fun c hc => (ho c (hne hc)).1]
      exact h.counts q
  · intro q
    by_cases hqi : q=id
    · rw [hqi,hse.1]
    · rw [(ho q hqi).2.2.1]
      exact h.nonneg q

lemma erase {rescale : Bool} {total : Nat} {s₀ : TfwStreamSched} (h : SchedInv 0 (some id) s)
    (h₀ : SchedInv 0 none s₀) (hid : s₀.parent id=some p) (hr : Removed id rescale total s₀ s) :
    SchedInv 0 none {s with streams:=s.streams.erase id} := by
  have hne : ∀c q,s.parent c=some q → c≠id ∧ q≠id := by
    intro c q hq
    rw [hr.parent] at hq
    split_ifs at hq with hc hp
    · rw [hid,Option.some.injEq] at hq
      exact ⟨hc,hq ▸ h₀.acyclic.parent_ne hid⟩
    · exact ⟨hc,fun heq => hp (heq ▸ hq)⟩
  have hm : ∀q,q∈s.streams.erase id ↔ q≠id ∧ q∈s.streams := fun q => h.nodup.mem_erase_iff
  refine ⟨⟨h.linked.active,h.linked.blocked,h.linked.parent,h.linked.nodup,h.linked.state⟩,
    h.acyclic,?_,?_,h.nodup.erase id,?_,?_,h.counts,h.nonneg⟩
  · intro c q hq
    obtain ⟨hc,hqi⟩ := hne c q hq
    obtain ⟨hl,hq⟩ := h.live c q hq
    refine ⟨(hm c).2 ⟨hc,hl⟩,?_⟩
    rw [mem_cons] at hq ⊢
    exact hq.imp_right fun hq => (hm q).2 ⟨hqi,hq⟩
  · intro hro
    exact h.root ((hm 0).1 hro).2
  · intro c hc
    exact h.bounds c ((hm c).1 hc).2
  · intro q hq _
    refine h.weights q ?_ ?_
    · rw [mem_cons] at hq ⊢
      exact hq.imp_right fun hq => ((hm q).1 hq).2
    · intro heq
      rw [← Option.some.inj heq,mem_cons] at hq
      obtain h0 | hq := hq
      · exact h₀.root (h0 ▸ (h₀.live id p hid).1)
      · exact ((hm id).1 hq).1 rfl

end SchedInv

/-- The lists, weights and counters are those of the tree, and every stream is in it. -/
structure TfwStreamSched.Valid (s : TfwStreamSched) : Prop where
  inv : SchedInv 0 none s
  placed : ∀c∈s.streams,∃p,s.parent c=some p

lemma TfwStreamSched.valid_empty : TfwStreamSched.Valid {} := by
  refine ⟨⟨⟨?_,?_,?_,?_,?_⟩,⟨fun _ => 0,?_⟩,?_,?_,?_,?_,?_,?_,?_⟩,?_⟩ <;> simp [children,stateOf]

namespace TfwStreamSched.Valid
variable {s s' : TfwStreamSched} {id : Nat}
lemma of_parent (h : s.Valid) (hi : SchedInv 0 none s') (hs : s'.streams=s.streams)
    (hpa : ∀c p,s.parent c=some p → ∃q,s'.parent c=some q) : s'.Valid := by
  refine ⟨hi,?_⟩
  rw [hs]
  intro c hc
  obtain ⟨p,hp⟩ := h.placed c hc
  exact hpa c p hp

variable {pri : TfwFramePri} {op : SchedOp} (h : s.Valid)
include h
lemma create (ha : (SchedOp.create id pri).allowed s=true) : ∃s',s.streamCreate id pri=.ok s' ∧ s'.Valid := by
  simp only [SchedOp.allowed,and_eq_true,not_eq_true',contains_eq_mem,bne_iff_ne,
    decide_eq_true_eq,decide_eq_false_iff_not] at ha
  obtain ⟨⟨hid,hn⟩,hw⟩ := ha
  have hid : id∉0::s.streams := by simp [hid,hn]
  have hi := h.inv.initStream hid hw
  have hd := SchedInv.findStreamDep_mem s pri.streamId
  have hno : (s.initStream id pri.weight).parent id=none := update_self ..
  have hp : (s.initStream id pri.weight).parent=s.parent := by
    rw [TfwStreamSched.initStream,← h.inv.parent_eq_none hn,update_eq_self]
  have hb : ¬(s.findStreamDep pri.streamId=id ∨
      Above (s.initStream id pri.weight).parent id (s.findStreamDep pri.streamId)) := by
    intro ho
    obtain heq | hab := ho
    · exact hid (heq ▸ hd)
    · rw [hp] at hab
      obtain ⟨c,hc,-⟩ := above_iff_child.1 hab
      exact hid (h.inv.live c id hc).2
  obtain ⟨s',hs',hi',ht'⟩ := hi.addStreamDep hno (.head _)
    (by rw [mem_cons] at hd ⊢; exact hd.imp_right (.tail _)) hb pri.exclusive
  refine ⟨s',hs',hi',?_⟩
  intro c hc
  rw [ht'] at hc ⊢
  simp only [addDep,withParent,hp]
  split_ifs with hci
  · exact ⟨_,rfl⟩
  · exact ⟨_,rfl⟩
  · exact h.placed c (mem_of_ne_of_mem hci hc)

lemma change (ha : (SchedOp.change id pri).allowed s=true) :
    ∃s',s.changeStreamDep id pri.streamId pri.weight pri.exclusive=.ok s' ∧ s'.Valid ∧ s'.toPriTree =
        s.toPriTree.changeDep id (s.findStreamDep pri.streamId) pri.weight pri.exclusive := by
  simp only [SchedOp.allowed,and_eq_true,contains_iff_mem,bne_iff_ne,decide_eq_true_eq] at ha
  obtain ⟨⟨⟨hl,hne⟩,hpo⟩,hlt⟩ := ha
  obtain ⟨old,hold⟩ := h.placed id hl
  obtain ⟨s',hs',hi',ht'⟩ := h.inv.changeStreamDep hold hne ⟨hpo,hlt⟩ pri.exclusive
  refine ⟨s',hs',h.of_parent hi' (by rw [ht']; rfl) ?_,ht'⟩
  intro c p hp
  rw [ht',changeDep]
  simp only
  split_ifs
  · exact ⟨_,rfl⟩
  · exact ⟨old,hold⟩
  · exact ⟨_,rfl⟩
  · exact ⟨p,hp⟩

lemma stop (hl : id∈s.streams) : s.stopStream id=.error .divZero ∨ ∃s',s.stopStream id=.ok s' ∧ s'.Valid := by
  obtain ⟨p,hp⟩ := h.placed id hl
  obtain ⟨rescale,total,-,-,he,hok⟩ := h.inv.removeStreamDep hp
  by_cases h0 : rescale=true ∧ s.active id≠[] ∧ total=0
  · left
    rw [stopStream,he h0]
    rfl
  · right
    obtain ⟨s',hs',hi',hr⟩ := hok h0
    refine ⟨_,by rw [stopStream,hs',Outcome.ok_bind]; rfl,hi'.erase h.inv hp hr,?_⟩
    intro c hc
    obtain ⟨hci,hc⟩ := hi'.nodup.mem_erase_iff.1 hc
    rw [hr.streams] at hc
    obtain ⟨q,hq⟩ := h.placed c hc
    simp only [hr.parent,if_neg hci]
    split_ifs
    · exact ⟨p,hp⟩
    · exact ⟨q,hq⟩

lemma reinsert {p : Nat} (hp : s.parent id=some p) : ∃s',s.schedReinsert id p=.ok s' ∧ s'.Valid := by
  obtain ⟨s',hs',hi',ht',-⟩ := h.inv.schedReinsert hp (h.inv.live id p hp).2 (h.inv.acyclic.not_above_parent hp)
  have ho : (fun q => (0 : Nat → Int) q-owed (some p) (s.activeOf id) q+owed (some p) (s.activeOf id) q)=0 := by
    funext q
    simp
  rw [ho] at hi'
  refine ⟨s',hs',h.of_parent hi' (by rw [ht']; rfl) ?_⟩
  intro c q hq
  rw [ht',setParent,← hp,update_eq_self]
  exact ⟨q,hq⟩

lemma exec (ha : op.allowed s=true) :
    op.exec s=.error .divZero ∧ (∃id,op=.stop id) ∨ ∃s',op.exec s=.ok s' ∧ s'.Valid := by
  cases op with
  | create id pri => exact .inr (h.create ha)
  | change id pri =>
    obtain ⟨s',hs',hv,-⟩ := h.change ha
    exact .inr ⟨s',hs',hv⟩
  | stop id =>
    rw [SchedOp.allowed,contains_iff_mem] at ha
    exact (h.stop ha).imp_left fun he => ⟨he,id,rfl⟩
  | activate id =>
    simp only [SchedOp.allowed,and_eq_true,contains_iff_mem,not_eq_true'] at ha
    obtain ⟨p,hp⟩ := h.placed id ha.1
    obtain ⟨s',hs',hi',ht'⟩ := h.inv.schedActivateStream hp ha.2
    exact .inr ⟨s',hs',h.of_parent hi' (by rw [ht']) fun c q hq => ⟨q,by rw [ht']; exact hq⟩⟩
  | deactivate id =>
    simp only [SchedOp.allowed,and_eq_true,contains_iff_mem] at ha
    obtain ⟨p,hp⟩ := h.placed id ha.1
    obtain ⟨s',hs',hi',ht'⟩ := h.inv.schedDeactivateStream hp ha.2
    exact .inr ⟨s',hs',h.of_parent hi' (by rw [ht']) fun c q hq => ⟨q,by rw [ht']; exact hq⟩⟩
  | reinsert id =>
    rw [SchedOp.allowed,contains_iff_mem] at ha
    obtain ⟨p,hp⟩ := h.placed id ha
    obtain ⟨s',hs',hv⟩ := h.reinsert hp
    refine .inr ⟨s',?_,hv⟩
    simp only [SchedOp.exec,hp,hs']

lemma activeCnt_eq (p : Nat) : s.activeCnt p=((below s.parent s.streams p).countP s.isActive : Int) := by
  have hs : ∀l : List Nat,(l.map fun c => if s.isActive c then (1 : Int) else 0).sum = (l.countP s.isActive : Int) := by
    intro l
    induction l with
    | nil => rfl
    | cons c l ih => cases hc : s.isActive c <;> simp [hc,ih,add_comm]
  rw [← hs]
  refine eq_sum_below h.inv.acyclic h.inv.nodup (fun c q hq => (h.inv.live c q hq).1) h.inv.linked.children ?_ p
  intro q
  have hco := h.inv.counts q
  rw [Pi.zero_apply,add_zero] at hco
  rw [hco]
  refine congrArg sum (map_congr_left fun c _ => ?_)
  rw [activeOf,add_comm]

lemma above_root (c : Nat) : c∈s.streams ↔ Above s.parent 0 c := by
  constructor
  · obtain ⟨depth,hd⟩ := h.inv.acyclic
    intro hc
    generalize hn : depth c=n
    induction n using Nat.strong_induction_on generalizing c with
    | _ n ih =>
      obtain ⟨p,hp⟩ := h.placed c hc
      refine above_iff.2 ⟨p,hp,?_⟩
      obtain heq | hl := mem_cons.1 (h.inv.live c p hp).2
      · exact .inl heq
      · exact .inr (ih (depth p) (hn ▸ hd c p hp) p hl rfl)
  · intro ha
    obtain ⟨p,hp,-⟩ := above_iff.1 ha
    exact (h.inv.live c p hp).1

lemma getMostPrioLoop {n p : Nat} (hn : (below s.parent s.streams p).length<n) : ∃r,s.getMostPrioLoop n p=.ok r := by
  induction n generalizing p with
  | zero => exact absurd hn (not_lt_zero _)
  | succ n ih =>
    rw [TfwStreamSched.getMostPrioLoop]
    cases hla : (s.active p).getLast? with
    | none => exact ⟨none,rfl⟩
    | some c =>
      have hm : c∈s.active p := mem_of_getLast? hla
      obtain ⟨hp,hb⟩ := (h.inv.linked.active p c (by simp)).1 hm
      simp only
      by_cases ha : s.isActive c=true
      · exact ⟨some c,if_pos ha⟩
      · rw [if_neg ha,if_pos (hb.resolve_left ha)]
        refine ih ?_
        -- `c` itself is below `p`, and so is all that is below `c`
        have hs : (c::below s.parent s.streams c) ⊆ below s.parent s.streams p := by
          intro x hx
          rw [mem_cons,mem_below] at hx
          rw [mem_below,above_iff_child]
          obtain heq | hx := hx
          · exact ⟨heq ▸ (h.inv.live c p hp).1,c,hp,.inl heq⟩
          · exact ⟨hx.1,c,hp,.inr hx.2⟩
        have hl := (subperm_of_subset (nodup_cons_below h.inv.acyclic h.inv.nodup c) hs).length_le
        rw [length_cons] at hl
        omega

lemma schedGetMostPrioStream : ∃r,s.schedGetMostPrioStream=.ok r := by
  refine h.getMostPrioLoop ?_
  have hl := length_below_le s.parent s.streams 0
  rw [fuel]
  omega

lemma step (hst : schedStep s op=some s') : s'.Valid := by
  rw [schedStep] at hst
  split_ifs at hst with ha
  obtain ⟨he,-⟩ | ⟨s1,hs1,hv⟩ := h.exec ha
  · rw [he] at hst
    cases hst
  · rw [hs1] at hst
    cases hst
    exact hv

lemma run {ops : List SchedOp} (hr : Run.run schedStep s ops=some s') : s'.Valid :=
  Run.run_invariant schedStep (P := Valid) (fun _ _ _ hs hst => hs.step hst) h hr

end TfwStreamSched.Valid

/-- In every state the counters are the numbers of active streams below, the lists are as the counters say. -/
theorem activity_counters {s₀ s : TfwStreamSched} {ops : List SchedOp} (h₀ : s₀.Valid)
    (hrun : Run.run schedStep s₀ ops=some s) :
    (∀p,s.activeCnt p=((below s.parent s.streams p).countP s.isActive : Int)) ∧ (∀c∈s.streams,∃p,s.parent c=some p ∧
      (∀q,c∈s.active q ↔ q=p ∧ (s.isActive c=true ∨ 0<s.activeCnt c)) ∧
      ∀q,c∈s.blocked q ↔ q=p ∧ ¬(s.isActive c=true ∨ 0<s.activeCnt c)) ∧
    (∀op : SchedOp,op.allowed s=true → op.exec s ≠ .error .bug ∧ op.exec s ≠ .error .fuel) ∧
    ∃stream,s.schedGetMostPrioStream=.ok stream := by
  have h := h₀.run hrun
  refine ⟨h.activeCnt_eq,?_,?_,h.schedGetMostPrioStream⟩
  · intro c hc
    obtain ⟨p,hp⟩ := h.placed c hc
    have hb : s.Busy c ↔ s.isActive c=true ∨ 0<s.activeCnt c := by
      have hn := h.inv.nonneg c
      rw [Busy]
      refine or_congr_right ⟨fun hcn => ?_,fun hcn => ?_⟩ <;> omega
    refine ⟨p,hp,?_,?_⟩
    · intro q
      rw [h.inv.linked.active q c (by simp),hp,hb,Option.some.injEq,eq_comm]
    · intro q
      rw [h.inv.linked.blocked q c (by simp),hp,hb,Option.some.injEq,eq_comm]
  · intro op ha
    obtain ⟨he,-⟩ | ⟨s',hs',-⟩ := h.exec ha
    · simp [he]
    · simp [hs']

/-- Stream 1 has two streams below it and gets under one of them. -/
theorem activity_counters_descendant : ∃s,Run.run schedStep {} [.create 1 {},.create 3 {streamId:=1},.activate 3,
        .create 5 {streamId:=1, exclusive:=true},.change 1 {streamId:=3, weight:=8}]=some s ∧
      s.active 0=[3] ∧ s.blocked 3=[1] ∧ s.activeCnt 0=((below s.parent s.streams 0).countP s.isActive : Int) := by
  have h : (Run.run schedStep {} [.create 1 {},.create 3 {streamId:=1},.activate 3,
      .create 5 {streamId:=1, exclusive:=true},.change 1 {streamId:=3, weight:=8}]).map
      (fun s => (s.active 0,s.blocked 3))=some ([3],[1]) := by
    decide +kernel
  obtain ⟨s,hs,hl⟩ := map_eq_some_iff.1 h
  rw [Prod.mk.injEq] at hl
  exact ⟨s,hs,hl.1,hl.2,(activity_counters TfwStreamSched.valid_empty hs).1 0⟩

/-- In every state the parents form a tree of all streams. -/
theorem priority_tree_shape {s₀ s : TfwStreamSched} {ops : List SchedOp} (h₀ : s₀.Valid)
    (hrun : Run.run schedStep s₀ ops=some s) : Acyclic s.parent ∧ s.parent 0=none ∧ s.streams.Nodup ∧
    (∀c,c∈s.streams ↔ Above s.parent 0 c) ∧ (∀p,(s.children p).Nodup ∧ ∀c,c∈s.children p ↔ s.parent c=some p) ∧
    ∀id pri,(SchedOp.change id pri).allowed s=true → ∃s',(SchedOp.change id pri).exec s=.ok s' ∧
        s'.parent id=some (s.findStreamDep pri.streamId) ∧
        (pri.exclusive=true → ∀c,c≠id → s.parent c=some (s.findStreamDep pri.streamId) → s'.parent c=some id) := by
  have h := h₀.run hrun
  refine ⟨h.inv.acyclic,h.inv.parent_zero,h.inv.nodup,h.above_root,?_,?_⟩
  · intro p
    exact ⟨(h.inv.linked.children p).nodup,(h.inv.linked.children p).mem⟩
  · intro id pri ha
    obtain ⟨s',hs',-,ht'⟩ := h.change ha
    refine ⟨s',hs',?_,?_⟩
    · rw [ht',changeDep]
      exact if_pos rfl
    · intro he c hc hp
      have hne : c≠s.findStreamDep pri.streamId := Ne.symm (h.inv.acyclic.parent_ne hp)
      rw [ht',changeDep]
      simp [hc,hne,he,hp]

/-- Stream 1 gets under stream 3, which depends on it, and takes stream 5 over from there. -/
theorem priority_tree_shape_exclusive :
    ∃s,Run.run schedStep {} [.create 1 {},.create 3 {streamId:=1},.create 5 {streamId:=3}]=some s ∧
      ∃s',(SchedOp.change 1 {streamId:=3, weight:=8, exclusive:=true}).exec s=.ok s' ∧
        s'.parent 1=some 3 ∧ s'.parent 5=some 1 := by
  have h : (Run.run schedStep {} [.create 1 {},.create 3 {streamId:=1},
      .create 5 {streamId:=3}]).map (fun s => (s.findStreamDep 3,s.parent 5,
        (SchedOp.change 1 {streamId:=3, weight:=8, exclusive:=true}).allowed s))=some (3,some 3,true) := by
    decide +kernel
  obtain ⟨s,hs,hv⟩ := map_eq_some_iff.1 h
  rw [Prod.mk.injEq,Prod.mk.injEq] at hv
  obtain ⟨hf,hp,ha⟩ := hv
  obtain ⟨-,-,-,-,-,hc⟩ := priority_tree_shape TfwStreamSched.valid_empty hs
  obtain ⟨s',hs',hse,he⟩ := hc 1 _ ha
  refine ⟨s,hs,s',hs',?_,?_⟩
  · rw [hse,hf]
  · exact he rfl 5 (by decide) (by rw [hp,hf])

/-- When the weight of a removed stream is divided among its children. -/
def TfwStreamSched.sharesWeight (s : TfwStreamSched) (id : Nat) : Bool :=
  let share := fun c => s.weight c*s.weight id/s.totalWeight id
  match s.parent id with
  | none => false
  | some parent =>
    if (s.children parent).all (· == id) then
      (s.children id).all fun c => share c == s.weight c
    else
      ((s.active id).isEmpty || (s.blocked id).isEmpty) &&
        (s.children id).all fun c => 0<share c && s.weight c*s.weight id<2^31

lemma shareOf_eq {weight removed total : Nat} (hpr : weight*removed<2^31)
    (hp : 0<weight*removed/total) (hlt : weight*removed/total<2^16) :
    shareOf weight removed total=weight*removed/total := by
  simp only [shareOf,if_pos hpr,mod_eq_of_lt hlt,if_pos hp]

lemma TfwStreamSched.Valid.removeStreamDep_shares {s : TfwStreamSched} {id : Nat} (h : s.Valid)
    (hid : id∈s.streams) (hs : s.sharesWeight id=true) : ∃s',s.removeStreamDep id=.ok s' ∧
      ∀c∈s.children id,s'.weight c=s.weight c*s.weight id/s.totalWeight id := by
  obtain ⟨p,hp⟩ := h.placed id hid
  obtain ⟨rescale,total,hres,ht,-,hok⟩ := h.inv.removeStreamDep hp
  have hch := (h.inv.linked.children id).mem
  simp only [TfwStreamSched.sharesWeight,hp] at hs
  by_cases hsi : (s.children p).all (· == id)=true
  · rw [if_pos hsi,List.all_eq_true] at hs
    have hr : rescale=false := by
      rw [eq_false_iff,Ne,hres]
      intro ⟨c,hc,hpc⟩
      have hse := List.all_eq_true.1 hsi c (((h.inv.linked.children p).mem c).2 hpc)
      exact hc (beq_iff_eq.1 hse)
    obtain ⟨s',hs',-,hre⟩ := hok (by simp [hr])
    refine ⟨s',hs',?_⟩
    intro c hc
    rw [hre.weight,if_neg (by simp [hr])]
    exact (beq_iff_eq.1 (hs c hc)).symm
  · rw [if_neg hsi,and_eq_true,List.all_eq_true,or_eq_true,List.isEmpty_iff,List.isEmpty_iff] at hs
    obtain ⟨hn,ha⟩ := hs
    have hr : rescale=true := by
      rw [hres]
      obtain ⟨c,hc,hne⟩ := all_eq_false.1 (eq_false_iff.2 hsi)
      exact ⟨c,fun heq => hne (beq_iff_eq.2 heq),((h.inv.linked.children p).mem c).1 hc⟩
    have hk : s.active id≠[] → total=s.totalWeight id := fun hne => ht (hn.resolve_left hne)
    obtain ⟨s',hs',-,hre⟩ := hok (by
      intro ⟨_,hne,h0⟩
      obtain ⟨c,hc⟩ := exists_mem_of_ne_nil _ hne
      refine h.inv.totalWeight_pos (by simp) (h.inv.linked.parent id c (mem_append_left _ hc)) ?_
      rw [← hk hne,h0])
    refine ⟨s',hs',?_⟩
    intro c hc
    have hpc := (hch c).1 hc
    have hd : (if s.Busy c then total else s.totalWeight id)=s.totalWeight id := by
      split_ifs with hbu
      · have hm : c∈s.active id := (h.inv.linked.active id c (by simp)).2 ⟨hpc,hbu⟩
        exact hk (ne_nil_of_mem hm)
      · rfl
    have hb := ha c hc
    rw [and_eq_true,decide_eq_true_eq,decide_eq_true_eq] at hb
    rw [hre.weight,if_pos ⟨hpc,hr⟩,hd]
    refine shareOf_eq hb.2 hb.1 ?_
    -- a share is at most the weight of the removed stream
    have hle : s.weight c ≤ s.totalWeight id := by
      rw [h.inv.weights id (mem_cons_of_mem _ hid) (by simp)]
      exact le_sum_of_mem (mem_map_of_mem hc)
    have hlt := (h.inv.bounds id hid).2
    have hdi := Nat.div_le_of_le_mul (Nat.mul_le_mul_right (s.weight id) hle)
    omega

/-- In every state the total weights are the sums of the weights of the children. -/
theorem priority_tree_weights {s₀ s : TfwStreamSched} {ops : List SchedOp} (h₀ : s₀.Valid)
    (hrun : Run.run schedStep s₀ ops=some s) : (∀p∈0::s.streams,s.totalWeight p=((s.children p).map s.weight).sum ∧
      (s.children p).Nodup ∧ ∀c,c∈s.children p ↔ s.parent c=some p) ∧ ∀id∈s.streams,s.sharesWeight id=true →
      ∃s',s.removeStreamDep id=.ok s' ∧ ∀c∈s.children id,
          s'.weight c=s.weight c*s.weight id/((s.children id).map s.weight).sum := by
  have h := h₀.run hrun
  refine ⟨?_,?_⟩
  · intro p hp
    exact ⟨h.inv.weights p hp (by simp),(h.inv.linked.children p).nodup,(h.inv.linked.children p).mem⟩
  · intro id hid hs
    rw [← h.inv.weights id (mem_cons_of_mem _ hid) (by simp)]
    exact h.removeStreamDep_shares hid hs

/-- Streams 3 and 5 divide the weight 4 of stream 1. -/
theorem priority_tree_weights_divided : ∃s,Run.run schedStep {} [.create 1 {weight:=4},.create 7 {},
        .create 3 {streamId:=1, weight:=8},.create 5 {streamId:=1, weight:=8}]=some s ∧
      s.totalWeight 1=16 ∧ s.sharesWeight 1=true ∧ ∃s',s.removeStreamDep 1=.ok s' ∧ ∀c∈s.children 1,
        s'.weight c=s.weight c*s.weight 1/((s.children 1).map s.weight).sum := by
  have h : (Run.run schedStep {} [.create 1 {weight:=4},.create 7 {},
      .create 3 {streamId:=1, weight:=8},.create 5 {streamId:=1, weight:=8}]).map
      (fun s => (s.totalWeight 1,s.sharesWeight 1,s.streams))=some (16,true,[5,3,7,1]) := by
    decide +kernel
  obtain ⟨s,hs,hv⟩ := map_eq_some_iff.1 h
  rw [Prod.mk.injEq,Prod.mk.injEq] at hv
  obtain ⟨ht,hsh,hst⟩ := hv
  exact ⟨s,hs,ht,hsh,(priority_tree_weights TfwStreamSched.valid_empty hs).2 1 (by simp [hst]) hsh⟩

/-- The first loop takes the new weight of stream 3 off. -/
theorem removal_divides_by_zero : ∃s,Run.run schedStep {} [.create 1 {weight:=4},.create 7 {},
        .create 3 {streamId:=1, weight:=1},.create 5 {streamId:=1, weight:=1},.activate 5]=some s ∧
      (SchedOp.stop 1).allowed s=true ∧ s.removeStreamDep 1=.error .divZero := by
  have h : (Run.run schedStep {} [.create 1 {weight:=4},.create 7 {},
      .create 3 {streamId:=1, weight:=1},.create 5 {streamId:=1, weight:=1},
      .activate 5]).map (fun s => ((SchedOp.stop 1).allowed s,match s.removeStreamDep 1 with
        | .error stop => some stop
        | .ok _ => none))=some (true,some .divZero) := by
    decide +kernel
  obtain ⟨s,hs,hv⟩ := map_eq_some_iff.1 h
  rw [Prod.mk.injEq] at hv
  refine ⟨s,hs,hv.1,?_⟩
  cases hr : s.removeStreamDep 1 with
  | error stop =>
    rw [hr] at hv
    exact congrArg Except.error (Option.some.inj hv.2)
  | ok s' =>
    rw [hr] at hv
    cases hv.2
end VetWaf.H2
