import VetWaf.H2.SchedRun

namespace VetWaf.H2
open List Function Outcome
namespace TfwStreamSched

/-- `y` is served before `x`. -/
def Prior (s : TfwStreamSched) (x y : Nat) : Prop := s.weight x<s.weight y ∨ s.weight x=s.weight y ∧ y<x

lemma sorted_insertByWeight (s : TfwStreamSched) {head : List Nat} {id : Nat} (hid : id∉head)
    (h : head.Pairwise s.Prior) : (s.insertByWeight head id).Pairwise s.Prior := by
  rw [insertByWeight,pairwise_reverse]
  rw [← reverse_reverse head,pairwise_reverse] at h
  rw [← mem_reverse] at hid
  generalize head.reverse=l at h hid ⊢
  induction l with
  | nil => exact pairwise_singleton ..
  | cons pos prev ih =>
    obtain ⟨hp,hpr⟩ := pairwise_cons.1 h
    rw [mem_cons,not_or] at hid
    rw [insertBackwardsByWeight]
    split_ifs with hpl
    · refine pairwise_cons.2 ⟨fun x hx => ?_,h⟩
      obtain rfl | hx := mem_cons.1 hx
      · exact hpl
      · have hlt := hp x hx
        unfold Prior at hlt ⊢
        omega
    · refine pairwise_cons.2 ⟨fun x hx => ?_,ih hpr hid.2⟩
      obtain rfl | hx := mem_cons.1 ((perm_insertBackwardsByWeight s id prev).mem_iff.1 hx)
      · have hne := hid.1
        unfold Prior
        omega
      · exact hp x hx

/-- The lists of active nodes are in the order of `Prior`, and hold only children. -/
structure Ordered (s : TfwStreamSched) : Prop where
  sorted : ∀p,(s.active p).Pairwise s.Prior
  parent : ∀p c,c∈s.active p → s.parent c=some p

variable {s s' : TfwStreamSched} {id p n : Nat} {cnt : Int}

/-- The order is there afterwards, and the parents are as they were. -/
structure Kept (s s' : TfwStreamSched) : Prop where
  ordered : s'.Ordered
  parent : s'.parent=s.parent

lemma Kept.trans {t : TfwStreamSched} (h : Kept s s') (h' : Kept s' t) : Kept s t :=
  ⟨h'.ordered,h'.parent.trans h.parent⟩

namespace Ordered
variable (h : s.Ordered)
include h
lemma nodup (p : Nat) : (s.active p).Nodup := by
  refine (h.sorted p).imp fun hxy heq => ?_
  subst heq
  unfold Prior at hxy
  omega

lemma not_mem (hid : s.parent id=none) (p : Nat) : id∉s.active p := by
  intro hm
  have hp := h.parent p id hm
  rw [hid] at hp
  cases hp

/-- Nodes may leave the lists, and a node that is in none of them may get another weight and another parent. -/
lemma sublist (id : Nat) (hl : ∀q,s'.active q<+s.active q) (hid : ∀q,id∉s'.active q)
    (hw : ∀c,c≠id → s'.weight c=s.weight c) (hp : ∀c,c≠id → s'.parent c=s.parent c) : s'.Ordered := by
  have hne : ∀q,∀c∈s'.active q,c≠id := by
    rintro q c hc rfl
    exact hid q hc
  refine ⟨fun q => ?_,fun q c hc => ?_⟩
  · refine ((h.sorted q).sublist (hl q)).imp_of_mem fun ha hb hab => ?_
    rwa [Prior,hw _ (hne q _ ha),hw _ (hne q _ hb)]
  · rw [hp c (hne q c hc)]
    exact h.parent q c ((hl q).subset hc)

lemma kept (hl : ∀q,s'.active q<+s.active q) (hw : s'.weight=s.weight) (hp : s'.parent=s.parent) : Kept s s' := by
  refine ⟨⟨fun q => ?_,fun q c hc => ?_⟩,hp⟩
  · refine ((h.sorted q).sublist (hl q)).imp fun hab => ?_
    rwa [Prior,hw]
  · rw [hp]
    exact h.parent q c ((hl q).subset hc)

lemma insertActive (hok : s.insertActive id=.ok s') : Kept s s' := by
  rw [TfwStreamSched.insertActive] at hok
  cases hp : s.parent id with
  | none =>
    rw [hp] at hok
    cases hok
  | some p =>
    simp only [hp,listDelInit,update_self,update_idem] at hok
    split_ifs at hok
    cases hok
    have hn := (h.nodup p).not_mem_erase (a := id)
    refine ⟨⟨fun q => ?_,fun q c hc => ?_⟩,rfl⟩
    · by_cases hq : q=p
      · simp only [hq,update_self]
        exact @sorted_insertByWeight
          {s with
            active:=update s.active p ((s.active p).erase id)
            blocked:=update s.blocked p ((s.blocked p).erase id)} _ id hn ((h.sorted p).sublist erase_sublist)
      · simp only [update_of_ne hq]
        exact h.sorted q
    · by_cases hq : q=p
      · simp only [hq,update_self] at hc ⊢
        obtain rfl | hc := mem_cons.1 ((perm_insertByWeight _ _ _).mem_iff.1 hc)
        · exact hp
        · exact h.parent p c (mem_of_mem_erase hc)
      · simp only [update_of_ne hq] at hc
        exact h.parent q c hc

lemma insertBlocked (hok : s.insertBlocked id=.ok s') : Kept s s' := by
  rw [TfwStreamSched.insertBlocked] at hok
  cases hp : s.parent id with
  | none =>
    rw [hp] at hok
    cases hok
  | some p =>
    simp only [hp,listDelInit] at hok
    split_ifs at hok
    cases hok
    refine h.kept (fun q => ?_) rfl rfl
    by_cases hq : q=p
    · simp only [hq,update_self]
      exact erase_sublist
    · simp only [update_of_ne hq]
      exact Sublist.refl _

lemma propagateAddLoop (hok : propagateAddLoop cnt n s p=.ok s') : Kept s s' := by
  induction n generalizing s p with
  | zero => cases hok
  | succ n ih =>
    have ha : Kept s (s.addActiveCnt p cnt) := h.kept (fun _ => .refl _) rfl rfl
    rw [TfwStreamSched.propagateAddLoop] at hok
    split at hok
    · cases hok
      exact ha
    · split at hok
      · cases hok
        exact ha
      · split_ifs at hok
        · exact ha.trans (ih ha.ordered hok)
        · obtain ⟨s1,h1,hok⟩ := bind_eq_ok.1 hok
          have h1 := ha.ordered.insertActive h1
          exact ha.trans (h1.trans (ih h1.ordered hok))

lemma propagateDecLoop (hok : propagateDecLoop cnt n s p=.ok s') : Kept s s' := by
  induction n generalizing s p with
  | zero => cases hok
  | succ n ih =>
    have ha : Kept s (s.addActiveCnt p (-cnt)) := h.kept (fun _ => .refl _) rfl rfl
    rw [TfwStreamSched.propagateDecLoop] at hok
    split at hok
    · cases hok
      exact ha
    · split at hok
      · cases hok
        exact ha
      · split_ifs at hok
        · exact ha.trans (ih ha.ordered hok)
        · obtain ⟨s1,h1,hok⟩ := bind_eq_ok.1 hok
          have h1 := ha.ordered.insertBlocked h1
          exact ha.trans (h1.trans (ih h1.ordered hok))

/-- A node can get a new weight just before it is taken out of its list. -/
lemma schedUnlink {weight : Nat → Nat} (hw : ∀c,c≠id → weight c=s.weight c)
    (hok : TfwStreamSched.schedUnlink {s with weight} id=.ok s') :
    s'.Ordered ∧ s.parent id≠none ∧ s'.parent=update s.parent id none := by
  rw [TfwStreamSched.schedUnlink] at hok
  cases hp : s.parent id with
  | none =>
    simp only [hp] at hok
    cases hok
  | some p =>
    simp only [hp,listDelInit] at hok
    cases hok
    refine ⟨h.sublist id (fun q => ?_) (fun q => ?_) hw fun c hc => update_of_ne hc ..,by simp,rfl⟩
    · by_cases hq : q=p
      · simp only [hq,update_self]
        exact erase_sublist
      · simp only [update_of_ne hq]
        exact Sublist.refl _
    · by_cases hq : q=p
      · simp only [hq,update_self]
        exact (h.nodup p).not_mem_erase
      · simp only [update_of_ne hq]
        intro hm
        have hq' := h.parent q id hm
        rw [hp] at hq'
        exact hq (Option.some.inj hq').symm

lemma schedLink (hid : s.parent id=none) (hok : s.schedLink id p=.ok s') :
    s'.Ordered ∧ s'.parent=update s.parent id (some p) := by
  have hl : TfwStreamSched.Ordered {s with
      totalWeight:=update s.totalWeight p (s.totalWeight p+s.weight id)
      parent:=update s.parent id (some p)} :=
    h.sublist id (fun _ => .refl _) (h.not_mem hid) (fun _ _ => rfl) fun c hc => update_of_ne hc ..
  rw [TfwStreamSched.schedLink] at hok
  simp only at hok
  split_ifs at hok
  · exact ⟨(hl.insertActive hok).ordered,(hl.insertActive hok).parent⟩
  · exact ⟨(hl.insertBlocked hok).ordered,(hl.insertBlocked hok).parent⟩

lemma schedRemove (hok : s.schedRemove id=.ok s') :
    s'.Ordered ∧ s.parent id≠none ∧ s'.parent=update s.parent id none := by
  rw [TfwStreamSched.schedRemove] at hok
  split at hok
  · cases hok
  · obtain ⟨s1,h1,hok⟩ := bind_eq_ok.1 hok
    obtain ⟨ho,hne,hp⟩ := h.schedUnlink (fun _ _ => rfl) h1
    split_ifs at hok
    · cases hok
      exact ⟨ho,hne,hp⟩
    · have hk := ho.propagateDecLoop hok
      exact ⟨hk.ordered,hne,hk.parent.trans hp⟩

lemma schedEnqueue (hid : s.parent id=none) (hok : s.schedEnqueue id p=.ok s') :
    s'.Ordered ∧ s'.parent=update s.parent id (some p) := by
  obtain ⟨s1,h1,hok⟩ := bind_eq_ok.1 hok
  obtain ⟨ho,hp⟩ := h.schedLink hid h1
  rw [TfwStreamSched.propagateAddActiveCnt] at hok
  split_ifs at hok
  · cases hok
    exact ⟨ho,hp⟩
  · have hk := ho.propagateAddLoop hok
    exact ⟨hk.ordered,hk.parent.trans hp⟩

lemma schedReinsert {weight : Nat → Nat} (hw : ∀c,c≠id → weight c=s.weight c)
    (hok : TfwStreamSched.schedReinsert {s with weight} id p=.ok s') : s'.Ordered := by
  obtain ⟨s1,h1,hok⟩ := bind_eq_ok.1 hok
  obtain ⟨ho,-,hp⟩ := h.schedUnlink hw h1
  exact (ho.schedLink (by rw [hp,update_self]) hok).1

lemma takeChildren {head : TfwStreamSched → Nat → List Nat} {dep : Nat} (hid : s.parent id=none)
    (hok : takeChildren head dep id n s=.ok s') : s'.Ordered ∧ s'.parent id=none := by
  induction n generalizing s with
  | zero => cases hok
  | succ n ih =>
    rw [TfwStreamSched.takeChildren] at hok
    split at hok
    · cases hok
      exact ⟨h,hid⟩
    · rename_i child _ _
      obtain ⟨s1,h1,hok⟩ := bind_eq_ok.1 hok
      obtain ⟨s2,h2,hok⟩ := bind_eq_ok.1 hok
      obtain ⟨ho1,hne,hp1⟩ := h.schedRemove h1
      obtain ⟨ho2,hp2⟩ := ho1.schedEnqueue (by rw [hp1,update_self]) h2
      refine ih ho2 ?_ hok
      have hc : id≠child := by
        rintro rfl
        exact hne hid
      rw [hp2,hp1,update_of_ne hc,update_of_ne hc,hid]

lemma addStreamDep {excl : Bool} (hid : s.parent id=none) (hok : s.addStreamDep id p excl=.ok s') : s'.Ordered := by
  rw [TfwStreamSched.addStreamDep] at hok
  split_ifs at hok
  · exact (h.schedEnqueue hid hok).1
  · obtain ⟨s1,h1,hok⟩ := bind_eq_ok.1 hok
    obtain ⟨s2,h2,hok⟩ := bind_eq_ok.1 hok
    obtain ⟨ho1,hid1⟩ := h.takeChildren hid h1
    obtain ⟨ho2,hid2⟩ := ho1.takeChildren hid1 h2
    split_ifs at hok
    exact (ho2.schedEnqueue hid2 hok).1

lemma setWeight (hid : s.parent id=none) (weight : Nat) : (s.setWeight id weight).Ordered :=
  h.sublist id (fun _ => .refl _) (h.not_mem hid) (fun _ hc => update_of_ne hc ..) fun _ _ => rfl

lemma moveChildrenLoop {head : TfwStreamSched → Nat → List Nat} {total : Nat} {rescale : Bool}
    (hok : moveChildrenLoop head id p total rescale n s=.ok s') : s'.Ordered := by
  induction n generalizing s with
  | zero => cases hok
  | succ n ih =>
    rw [TfwStreamSched.moveChildrenLoop] at hok
    split at hok
    · cases hok
      exact h
    · split_ifs at hok
      · obtain ⟨s1,h1,hok⟩ := bind_eq_ok.1 hok
        exact ih (h.schedReinsert (fun _ hc => update_of_ne hc ..) h1) hok
      · obtain ⟨s1,h1,hok⟩ := bind_eq_ok.1 hok
        exact ih (h.schedReinsert (fun _ _ => rfl) h1) hok

lemma removeStreamDep (hok : s.removeStreamDep id=.ok s') : s'.Ordered := by
  rw [TfwStreamSched.removeStreamDep] at hok
  split at hok
  · cases hok
  · obtain ⟨s1,h1,hok⟩ := bind_eq_ok.1 hok
    obtain ⟨s2,h2,hok⟩ := bind_eq_ok.1 hok
    obtain ⟨s3,h3,hok⟩ := bind_eq_ok.1 hok
    have ho1 := (h.schedUnlink (fun _ _ => rfl) h1).1
    have ho1' : TfwStreamSched.Ordered {s1 with activeCnt:=update s1.activeCnt id 0} := ⟨ho1.sorted,ho1.parent⟩
    have ho3 := (ho1'.moveChildrenLoop h2).moveChildrenLoop h3
    split_ifs at hok
    · exact (ho3.propagateDecLoop hok).ordered
    · cases hok
      exact ho3

lemma changeStreamDep {newDep newWeight : Nat} {excl : Bool}
    (hok : s.changeStreamDep id newDep newWeight excl=.ok s') : s'.Ordered := by
  rw [TfwStreamSched.changeStreamDep] at hok
  split at hok
  · cases hok
  · obtain ⟨depends,-,hok⟩ := bind_eq_ok.1 hok
    split_ifs at hok
    · obtain ⟨s1,h1,hok⟩ := bind_eq_ok.1 hok
      obtain ⟨s2,h2,hok⟩ := bind_eq_ok.1 hok
      obtain ⟨s3,h3,hok⟩ := bind_eq_ok.1 hok
      obtain ⟨ho1,-,hp1⟩ := h.schedRemove h1
      obtain ⟨ho2,hne,hp2⟩ := ho1.schedRemove h2
      have hc : id≠s.findStreamDep newDep := by
        intro hc
        rw [hp1,hc,update_self] at hne
        exact hne rfl
      have hid : s2.parent id=none := by rw [hp2,update_self]
      have hnp : s2.parent (s.findStreamDep newDep)=none := by rw [hp2,update_of_ne hc.symm,hp1,update_self]
      obtain ⟨ho3,hp3⟩ := (ho2.setWeight hid newWeight).schedEnqueue hnp h3
      exact ho3.addStreamDep (by rw [hp3,update_of_ne hc]; exact hid) hok
    · obtain ⟨s1,h1,hok⟩ := bind_eq_ok.1 hok
      obtain ⟨ho1,-,hp1⟩ := h.schedRemove h1
      have hid : s1.parent id=none := by rw [hp1,update_self]
      exact (ho1.setWeight hid newWeight).addStreamDep hid hok

lemma schedActivateStream (hok : s.schedActivateStream id=.ok s') : s'.Ordered := by
  have ha : TfwStreamSched.Ordered {s with isActive:=update s.isActive id true} := ⟨h.sorted,h.parent⟩
  rw [TfwStreamSched.schedActivateStream] at hok
  simp only at hok
  split at hok
  · cases hok
  · split_ifs at hok
    · obtain ⟨s1,h1,hok⟩ := bind_eq_ok.1 hok
      exact ((ha.insertActive h1).ordered.propagateAddLoop hok).ordered
    · exact (ha.propagateAddLoop hok).ordered

lemma schedDeactivateStream (hok : s.schedDeactivateStream id=.ok s') : s'.Ordered := by
  have ha : TfwStreamSched.Ordered {s with isActive:=update s.isActive id false} := ⟨h.sorted,h.parent⟩
  rw [TfwStreamSched.schedDeactivateStream] at hok
  simp only at hok
  split at hok
  · cases hok
  · split_ifs at hok
    · obtain ⟨s1,h1,hok⟩ := bind_eq_ok.1 hok
      exact ((ha.insertBlocked h1).ordered.propagateDecLoop hok).ordered
    · exact (ha.propagateDecLoop hok).ordered

lemma initStream (hid : s.parent id=none) (weight : Nat) : (s.initStream id weight).Ordered := by
  refine h.sublist id (fun q => ?_) (fun q hq => ?_) (fun _ hc => update_of_ne hc ..) fun _ hc => update_of_ne hc ..
  · change update s.active id [] q<+_
    by_cases hq : q=id
    · rw [hq,update_self]
      exact nil_sublist _
    · rw [update_of_ne hq]
  · change id∈update s.active id [] q at hq
    by_cases hq' : q=id
    · rw [hq',update_self] at hq
      cases hq
    · rw [update_of_ne hq'] at hq
      exact h.not_mem hid q hq

end Ordered

/-- The invariant of the scheduler with the order of its lists -/
structure Sorted (s : TfwStreamSched) : Prop where
  valid : s.Valid
  sorted : ∀p,(s.active p).Pairwise s.Prior

lemma sorted_empty : TfwStreamSched.Sorted {} := ⟨valid_empty,fun _ => .nil⟩

lemma Sorted.ordered (h : s.Sorted) : s.Ordered :=
  ⟨h.sorted,fun p c hc => h.valid.inv.linked.parent p c (mem_append_left _ hc)⟩

lemma Ordered.exec (h : s.Ordered) (hv : s.Valid) {op : SchedOp} (ha : op.allowed s=true) (hok : op.exec s=.ok s') :
    s'.Ordered := by
  cases op with
  | create id pri =>
    have hid : s.parent id=none := hv.inv.parent_eq_none (by
      simp only [SchedOp.allowed,Bool.and_eq_true,Bool.not_eq_true',contains_eq_mem,decide_eq_false_iff_not] at ha
      exact ha.1.2)
    exact (h.initStream hid pri.weight).addStreamDep (update_self ..) hok
  | change id pri => exact h.changeStreamDep hok
  | stop id =>
    obtain ⟨s1,h1,hok⟩ := bind_eq_ok.1 hok
    cases hok
    have ho := h.removeStreamDep h1
    exact ⟨ho.sorted,ho.parent⟩
  | activate id => exact h.schedActivateStream hok
  | deactivate id => exact h.schedDeactivateStream hok
  | reinsert id =>
    rw [SchedOp.exec] at hok
    split at hok
    · cases hok
    · exact h.schedReinsert (fun _ _ => rfl) hok

lemma Sorted.step (h : s.Sorted) {op : SchedOp} (hst : schedStep s op=some s') : s'.Sorted := by
  refine ⟨h.valid.step hst,?_⟩
  unfold schedStep at hst
  split_ifs at hst with ha
  exact (h.ordered.exec h.valid ha (toOption_eq_some.1 hst)).sorted

lemma Sorted.run (h : s.Sorted) {ops : List SchedOp} (hr : Run.run schedStep s ops=some s') : s'.Sorted :=
  Run.run_invariant schedStep (P := Sorted) (fun _ _ _ hs hst => hs.step hst) h hr

end TfwStreamSched
end VetWaf.H2
