import Mathlib.Algebra.BigOperators.Group.List.Lemmas
import Mathlib.Tactic.Abel

namespace VetWaf.Forest
open Function List
variable {α : Type*} {parent : α → Option α} {a c p x : α}

/-- `a` is a proper ancestor of `x`. -/
def Above (parent : α → Option α) (a x : α) : Prop := Relation.TransGen (fun y z => parent y=some z) x a

lemma above_iff : Above parent a x ↔ ∃p,parent x=some p ∧ (p=a ∨ Above parent a p) := by
  constructor
  · intro h
    obtain ⟨p,hp,hpa⟩ := Relation.TransGen.head'_iff.1 h
    refine ⟨p,hp,?_⟩
    obtain rfl | ha := Relation.reflTransGen_iff_eq_or_transGen.1 hpa
    · exact .inl rfl
    · exact .inr ha
  · intro ⟨p,hp,h⟩
    obtain rfl | h := h
    · exact .single hp
    · exact .head hp h

lemma above_of_parent (h : parent x=some p) : Above parent p x := .single h

lemma not_above_of_parent_eq_none (h : parent x=none) : ¬Above parent a x := by
  intro ha
  obtain ⟨p,hp,-⟩ := above_iff.1 ha
  rw [h] at hp
  cases hp

lemma Above.trans {b : α} (ha : Above parent a b) (hb : Above parent b x) : Above parent a x :=
  Relation.TransGen.trans hb ha

/-- The ancestors of `x` depend only on the parents on the way up. -/
lemma above_congr {parent' : α → Option α} (h : ∀y,y=x ∨ Above parent y x → parent' y=parent y) :
    Above parent' a x ↔ Above parent a x := by
  have hn : ∀ {x y : α},(∀z,z=x ∨ Above parent z x → parent' z=parent z) →
      parent x=some y → ∀z,z=y ∨ Above parent z y → parent' z=parent z := by
    intro x y hx hxy z hz
    refine hx z (.inr ?_)
    obtain rfl | hz := hz
    · exact above_of_parent hxy
    · exact hz.trans (above_of_parent hxy)
  constructor
  · intro ha
    induction ha using Relation.TransGen.head_induction_on with
    | single hxa => exact .single ((h _ (.inl rfl)).symm.trans hxa)
    | head hxy _ ih =>
      have hxy := (h _ (.inl rfl)).symm.trans hxy
      exact .head hxy (ih (hn h hxy))
  · intro ha
    induction ha using Relation.TransGen.head_induction_on with
    | single hxa => exact .single ((h _ (.inl rfl)).trans hxa)
    | head hxy _ ih => exact .head ((h _ (.inl rfl)).trans hxy) (ih (hn h hxy))

/-- There is a depth that grows from parents to children. -/
def Acyclic (parent : α → Option α) : Prop := ∃depth : α → Nat,∀x p,parent x=some p → depth p<depth x

lemma Acyclic.not_above_self (h : Acyclic parent) : ¬Above parent x x := by
  obtain ⟨depth,hd⟩ := h
  have hlt : ∀a x,Above parent a x → depth a<depth x := by
    intro a x ha
    induction ha with
    | single hx => exact hd _ _ hx
    | tail _ hb ih => exact lt_trans (hd _ _ hb) ih
  intro ha
  exact lt_irrefl _ (hlt x x ha)

lemma Acyclic.parent_ne (h : Acyclic parent) (hp : parent x=some p) : p≠x := by
  intro heq
  exact h.not_above_self (above_of_parent (heq ▸ hp))

lemma Acyclic.not_above_parent (h : Acyclic parent) (hp : parent x=some p) : ¬(p=x ∨ Above parent x p) := by
  intro ho
  exact h.not_above_self (above_iff.2 ⟨p,hp,ho⟩)

/-- At most `n` nodes are met on the way up from `x`. -/
def Within (parent : α → Option α) : Nat → α → Prop
  | 0, _ => False
  | n+1, x => ∀p,parent x=some p → Within parent n p

section
variable [DecidableEq α] {l : List α}
lemma within_of_above (h : Acyclic parent) (hl : ∀a,Above parent a x → a∈l) : Within parent (l.length+1) x := by
  generalize hn : l.length=n
  induction n generalizing l x with
  | zero =>
    intro p hp
    have hm := hl p (above_of_parent hp)
    rw [length_eq_zero_iff.1 hn] at hm
    cases hm
  | succ n ih =>
    intro p hp
    have hm := hl p (above_of_parent hp)
    refine @ih p (l.erase p) ?_ ?_
    · intro a ha
      have hne : a≠p := by
        intro heq
        rw [heq] at ha
        exact h.not_above_self ha
      exact (mem_erase_of_ne hne).2 (hl a (ha.trans (above_of_parent hp)))
    · rw [length_erase_of_mem hm,hn,Nat.add_sub_cancel]

lemma Acyclic.within (h : Acyclic parent) (hl : ∀x p,parent x=some p → p∈l) (x : α) : Within parent (l.length+1) x := by
  refine within_of_above h ?_
  intro a ha
  cases ha with
  | single hx => exact hl _ _ hx
  | tail _ hb => exact hl _ _ hb

/-- A node that is not `c` and not below `c` has the same ancestors when `c` is moved. -/
lemma above_update {q : Option α} (hx : ¬(x=c ∨ Above parent c x)) :
    Above (update parent c q) a x ↔ Above parent a x := by
  refine above_congr ?_
  intro y hy
  refine update_of_ne ?_ _ _
  intro heq
  rw [heq] at hy
  exact hx (hy.imp Eq.symm fun h => h)

lemma above_of_update_none (h : Above (update parent c none) a x) : Above parent a x := by
  have hst : ∀ {x y : α},update parent c none x=some y → parent x=some y := by
    intro x y hx
    by_cases heq : x=c
    · rw [heq,update_self] at hx
      cases hx
    · rwa [update_of_ne heq] at hx
  exact Relation.TransGen.mono (fun _ _ => hst) _ _ h

lemma Acyclic.update_none (h : Acyclic parent) (c : α) : Acyclic (update parent c none) := by
  obtain ⟨depth,hd⟩ := h
  refine ⟨depth,?_⟩
  intro x p hp
  by_cases heq : x=c
  · rw [heq,update_self] at hp
    cases hp
  · rw [update_of_ne heq] at hp
    exact hd x p hp

/-- A node may be moved below any node that is not below itself. -/
lemma Acyclic.update_some (h : Acyclic parent) (hp : ¬(p=c ∨ Above parent c p)) :
    Acyclic (update parent c (some p)) := by
  classical
  obtain ⟨depth,hd⟩ := h
  refine ⟨fun x => if x=c ∨ Above parent c x then depth x+depth p+1 else depth x,?_⟩
  intro y z hyz
  by_cases heq : y=c
  · rw [heq,update_self] at hyz
    obtain rfl : p=z := Option.some.inj hyz
    simp only [heq,true_or,if_true,if_neg hp]
    omega
  · rw [update_of_ne heq] at hyz
    have hlt := hd y z hyz
    have hi : (y=c ∨ Above parent c y) ↔ (z=c ∨ Above parent c z) := by
      constructor
      · intro hy
        obtain ⟨w,hw,hz⟩ := above_iff.1 (hy.resolve_left heq)
        rw [hyz] at hw
        exact Option.some.inj hw ▸ hz
      · exact fun hz => .inr (above_iff.2 ⟨z,hyz,hz⟩)
    simp only [hi]
    split_ifs <;> omega

end

structure Children (parent : α → Option α) (p : α) (l : List α) : Prop where
  nodup : l.Nodup
  mem : ∀c,c∈l ↔ parent c=some p

namespace Children
variable {l l' : List α} {M : Type*} [AddCommMonoid M] (f : α → M)
lemma sum_eq (h : Children parent p l) (h' : Children parent p l') : (l.map f).sum=(l'.map f).sum := by
  have hp : l.Perm l' := by
    rw [perm_ext_iff_of_nodup h.nodup h'.nodup]
    exact fun c => (h.mem c).trans (h'.mem c).symm
  exact (hp.map f).sum_eq

variable [DecidableEq α] (h : Children parent p l)
include h
lemma sum_of_update_none (hc : parent c=some p)
    (h' : Children (update parent c none) p l') : (l.map f).sum=f c+(l'.map f).sum := by
  have hp : l.Perm (c::l') := by
    have hn : c∉l' := by
      intro hm
      have hno := (h'.mem c).1 hm
      rw [update_self] at hno
      cases hno
    rw [perm_ext_iff_of_nodup h.nodup (nodup_cons.2 ⟨hn,h'.nodup⟩)]
    intro a
    rw [h.mem,mem_cons,h'.mem]
    by_cases heq : a=c
    · simp [heq,hc]
    · simp [heq]
  rw [(hp.map f).sum_eq,map_cons,sum_cons]

lemma sum_of_update_some (hc : parent c=none)
    (h' : Children (update parent c (some p)) p l') : (l'.map f).sum=f c+(l.map f).sum := by
  refine h'.sum_of_update_none f (update_self ..) ?_
  rw [update_idem,← hc,update_eq_self]
  exact h

lemma sum_update (c : α) (v : M) : (l.map (update f c (v+f c))).sum =
      (l.map f).sum+if parent c=some p then v else 0 := by
  by_cases hc : parent c=some p
  · obtain ⟨pre,rest,rfl⟩ := append_of_mem ((h.mem c).2 hc)
    obtain ⟨-,hr,hp⟩ := nodup_append.1 h.nodup
    have hk : ∀l' : List α,c∉l' → l'.map (update f c (v+f c))=l'.map f := by
      intro l' hl'
      apply map_congr_left
      intro a ha
      refine update_of_ne ?_ _ _
      intro heq
      exact hl' (heq ▸ ha)
    rw [if_pos hc,map_append,map_append,map_cons,map_cons,hk pre fun hm => hp c hm c mem_cons_self rfl,
      hk rest (nodup_cons.1 hr).1,update_self]
    simp only [sum_append,sum_cons]
    abel
  · rw [if_neg hc,add_zero]
    congr 1
    apply map_congr_left
    intro a ha
    refine update_of_ne ?_ _ _
    intro heq
    exact hc (heq ▸ (h.mem a).1 ha)

lemma update_of_ne {q : Option α} (hc : parent c≠some p) (hq : q≠some p) : Children (update parent c q) p l := by
  refine ⟨h.nodup,?_⟩
  intro a
  rw [h.mem]
  by_cases heq : a=c
  · simp [heq,hc,hq]
  · simp [heq]

end Children

lemma above_iff_child : Above parent p x ↔ ∃c,parent c=some p ∧ (x=c ∨ Above parent c x) := by
  constructor
  · intro h
    obtain ⟨c,hx,hc⟩ := Relation.TransGen.tail'_iff.1 h
    refine ⟨c,hc,?_⟩
    obtain rfl | ha := Relation.reflTransGen_iff_eq_or_transGen.1 hx
    · exact .inl rfl
    · exact .inr ha
  · intro ⟨c,hc,h⟩
    obtain rfl | h := h
    · exact .single hc
    · exact .tail h hc

lemma Acyclic.child_unique {c' : α} (h : Acyclic parent) (hc : parent c=some p)
    (hc' : parent c'=some p) (hx : x=c ∨ Above parent c x) (hx' : x=c' ∨ Above parent c' x) : c=c' := by
  have hp : ∀ {c},x=c ∨ Above parent c x → Relation.ReflTransGen (fun y z => parent y=some z) x c := by
    intro c hx
    exact Relation.reflTransGen_iff_eq_or_transGen.2 (hx.imp_left Eq.symm)
  have hf : Relator.RightUnique fun y z => parent y=some z := by
    intro y z z' hz hz'
    exact Option.some.inj (hz.symm.trans hz')
  -- of two siblings none is above the other
  have hs : ∀ {c c'},parent c=some p → parent c'=some p →
      Relation.ReflTransGen (fun y z => parent y=some z) c c' → c=c' := by
    intro c c' hc hc' hcc'
    obtain heq | ha := Relation.reflTransGen_iff_eq_or_transGen.1 hcc'
    · exact heq.symm
    · obtain ⟨q,hq,ho⟩ := above_iff.1 ha
      rw [hc,Option.some.injEq] at hq
      exact absurd (hq ▸ ho) (h.not_above_parent hc')
  obtain hcc' | hcc' := Relation.ReflTransGen.total_of_right_unique hf (hp hx) (hp hx')
  · exact hs hc hc' hcc'
  · exact (hs hc' hc hcc').symm

open Classical in
/-- The nodes of `l` below `p` -/
noncomputable def below (parent : α → Option α) (l : List α) (p : α) : List α := l.filter fun x => Above parent p x

section
variable {l ch : List α}
lemma mem_below : x∈below parent l p ↔ x∈l ∧ Above parent p x := by simp [below]

lemma length_below_le (parent : α → Option α) (l : List α) (p : α) :
    (below parent l p).length≤l.length := length_filter_le ..

lemma nodup_below (hl : l.Nodup) (p : α) : (below parent l p).Nodup := hl.filter _

variable (h : Acyclic parent)
include h
lemma nodup_cons_below (hl : l.Nodup) (c : α) : (c::below parent l c).Nodup := by
  refine nodup_cons.2 ⟨?_,nodup_below hl c⟩
  intro hc
  exact h.not_above_self (mem_below.1 hc).2

lemma perm_below (hl : l.Nodup) (hm : ∀c p,parent c=some p → c∈l)
    (hch : Children parent p ch) : (below parent l p).Perm (ch.flatMap fun c => c::below parent l c) := by
  have hd : ch.Pairwise fun c c' => List.Disjoint (c::below parent l c) (c'::below parent l c') := by
    refine hch.nodup.imp_of_mem ?_
    intro c c' hc hc' hne x hx hx'
    rw [mem_cons,mem_below] at hx hx'
    exact hne (h.child_unique ((hch.mem c).1 hc) ((hch.mem c').1 hc') (hx.imp_right And.right)
      (hx'.imp_right And.right))
  rw [perm_ext_iff_of_nodup (nodup_below hl p) (nodup_flatMap.2 ⟨fun c _ => nodup_cons_below h hl c,hd⟩)]
  intro x
  rw [mem_below,mem_flatMap,above_iff_child]
  constructor
  · intro ⟨hx,c,hc,ho⟩
    refine ⟨c,(hch.mem c).2 hc,?_⟩
    rw [mem_cons,mem_below]
    exact ho.imp_right fun ha => ⟨hx,ha⟩
  · intro ⟨c,hc,hx⟩
    have hc := (hch.mem c).1 hc
    rw [mem_cons,mem_below] at hx
    obtain heq | hx := hx
    · exact ⟨heq ▸ hm c p hc,c,hc,.inl heq⟩
    · exact ⟨hx.1,c,hc,.inr hx.2⟩

/-- What adds up over the children adds up over all that is below. -/
lemma eq_sum_below {M : Type*} [AddCommMonoid M] {children : α → List α} {w g : α → M}
    (hl : l.Nodup) (hm : ∀c p,parent c=some p → c∈l) (hch : ∀p,Children parent p (children p))
    (hg : ∀p,g p=((children p).map fun c => w c+g c).sum) (p : α) : g p=((below parent l p).map w).sum := by
  generalize hn : (below parent l p).length=n
  induction n using Nat.strong_induction_on generalizing p with
  | _ n ih =>
    have hp := perm_below h hl hm (hch p)
    have hsu : ∀cs : List α,(∀c∈cs,g c=((below parent l c).map w).sum) → (cs.map fun c => w c+g c).sum =
          ((cs.flatMap fun c => c::below parent l c).map w).sum := by
      intro cs hcs
      induction cs with
      | nil => rfl
      | cons c cs ihcs =>
        have hc := hcs c (.head _)
        have hr := ihcs fun c hc => hcs c (.tail _ hc)
        simp [hc,hr,add_assoc]
    rw [hg p,(hp.map w).sum_eq]
    refine hsu (children p) ?_
    intro c hc
    refine ih (below parent l c).length ?_ c rfl
    have hs : (c::below parent l c) ⊆ (children p).flatMap fun c => c::below parent l c :=
      fun x hx => mem_flatMap.2 ⟨c,hc,hx⟩
    rw [← hn,hp.length_eq]
    exact (subperm_of_subset (nodup_cons_below h hl c) hs).length_le
end
end VetWaf.Forest
