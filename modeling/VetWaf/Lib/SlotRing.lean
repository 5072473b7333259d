import Mathlib

namespace VetWaf.SlotRing
open List Function Nat
variable {κ : Type*} [DecidableEq κ] {n m now c : Nat} {ts ts' : Nat → Nat} {cnt cnt' : Nat → κ → Nat}
  {log : List (Nat×κ)}

/-- The slots count the events of the log. -/
structure Counts (n m : Nat) (ts : Nat → Nat) (cnt : Nat → κ → Nat) (now : Nat)
    (log : List (Nat×κ)) : Prop where
  stamp : ∀j<n,ts j≤now ∧ (ts j%n=j ∨ ts j=0)
  latest : ∀e∈log,e.1≤ts (e.1%n)
  cnt : ∀j<n,∀k,cnt j k=log.countP (fun e => e.1=ts j ∧ e.1%n=j ∧ e.2=k)%m

namespace Counts

lemma empty (n m : Nat) : Counts n m (fun _ => 0) (fun _ (_ : κ) => 0) 0 [] := by
  refine ⟨fun j _ => ⟨le_rfl,.inr rfl⟩,?_,fun j _ k => (zero_mod m).symm⟩
  intro e he
  cases he

lemma mono (h : Counts n m ts cnt now log) (hc : now≤c) : Counts n m ts cnt c log :=
  ⟨fun j hj => ⟨(h.stamp j hj).1.trans hc,(h.stamp j hj).2⟩,h.latest,h.cnt⟩

/-- Slot `c % n` is taken for quantum `c`, and emptied unless it belongs to `c` already. -/
lemma take (h : Counts n m ts cnt now log) (hn : 0<n) (hc : now≤c) (ht : ts'=update ts (c%n) c)
    (hcn : ∀j k,cnt' j k=if j=c%n ∧ ts j≠c then 0 else cnt j k) : Counts n m ts' cnt' c log := by
  have hi : c%n<n := mod_lt _ hn
  have hs : ts' (c%n)=c := by rw [ht,update_self]
  have ho : ∀j,j≠c%n → ts' j=ts j := by
    intro j hj
    rw [ht,update_of_ne hj]
  refine ⟨?_,?_,?_⟩
  · intro j hj
    by_cases hji : j=c%n
    · rw [hji,hs]
      exact ⟨le_rfl,.inl rfl⟩
    · rw [ho j hji]
      exact ⟨(h.stamp j hj).1.trans hc,(h.stamp j hj).2⟩
  · intro e he
    have hle := h.latest e he
    by_cases hji : e.1%n=c%n
    · rw [hji] at hle ⊢
      rw [hs]
      exact hle.trans ((h.stamp _ hi).1.trans hc)
    · rw [ho _ hji]
      exact hle
  · intro j hj k
    rw [hcn,h.cnt j hj k]
    by_cases hji : j=c%n
    · by_cases hsa : ts j=c
      · rw [if_neg (by simp [hsa]),hji,hs,← hji,hsa]
      · -- what the slot counted is of an earlier quantum, and nothing has the quantum `c` yet
        rw [if_pos ⟨hji,hsa⟩,countP_eq_zero.2 ?_,zero_mod]
        intro e he hm
        rw [hji,hs] at hm
        simp only [decide_eq_true_eq] at hm
        have hle := h.latest e he
        have hst := (h.stamp j hj).1
        rw [hm.2.1,← hji,hm.1] at hle
        omega
    · rw [if_neg (fun hco => hji hco.1),ho j hji]

variable (h : Counts n m ts cnt c log)
include h

/-- An event of kind `k` is counted in the slot of the current quantum. -/
lemma count (hs : ts (c%n)=c) {k : κ} (hc : ∀j k',cnt' j k'=if j=c%n ∧ k'=k then (cnt j k'+1)%m else cnt j k') :
    Counts n m ts cnt' c (log++[(c,k)]) := by
  refine ⟨h.stamp,?_,?_⟩
  · intro e he
    obtain he | he := mem_append.1 he
    · exact h.latest e he
    · rw [mem_singleton.1 he,hs]
  · intro j hj k'
    rw [hc,h.cnt j hj k',countP_append,countP_singleton]
    by_cases hji : j=c%n
    · by_cases hk : k'=k
      · simp [hji,hs,hk]
      · simp [hji,hk,Ne.symm hk]
    · have hne : ¬(c=ts j ∧ c%n=j ∧ k=k') := fun hm => hji hm.2.1.symm
      simp [hji,hne]

variable (hn : 0<n)
include hn
lemma cnt_self (hs : ts (c%n)=c) (k : κ) : cnt (c%n) k=log.countP (fun e => e.1=c ∧ e.2=k)%m := by
  rw [h.cnt _ (mod_lt _ hn),hs]
  refine congrArg (· % m) (countP_congr fun e _ => ?_)
  simp only [decide_eq_true_eq]
  exact ⟨fun hm => ⟨hm.1,hm.2.2⟩,fun hm => ⟨hm.1,by rw [hm.1],hm.2⟩⟩

/-- One event is counted by the slot of its quantum, if that is one of the last `n`. -/
lemma sum_event (k : κ) {e : Nat×κ} (he : e.1≤ts (e.1%n)) : ((range n).map fun j =>
        if c<ts j+n ∧ e.1=ts j ∧ e.1%n=j ∧ e.2=k then 1 else 0).sum =
      if c<e.1+n ∧ e.2=k then 1 else 0 := by
  have hi : e.1%n<n := mod_lt _ hn
  rw [sum_map_eq_nsmul_single (e.1%n),count_eq_one_of_mem nodup_range (mem_range.2 hi),one_nsmul]
  · by_cases hc : c<e.1+n
    · -- between `e.1` and `c` no other quantum has the slot
      have hs : e.1=ts (e.1%n) := by
        obtain ⟨hle,hmo | h0⟩ := h.stamp _ hi
        · have hd := dvd_of_mod_eq_zero (sub_mod_eq_zero_of_mod_eq hmo)
          have h0 := eq_zero_of_dvd_of_lt hd (by omega)
          omega
        · omega
      simp [hc,← hs]
    · have hne : ¬(c<ts (e.1%n)+n ∧ e.1=ts (e.1%n) ∧ e.1%n=e.1%n ∧ e.2=k) := by
        intro hm
        omega
      rw [if_neg hne,if_neg (fun hm => hc hm.1)]
  · intro j hj _
    simp [Ne.symm hj]

/-- The slots of the last `n` quanta together count the events of these quanta, but for the wrap of a counter. -/
lemma sum_countP (k : κ) (l : List (Nat×κ)) (hl : ∀e∈l,e.1≤ts (e.1%n)) :
    ((range n).map fun j => if c<ts j+n then l.countP (fun e => e.1=ts j ∧ e.1%n=j ∧ e.2=k) else 0).sum =
      l.countP fun e => c<e.1+n ∧ e.2=k := by
  induction l with
  | nil => simp
  | cons e l ih =>
    have ht := ih fun e he => hl e (.tail _ he)
    have hh := h.sum_event hn k (hl e (.head _))
    simp only [countP_cons,decide_eq_true_eq]
    rw [← ht,← hh,← sum_map_add]
    refine congrArg sum (map_congr_left fun j _ => ?_)
    by_cases hc : c<ts j+n <;> simp [hc]

lemma sum_mod (k : κ) :
    ((range n).map fun j => if c<ts j+n then cnt j k else 0).sum%m=(log.countP fun e => c<e.1+n ∧ e.2=k)%m := by
  rw [← h.sum_countP hn k log h.latest]
  refine (sum_nat_mod _ _).trans (Eq.trans ?_ (sum_nat_mod _ _).symm)
  rw [map_map,map_map]
  refine congrArg (·.sum%m) (map_congr_left fun j hj => ?_)
  by_cases hc : c<ts j+n
  · simp [hc,h.cnt j (mem_range.1 hj) k]
  · simp [hc]

lemma sum_eq (k : κ) (hlt : (log.countP fun e => c<e.1+n ∧ e.2=k) < m) :
    ((range n).map fun j => if c<ts j+n then cnt j k else 0).sum=log.countP fun e => c<e.1+n ∧ e.2=k := by
  rw [← h.sum_countP hn k log h.latest]
  refine congrArg sum (map_congr_left fun j hj => ?_)
  by_cases hc : c<ts j+n
  · -- no slot counts more than all of them together
    have hle : log.countP (fun e => e.1=ts j ∧ e.1%n=j ∧ e.2=k)≤log.countP fun e => c<e.1+n ∧ e.2=k := by
      refine countP_mono_left fun e _ hm => ?_
      simp only [decide_eq_true_eq] at hm ⊢
      exact ⟨hm.1 ▸ hc,hm.2.2⟩
    rw [if_pos hc,if_pos hc,h.cnt j (mem_range.1 hj) k,mod_eq_of_lt (hle.trans_lt hlt)]
  · rw [if_neg hc,if_neg hc]

/-- A slot of the quantum `n` before the current one was never used. -/
lemma cnt_aged (hs : ts (c%n)=c) {j : Nat} (hj : j<n) (ha : ts j+n=c) (k : κ) : cnt j k=0 := by
  rw [h.cnt j hj k,countP_eq_zero.2 ?_,zero_mod]
  intro e _ hm
  simp only [decide_eq_true_eq] at hm
  have hp : c%n=j := by rw [← ha,add_mod_right,← hm.1,hm.2.1]
  rw [hp] at hs
  omega
end Counts
end VetWaf.SlotRing
