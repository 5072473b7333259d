import Mathlib.Algebra.BigOperators.Intervals

namespace VetWaf.InPlace
open Function Finset Nat
variable {α : Type*}

/-- `for (i = 0; i < k; ++i) a[i] = f(a, i)` -/
def rewrite (f : (Nat → α) → Nat → α) (k : Nat) (a : Nat → α) : Nat → α :=
  (List.range k).foldl (fun a i => update a i (f a i)) a

lemma rewrite_succ (f : (Nat → α) → Nat → α) (k : Nat) (a : Nat → α) :
    rewrite f (k+1) a=update (rewrite f k a) k (f (rewrite f k a) k) := by
  rw [rewrite,List.range_succ,List.foldl_append]
  rfl

/-- When a turn reads only what is not yet rewritten, the loop reads the old array. -/
lemma rewrite_eq {f : (Nat → α) → Nat → α} (hf : ∀a b i,(∀j,i≤j → a j=b j) → f a i=f b i) (k : Nat) (a : Nat → α) :
    rewrite f k a=fun j => if j<k then f a j else a j := by
  induction k with
  | zero => rfl
  | succ k ih =>
    have hr : f (rewrite f k a) k=f a k := by
      refine hf _ _ k fun j hj => ?_
      rw [ih]
      exact if_neg (by omega)
    rw [rewrite_succ,hr,ih]
    funext j
    by_cases hj : j=k
    · rw [hj,update_self,if_pos (lt_succ_self k)]
    · rw [update_of_ne hj]
      by_cases hlt : j<k
      · rw [if_pos hlt,if_pos (by omega)]
      · rw [if_neg hlt,if_neg (by omega)]

lemma sum_blocks (a : Nat → Nat) (u k : Nat) :
    ∑ i∈Finset.range k,∑ b∈Finset.range u,a (u*i+b) = ∑ j∈Finset.range (u*k),a j := by
  induction k with
  | zero => simp
  | succ k ih => rw [sum_range_succ,ih,mul_succ,sum_range_add]

/-- The sum over an array of which only the first entries are kept -/
lemma sum_ite_lt (a b : Nat → Nat) {k n : Nat} (h : k≤n) : ∑ j∈Finset.range n,(if j<k then a j else b j) =
      ∑ j∈Finset.range k,a j + ∑ j∈Finset.range (n-k),b (k+j) := by
  obtain ⟨m,rfl⟩ := Nat.exists_eq_add_of_le h
  rw [sum_range_add,Nat.add_sub_cancel_left]
  congr 1
  · refine sum_congr rfl fun j hj => if_pos (mem_range.1 hj)
  · refine sum_congr rfl fun j _ => if_neg (by omega)
end VetWaf.InPlace
