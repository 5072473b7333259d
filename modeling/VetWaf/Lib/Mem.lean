import Mathlib.Data.List.Basic

namespace VetWaf.Mem
open List
variable {α : Type*}

/-- `memcpy`: `n` cells of `src` from cell `b` on, placed in `dst` from cell `a` on. -/
def copy (dst : Nat → α) (a : Nat) (src : Nat → α) (b n : Nat) : Nat → α :=
  fun i => if a ≤ i ∧ i<a+n then src (b+(i-a)) else dst i

variable {a b n i pos : Nat}
lemma copy_inside (dst : Nat → α) (src : Nat → α) (h : i<n) : copy dst a src b n (a+i)=src (b+i) := by
  unfold copy
  rw [if_pos ⟨by omega,by omega⟩,Nat.add_sub_cancel_left]

lemma copy_start (dst : Nat → α) (src : Nat → α) (h : i<n) : copy dst 0 src b n i=src (b+i) := by
  have := copy_inside dst (a := 0) (b := b) src h
  rwa [Nat.zero_add] at this

lemma copy_below (dst : Nat → α) (src : Nat → α) (h : i<a) : copy dst a src b n i=dst i := by
  unfold copy
  rw [if_neg (by omega)]

/-- The cells from `pos` on take the values of a list. -/
def write (mem : Nat → α) (pos : Nat) (vs : List α) : Nat → α :=
  fun i => if pos ≤ i then (vs[i-pos]?).getD (mem i) else mem i

/-- The values of `n` cells from `pos` on -/
def slice (mem : Nat → α) (pos n : Nat) : List α := (List.range n).map fun i => mem (pos+i)

lemma write_below (mem : Nat → α) (vs : List α) (h : i<pos) : write mem pos vs i=mem i := by
  unfold write
  rw [if_neg (Nat.not_le_of_lt h)]

lemma slice_congr {mem mem' : Nat → α} (h : ∀i,pos ≤ i → i<pos+n → mem' i=mem i) :
    slice mem' pos n=slice mem pos n := by
  refine map_congr_left fun i hi => ?_
  have := mem_range.1 hi
  exact h _ (by omega) (by omega)

lemma slice_add (mem : Nat → α) (pos m n : Nat) : slice mem pos (m+n)=slice mem pos m++slice mem (pos+m) n := by
  unfold slice
  rw [range_add,map_append,map_map]
  refine congrArg _ (map_congr_left fun i _ => ?_)
  rw [Function.comp_apply,Nat.add_assoc]

lemma slice_write (mem : Nat → α) (pos : Nat) (vs : List α) : slice (write mem pos vs) pos vs.length=vs := by
  refine ext_getElem? fun i => ?_
  unfold slice
  rw [getElem?_map]
  obtain hi | hi := Nat.lt_or_ge i vs.length
  · rw [getElem?_range hi,Option.map_some,write,if_pos (Nat.le_add_right _ _),Nat.add_sub_cancel_left,
      getElem?_eq_getElem hi]
    rfl
  · rw [getElem?_eq_none (by rwa [length_range]),getElem?_eq_none hi]
    rfl
end VetWaf.Mem
