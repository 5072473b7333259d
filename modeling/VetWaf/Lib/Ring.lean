import Mathlib.Data.List.Basic

namespace VetWaf.Ring
open Function List
variable {α : Type*}

/-- Slot of the `k`-th newest element (`1` is the newest) of a ring of `len` slots whose next
write goes to slot `curr`. -/
def slot (len curr k : Nat) : Nat := if k≤curr then curr-k else curr+(len-k)

/-- The slot after `i`, wrapping at the end of the ring. -/
def next (len i : Nat) : Nat := if i+1=len then 0 else i+1

/-- The `n` newest elements of the ring, newest first. -/
def window (mem : Nat → α) (len curr n : Nat) : List α := (List.range n).map fun k => mem (slot len curr (k+1))

variable {len curr k len' n : Nat} {mem mem' : Nat → α}
lemma slot_ne_curr (hk : 0<k) (hkl : k<len) : slot len curr k≠curr := by
  unfold slot
  split_ifs <;> omega

lemma next_lt {i : Nat} (h : i<len) : next len i<len := by
  unfold next
  split_ifs <;> omega

lemma slot_next_one (len curr : Nat) : slot len (next len curr) 1=curr := by
  unfold slot next
  split_ifs <;> omega

lemma slot_next_succ (hk : k<len) : slot len (next len curr) (k+1)=slot len curr k := by
  unfold slot next
  split_ifs <;> omega

/-- Walking from an element towards the newer ones follows the slots in memory order. -/
lemma next_slot_succ (hk : 0<k) (hkl : k<len) (hc : curr<len) : next len (slot len curr (k+1))=slot len curr k := by
  unfold slot next
  split_ifs <;> omega

@[simp] lemma window_zero (mem : Nat → α) (len curr : Nat) : window mem len curr 0=[] := rfl
@[simp] lemma window_length (mem : Nat → α) (len curr n : Nat) : (window mem len curr n).length=n := by simp [window]

/-- The oldest of `n + 1` elements stands at the end of the window. -/
lemma window_succ (mem : Nat → α) (len curr n : Nat) :
    window mem len curr (n+1)=window mem len curr n++[mem (slot len curr (n+1))] := by
  simp [window,range_succ]

lemma window_getElem? (mem : Nat → α) (len curr n i : Nat) :
    (window mem len curr n)[i]?=if i<n then some (mem (slot len curr (i+1))) else none := by
  split_ifs with h
  · simp [window,h]
  · simp [window,Nat.le_of_not_lt h]

/-- Two rings that agree slot by slot on their newest elements have the same window. -/
lemma window_congr {curr' : Nat} (h : ∀k,k<n → mem' (slot len' curr' (k+1))=mem (slot len curr (k+1))) :
    window mem' len' curr' n=window mem len curr n := by
  refine map_congr_left fun k hk => h k (mem_range.1 hk)

/-- Writing the current slot and advancing puts the new element in front. -/
lemma window_push (mem : Nat → α) (a : α) (hn : n<len) :
    window (update mem curr a) len (next len curr) (n+1)=a::window mem len curr n := by
  have ht : ∀k,k<n → update mem curr a (slot len (next len curr) (k+1+1))=mem (slot len curr (k+1)) := by
    intro k hk
    rw [slot_next_succ (by omega),update_of_ne (slot_ne_curr (by omega) (by omega))]
  simp only [window,range_succ_eq_map,map_cons,map_map]
  rw [slot_next_one,update_self]
  refine congrArg _ (map_congr_left fun k hk => ?_)
  exact ht k (mem_range.1 hk)

/-- A full ring that is unrolled from slot `curr` into a larger array keeps its window. -/
lemma window_unroll (hn : n≤len) (hc : curr<len) (ht : ∀i,i<len-curr → mem' i=mem (curr+i))
    (hw : ∀i,i<curr → mem' (len-curr+i)=mem i) : window mem' len' len n=window mem len curr n := by
  refine window_congr fun k hk => ?_
  by_cases hkc : k+1≤curr
  · have h := hw (curr-(k+1)) (by omega)
    have e : len-curr+(curr-(k+1))=len-(k+1) := by omega
    rw [e] at h
    simpa [slot,hkc,show k+1≤len by omega] using h
  · have h := ht (len-(k+1)) (by omega)
    simpa [slot,hkc,show k+1≤len by omega] using h

/-- A ring whose part from slot `curr` on is moved to the end of a larger array keeps its
window. -/
lemma window_shift_tail (hn : n≤len) (hl : len≤len') (hh : ∀i,i<curr → mem' i=mem i)
    (ht : ∀i,curr ≤ i → i<len → mem' (len'-len+i)=mem i) : window mem' len' curr n=window mem len curr n := by
  refine window_congr fun k hk => ?_
  by_cases hkc : k+1≤curr
  · simpa [slot,hkc] using hh (curr-(k+1)) (by omega)
  · have h := ht (curr+(len-(k+1))) (by omega) (by omega)
    have e : len'-len+(curr+(len-(k+1)))=curr+(len'-(k+1)) := by omega
    rw [e] at h
    simpa [slot,hkc] using h
end VetWaf.Ring
