import Mathlib.Data.List.Nodup

namespace VetWaf.ListCursor
open List
variable {α : Type*} {x : α} {l p t : List α}
lemma nodup_cut (h : (p++x::t).Nodup) : x∉p ∧ x∉t := by
  rw [nodup_append] at h
  refine ⟨?_,(nodup_cons.1 h.2.1).1⟩
  intro hx
  exact h.2.2 x hx x (by simp) rfl

/-- The pointer to the end of a list is at the end of any suffix too. -/
lemma getLast?_suffix (hs : t <:+ l) (ht : t≠[]) : t.getLast? = l.getLast? := by
  obtain ⟨p,rfl⟩ := hs
  exact (getLast?_append_of_ne_nil p ht).symm

/-- Nothing follows the first element of a list that is also its last one. -/
lemma eq_nil_of_getLast? (h : (x::t).Nodup) (hx : (x::t).getLast? = some x) : t=[] := by
  cases t with
  | nil => rfl
  | cons a t =>
    rw [getLast?_cons_cons] at hx
    exact absurd (mem_of_getLast? hx) (nodup_cons.1 h).1

variable [DecidableEq α]
def before (x : α) (l : List α) : List α := l.takeWhile (· ≠ x)
def upTo (x : α) (l : List α) : List α := before x l++[x]

/-- What follows the element pointed at, or all of the list under a null pointer. -/
def after : Option α → List α → List α
  | none, l => l
  | some x, l => (l.dropWhile (· ≠ x)).tail

def prev (x : α) (l : List α) : Option α := (before x l).getLast?

lemma before_append (h : x∉p) : before x (p++x::t)=p := by
  rw [before,takeWhile_append_of_pos]
  · simp
  · intro a ha
    simp only [ne_eq,decide_not,Bool.not_eq_eq_eq_not,Bool.not_true,decide_eq_false_iff_not]
    rintro rfl
    exact h ha

lemma after_append (h : x∉p) : after (some x) (p++x::t)=t := by
  rw [after,dropWhile_append_of_pos]
  · simp
  · intro a ha
    simp only [ne_eq,decide_not,Bool.not_eq_eq_eq_not,Bool.not_true,decide_eq_false_iff_not]
    rintro rfl
    exact h ha

/-- The pointer at the end of a first part has the second part after it. -/
lemma after_getLast? (h : (p++t).Nodup) : after p.getLast? (p++t)=t := by
  cases hp : p.getLast? with
  | none =>
    rw [getLast?_eq_none_iff] at hp
    simp [hp,after]
  | some x =>
    obtain ⟨i,rfl⟩ := getLast?_eq_some_iff.1 hp
    rw [append_assoc,singleton_append] at h ⊢
    exact after_append (nodup_cut h).1

/-- Unlinking elements other than the one pointed at takes some of those after it away. -/
lemma after_sublist (h : t.Sublist l) (hl : l.Nodup) (hx : x∈t) : (after (some x) t).Sublist (after (some x) l) := by
  obtain ⟨p',t',rfl⟩ := append_of_mem hx
  obtain ⟨p,s,rfl⟩ := append_of_mem (h.subset hx)
  have hp := (nodup_cut hl).1
  rw [after_append (nodup_cut (hl.sublist h)).1,after_append hp]
  obtain ⟨l1,l2,heq,hl1,hl2⟩ := sublist_append_iff.1 ((sublist_append_right p' (x::t')).trans h)
  cases l1 with
  | nil =>
    rw [nil_append] at heq
    subst heq
    exact cons_sublist_cons.1 hl2
  | cons a l1 =>
    cases heq
    exact absurd (hl1.subset (.head _)) hp

section
variable (h : (p++t).Nodup)
include h
lemma upTo_getLast? (hp : p.getLast? = some x) : upTo x (p++t)=p := by
  obtain ⟨i,rfl⟩ := getLast?_eq_some_iff.1 hp
  rw [append_assoc,singleton_append] at h ⊢
  rw [upTo,before_append (nodup_cut h).1]

lemma before_getLast? (hp : p.getLast? = some x) : before x (p++t)=p.dropLast := by
  obtain ⟨i,rfl⟩ := getLast?_eq_some_iff.1 hp
  rw [append_assoc,singleton_append] at h ⊢
  rw [before_append (nodup_cut h).1,dropLast_concat]

lemma erase_append_of_nodup : (p++t).erase x=p.erase x++t.erase x := by
  by_cases hx : x∈p
  · have ht : x∉t := fun hxt => (nodup_append.1 h).2.2 x hx x hxt rfl
    rw [erase_append_left _ hx,erase_of_not_mem ht]
  · rw [erase_append_right _ hx,erase_of_not_mem hx]

/-- Unlinking the element a pointer names, after moving the pointer to the one before, leaves the
pointer at the end of what remains of the first part. -/
lemma prev_getLast? (hp : p.getLast? = some x) : prev x (p++t)=(p.erase x).getLast? := by
  rw [prev,before_getLast? h hp]
  obtain ⟨i,rfl⟩ := getLast?_eq_some_iff.1 hp
  have hi : x∉i := by
    rw [append_assoc] at h
    exact (nodup_cut h).1
  rw [erase_append_right _ hi]
  simp

end

/-- Unlinking any other element does not move the end of the first part. -/
lemma getLast?_erase_of_ne (hp : p.getLast? ≠ some x) : (p.erase x).getLast? = p.getLast? := by
  obtain rfl | ⟨i,a,rfl⟩ := eq_nil_or_concat p
  · rfl
  · have ha : a≠x := by
      rintro rfl
      simp at hp
    by_cases hx : x∈i
    · rw [concat_eq_append,erase_append_left _ hx]
      simp
    · rw [concat_eq_append,erase_append_right _ hx,erase_cons_tail (by simpa using ha)]
      simp

lemma getLast?_unlink (h : (p++t).Nodup) :
    (if p.getLast? = some x then prev x (p++t) else p.getLast?)=(p.erase x).getLast? := by
  split_ifs with hp
  · exact prev_getLast? h hp
  · exact (getLast?_erase_of_ne hp).symm

/-- A pointer into a list whose first element is unlinked is cleared if it names that element. -/
lemma getLast?_unlink_head (h : x∉l) : (if (x::l).getLast? = some x then none else (x::l).getLast?)=l.getLast? := by
  cases l with
  | nil => simp
  | cons a l =>
    rw [getLast?_cons_cons,if_neg]
    intro hx
    exact h (mem_of_getLast? hx)

lemma idxOf_getLast? (h : (p++t).Nodup) (hp : p.getLast? = some x) : (p++t).idxOf x+1=p.length := by
  obtain ⟨i,rfl⟩ := getLast?_eq_some_iff.1 hp
  rw [append_assoc,singleton_append] at h ⊢
  rw [idxOf_append_of_notMem (nodup_cut h).1]
  simp
end VetWaf.ListCursor
