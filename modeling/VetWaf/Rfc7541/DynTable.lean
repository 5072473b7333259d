import Mathlib

namespace VetWaf.Rfc7541
open List
section
variable {α : Type*} (cost : α → Nat)

/-- Accounted size of a table (RFC 7541, 4.1). -/
def tableSize (t : List α) : Nat := (t.map cost).sum

@[simp] lemma tableSize_nil : tableSize cost []=0 := rfl
@[simp] lemma tableSize_cons (a : α) (t : List α) : tableSize cost (a::t)=cost a+tableSize cost t := by simp [tableSize]

@[simp] lemma tableSize_append (s t : List α) :
    tableSize cost (s++t)=tableSize cost s+tableSize cost t := by simp [tableSize]

lemma length_mul_le_tableSize {c : Nat} (hc : ∀a,c≤cost a) (t : List α) : t.length*c≤tableSize cost t := by
  induction t with
  | nil => simp
  | cons a t ih =>
    have ha := hc a
    rw [length_cons,tableSize_cons,add_mul]
    omega

/-- Eviction (RFC 7541, 4.3). -/
def evict (limit : Nat) (t : List α) : List α :=
  if tableSize cost t≤limit then t
  else evict limit t.dropLast
termination_by t.length
decreasing_by
  have : t≠[] := by rintro rfl; simp_all
  have := length_pos_of_ne_nil this
  simp only [length_dropLast]
  omega

lemma evict_of_le {limit : Nat} {t : List α} (h : tableSize cost t≤limit) : evict cost limit t=t := by
  rw [evict,if_pos h]

variable (limit : Nat)
@[simp] lemma evict_nil : evict cost limit []=[] := evict_of_le cost (by simp)

lemma evict_concat_of_lt {limit : Nat} {t : List α} {a : α} (h : limit<tableSize cost (t++[a])) :
    evict cost limit (t++[a])=evict cost limit t := by
  rw [evict,if_neg (by omega),dropLast_concat]

lemma evict_size_le (t : List α) : tableSize cost (evict cost limit t)≤limit := by
  induction t using reverseRecOn with
  | nil => simp
  | append_singleton t a ih =>
    by_cases h : tableSize cost (t++[a])≤limit
    · rwa [evict_of_le cost h]
    · rwa [evict_concat_of_lt cost (by omega)]

lemma evict_subset (t : List α) : evict cost limit t ⊆ t := by
  induction t using reverseRecOn with
  | nil => simp
  | append_singleton t a ih =>
    by_cases h : tableSize cost (t++[a])≤limit
    · rw [evict_of_le cost h]
      exact List.Subset.refl _
    · rw [evict_concat_of_lt cost (by omega)]
      exact List.Subset.trans ih (subset_append_left t [a])

end

/-- The dynamic table of RFC 7541, section 4. -/
structure DynTable (α : Type*) (cost : α → Nat) where
  limit : Nat
  entries : List α
  fits : tableSize cost entries≤limit

namespace DynTable
variable {α : Type*} {cost : α → Nat}
def empty (limit : Nat) : DynTable α cost := ⟨limit,[],by simp⟩

/-- Entry insertion (4.4). -/
def insert (t : DynTable α cost) (a : α) : DynTable α cost :=
  if h : cost a≤t.limit then
    ⟨t.limit,a::evict cost (t.limit-cost a) t.entries,by
      have := evict_size_le cost (t.limit-cost a) t.entries
      rw [tableSize_cons]
      omega⟩
  else ⟨t.limit,[],by simp⟩

/-- Size update (4.3). -/
def resize (t : DynTable α cost) (limit : Nat) : DynTable α cost :=
  ⟨limit,evict cost limit t.entries,evict_size_le cost limit t.entries⟩

/-- Dynamic index `i` counts from `1`, the newest entry (2.3.3). -/
def lookup (t : DynTable α cost) (i : Nat) : Option α := if i=0 then none else t.entries[i-1]?

@[simp] lemma empty_limit (limit : Nat) : (empty limit : DynTable α cost).limit=limit := rfl
@[simp] lemma empty_entries (limit : Nat) : (empty limit : DynTable α cost).entries=[] := rfl

@[simp] lemma insert_limit (t : DynTable α cost) (a : α) : (t.insert a).limit=t.limit := by
  unfold insert
  split_ifs <;> rfl

lemma insert_entries_of_le {t : DynTable α cost} {a : α} (h : cost a≤t.limit) :
    (t.insert a).entries=a::evict cost (t.limit-cost a) t.entries := by
  simp [insert,h]

lemma insert_entries_of_lt {t : DynTable α cost} {a : α} (h : t.limit<cost a) : (t.insert a).entries=[] := by
  simp [insert,Nat.not_le.2 h]

@[simp] lemma resize_limit (t : DynTable α cost) (limit : Nat) : (t.resize limit).limit=limit := rfl

@[simp] lemma resize_entries (t : DynTable α cost) (limit : Nat) :
    (t.resize limit).entries=evict cost limit t.entries := rfl
end DynTable
end VetWaf.Rfc7541
