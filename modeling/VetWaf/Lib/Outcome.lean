import Mathlib.Data.List.Basic

namespace VetWaf.Outcome

universe u v

variable {ε : Type u} {α β : Type v} {E : ε → Prop} {P Q : α → Prop}

/-- The result, if there is one, has property `P`, and the error, if there is one, is among `E`. -/
def Meets (E : ε → Prop) (P : α → Prop) : Except ε α → Prop
  | .ok a => P a
  | .error s => E s

@[simp] lemma meets_ok {a : α} : Meets E P (.ok a) ↔ P a := Iff.rfl
@[simp] lemma meets_error {s : ε} : Meets E P (.error s) ↔ E s := Iff.rfl

lemma Meets.imp {r : Except ε α} (h : Meets E P r) (hi : ∀a,P a → Q a) : Meets E Q r := by
  cases r with
  | ok a => exact hi a h
  | error s => exact h

variable {r : Except ε α} {k : α → Except ε β}
lemma Meets.exists_ok (h : Meets E P r) (hok : r.isOk=true) : ∃a,r=.ok a ∧ P a := by
  cases r with
  | ok a => exact ⟨a,rfl,h⟩
  | error s => cases hok

lemma Meets.bind {R : β → Prop} (h : Meets E P r) (hk : ∀a,P a → Meets E R (k a)) : Meets E R (r >>= k) := by
  cases r with
  | ok a => exact hk a h
  | error s => exact h

lemma ok_bind (a : α) (k : α → Except ε β) : (.ok a : Except ε α) >>= k=k a := rfl

lemma toOption_eq_some {r : Except ε α} {a : α} : r.toOption=some a ↔ r=.ok a := by
  cases r with
  | ok b => simp [Except.toOption]
  | error s => simp [Except.toOption]

lemma bind_eq_ok {b : β} : r >>= k=.ok b ↔ ∃a,r=.ok a ∧ k a=.ok b := by
  cases r with
  | ok a =>
    constructor
    · exact fun h => ⟨a,rfl,h⟩
    · rintro ⟨_,⟨⟩,h⟩
      exact h
  | error s =>
    constructor
    · intro h
      cases h
    · rintro ⟨_,⟨⟩,_⟩
end VetWaf.Outcome
