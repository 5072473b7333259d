import Mathlib.Data.List.Basic
import Mathlib.Logic.Relation

namespace VetWaf.Run
variable {σ ε : Type*} (step : σ → ε → Option σ)

/-- The state after a list of events, if each of them was enabled. -/
def run (s : σ) : List ε → Option σ
  | [] => some s
  | e::es => (step s e).bind fun s' => run s' es

@[simp] lemma run_nil (s : σ) : run step s []=some s := rfl

lemma run_cons_eq_some {s t : σ} {e : ε} {es : List ε} :
    run step s (e::es)=some t ↔ ∃s',step s e=some s' ∧ run step s' es=some t := by
  rw [run]
  exact Option.bind_eq_some_iff

/-- Each event of a run meets a condition in the state that it is taken in. -/
def along (p : σ → ε → Bool) (s : σ) : List ε → Bool
  | [] => true
  | e::es => p s e && (step s e).all fun s' => along p s' es

variable {p : σ → ε → Bool} {s t : σ} {es : List ε} {P : σ → Prop}
lemma along_cons {s' : σ} {e : ε} (h : along step p s (e::es)=true) (hs : step s e=some s') :
    p s e=true ∧ along step p s' es=true := by
  rw [along,hs,Option.all_some,Bool.and_eq_true] at h
  exact h

/-- What holds at first and is kept by every step that meets a condition holds after every run whose
steps all meet it. -/
lemma run_invariant_along (hst : ∀s e s',P s → p s e=true → step s e=some s' → P s')
    (hs : P s) (hp : along step p s es=true) (h : run step s es=some t) : P t := by
  induction es generalizing s with
  | nil =>
    rw [run_nil] at h
    cases h
    exact hs
  | cons e es ih =>
    obtain ⟨s',hs',hr⟩ := (run_cons_eq_some step).1 h
    obtain ⟨hpe,hpes⟩ := along_cons step hp hs'
    exact ih (hst s e s' hs hpe hs') hpes hr

lemma along_of_forall (h : ∀e∈es,∀s,p s e=true) : along step p s es=true := by
  induction es generalizing s with
  | nil => rfl
  | cons e es ih =>
    rw [List.forall_mem_cons] at h
    rw [along,h.1,Bool.true_and]
    cases step s e with
    | none => rfl
    | some s' => exact ih h.2

/-- What holds at first and is kept by every step holds after every run. -/
lemma run_invariant (hst : ∀s e s',P s → step s e=some s' → P s') (hs : P s) (h : run step s es=some t) : P t :=
  run_invariant_along step (p := fun _ _ => true) (fun s e s' hs _ => hst s e s' hs) hs
    (along_of_forall step fun _ _ _ => rfl) h

lemma exists_run_of_reflTransGen (h : Relation.ReflTransGen (fun s s' => ∃e,step s e=some s') s t) :
    ∃es,run step s es=some t := by
  induction h using Relation.ReflTransGen.head_induction_on with
  | refl => exact ⟨[],rfl⟩
  | head hst _ ih =>
    obtain ⟨e,he⟩ := hst
    obtain ⟨es,hes⟩ := ih
    exact ⟨e::es,(run_cons_eq_some step).2 ⟨_,he,hes⟩⟩
end VetWaf.Run
