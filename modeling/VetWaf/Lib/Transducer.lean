import Mathlib.Data.List.Basic

namespace VetWaf.Transducer
open List
variable {σ α β : Type*} (step : σ → α → σ×List β)
def feed (s : σ) : List α → σ
  | [] => s
  | a::as => feed (step s a).1 as

def emit (s : σ) : List α → List β
  | [] => []
  | a::as => (step s a).2++emit (step s a).1 as

@[simp] lemma feed_nil (s : σ) : feed step s []=s := rfl
@[simp] lemma emit_nil (s : σ) : emit step s []=[] := rfl
@[simp] lemma feed_cons (s : σ) (a : α) (as : List α) : feed step s (a::as)=feed step (step s a).1 as := rfl

@[simp] lemma emit_cons (s : σ) (a : α) (as : List α) :
    emit step s (a::as)=(step s a).2++emit step (step s a).1 as := rfl

lemma feed_append (s : σ) (as bs : List α) : feed step s (as++bs)=feed step (feed step s as) bs := by
  induction as generalizing s with
  | nil => rfl
  | cons a as ih => exact ih (step s a).1

lemma emit_append (s : σ) (as bs : List α) : emit step s (as++bs)=emit step s as++emit step (feed step s as) bs := by
  induction as generalizing s with
  | nil => rfl
  | cons a as ih => rw [cons_append,emit_cons,emit_cons,ih,feed_cons,append_assoc]

lemma feed_absorbing {s : σ} (h : ∀a,step s a=(s,[])) (as : List α) : feed step s as=s := by
  induction as with
  | nil => rfl
  | cons a as ih => rw [feed_cons,h a,ih]

lemma emit_absorbing {s : σ} (h : ∀a,step s a=(s,[])) (as : List α) : emit step s as=[] := by
  induction as with
  | nil => rfl
  | cons a as ih => rw [emit_cons,h a,ih,append_nil]
end VetWaf.Transducer
