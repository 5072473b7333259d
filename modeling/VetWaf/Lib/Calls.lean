import Mathlib.Data.List.Perm.Basic

namespace VetWaf.Calls
variable {σ τ α β : Type*} (next : σ → Option (α×σ))

/-- What `n` calls return, and the state after them. -/
def calls : Nat → σ → Option (List α×σ)
  | 0, s => some ([],s)
  | n+1, s => do
    let (a,s) ← next s
    let (as,s) ← calls n s
    return (a::as,s)

variable {next} {s s' t : σ} {a : α} {as bs : List α} {m n : Nat}
lemma calls_succ_eq_some : calls next (n+1) s=some (as,t) ↔
      ∃a s' as',next s=some (a,s') ∧ calls next n s'=some (as',t) ∧ as=a::as' := by
  rw [calls]
  simp only [Option.bind_eq_bind,Option.bind_eq_some_iff,Option.pure_def,Option.some.injEq,Prod.mk.injEq,Prod.exists]
  constructor
  · intro ⟨a,s',hn,as',t',hc,has,ht⟩
    exact ⟨a,s',as',hn,ht ▸ hc,has.symm⟩
  · intro ⟨a,s',as',hn,hc,has⟩
    exact ⟨a,s',hn,as',t,hc,has.symm,rfl⟩

lemma calls_append (h : calls next m s=some (as,s')) (h' : calls next n s'=some (bs,t)) :
    calls next (m+n) s=some (as++bs,t) := by
  induction m generalizing s as with
  | zero =>
    cases h
    rw [Nat.zero_add,List.nil_append]
    exact h'
  | succ m ih =>
    obtain ⟨a,s1,as',hn,hc,rfl⟩ := calls_succ_eq_some.1 h
    rw [Nat.add_right_comm]
    exact calls_succ_eq_some.2 ⟨a,s1,as'++bs,hn,ih hc,rfl⟩

lemma calls_one (h : next s=some (a,t)) : calls next 1 s=some ([a],t) := calls_succ_eq_some.2 ⟨a,t,[],h,rfl,rfl⟩

/-- When `n` calls lead back to where they began, this is so after any number of calls, and what they
return is the same in another order. -/
lemma calls_window (h : calls next n s=some (as,s)) (hn : 0<n) (hr : calls next m s=some (bs,t)) :
    ∃as',calls next n t=some (as',t) ∧ as'.Perm as := by
  induction m generalizing s as bs with
  | zero =>
    cases hr
    exact ⟨as,h,.refl _⟩
  | succ m ih =>
    obtain ⟨k,rfl⟩ : ∃k,n=k+1 := ⟨n - 1,by omega⟩
    obtain ⟨b,s1,bs',hnx,hre,-⟩ := calls_succ_eq_some.1 hr
    obtain ⟨a,s2,as',hn',hc,rfl⟩ := calls_succ_eq_some.1 h
    -- the first call is made once more at the end
    rw [hnx,Option.some.injEq,Prod.mk.injEq] at hn'
    obtain ⟨rfl,rfl⟩ := hn'
    obtain ⟨as'',hw,hp⟩ := ih (calls_append hc (calls_one hnx)) hre
    exact ⟨as'',hw,hp.trans (List.perm_append_singleton ..)⟩

lemma calls_of_simulation {next' : τ → Option (β×τ)} {Inv : τ → Prop} {abs : τ → σ} {f : α → β}
    (hs : ∀d a s',Inv d → next (abs d)=some (a,s') → ∃d',next' d=some (f a,d') ∧ abs d'=s' ∧ Inv d')
    {d : τ} (hd : Inv d) (h : calls next n (abs d)=some (as,t)) :
    ∃d',calls next' n d=some (as.map f,d') ∧ abs d'=t ∧ Inv d' := by
  induction n generalizing d as with
  | zero =>
    cases h
    exact ⟨d,rfl,rfl,hd⟩
  | succ n ih =>
    obtain ⟨a,s1,as',hn,hc,rfl⟩ := calls_succ_eq_some.1 h
    obtain ⟨d1,hd1,ha,hi⟩ := hs d a s1 hd hn
    obtain ⟨d',hd',ht,hi'⟩ := ih hi (ha ▸ hc)
    exact ⟨d',calls_succ_eq_some.2 ⟨f a,d1,as'.map f,hd1,hd',rfl⟩,ht,hi'⟩
end VetWaf.Calls
