import VetWaf.H2.XmitSpec

namespace VetWaf.H2
namespace Xmit
variable {a : XmitAnswers} {tlsMaxOverhead minToSend n : Nat} {x y : Xmit} {fuel : Nat} {state : TfwStreamXmitState}
lemma loop_induction {P : Xmit → Prop} (hst : ∀x next y,P x → XmitEffect x next y → P y) {r : Option Err} (hx : P x)
    (h : x.loop a tlsMaxOverhead minToSend fuel state=.ok (r,y)) : P y := by
  induction fuel generalizing x state with
  | zero => cases h
  | succ n ih =>
    rw [loop] at h
    split at h
    · cases h
    · rename_i hv
      exact ih (hst _ _ _ hx (effect_visit (visit_ok hv))) h
    · rename_i z hv
      have hz := hst _ _ _ hx (effect_visit (visit_ok hv))
      exact hst _ _ _ hz ((finish_ok (Except.ok.inj h)).1.effect .exit)
    · rename_i hv
      cases h
      exact hst _ _ _ hx (effect_visit (visit_ok hv))

lemma loop_exit {P : TfwStreamXmitState → Xmit → Prop} {R : TfwStreamXmitState → Xmit → Prop}
    (hj : ∀n state x state' y,P state x → Visit a n x state (.jmp state') y → P state' y)
    (he : ∀n state x y,P state x → Visit a n x state .exit y → R state y) (hx : P state x)
    (h : x.loop a tlsMaxOverhead minToSend fuel state=.ok (none,y)) :
    ∃n state z,R state z ∧ z.finish a n state=(none,y) := by
  induction fuel generalizing x state with
  | zero => cases h
  | succ n ih =>
    rw [loop] at h
    split at h
    · cases h
    · rename_i hv
      exact ih (hj _ _ _ _ _ hx (visit_ok hv)) h
    · rename_i z hv
      exact ⟨n,state,z,he _ _ _ _ hx (visit_ok hv),Except.ok.inj h⟩
    · cases h

end Xmit

namespace H2Ctx
variable {c c' : H2Ctx} {args : MakeArgs} {a : XmitAnswers} {sndWnd sndWnd' id : Nat} {r : Option Err} {stop : Bool}
lemma makeTurn_ok (h : c.makeTurn args sndWnd id a=.ok (r,c',sndWnd',stop)) :
    ∃ (s : TfwStream) (x0 x : Xmit) (minToSend fuel : Nat),s∈c.streams ∧ s.isActive=true ∧ x0.ctx=c ∧ x0.stream=s ∧
      x0.loop a args.tlsMaxOverhead minToSend fuel s.xmit.state=.ok (r,x) ∧ (c'=x.ctx.setStream x.stream ∨
        x.stream.xmit.skbHead=0 ∧ c'=(x.ctx.setStream x.stream).streamClean s.id) := by
  unfold makeTurn at h
  split at h
  · cases h
  · rename_i s hs
    split at h
    · cases h
    · rename_i ha
      obtain ⟨⟨r',x⟩,hl,hr⟩ := Outcome.bind_eq_ok.1 h
      cases hr
      refine ⟨s,_,x,_,_,(findStream_eq_some hs).1,by simpa using ha,rfl,rfl,hl,?_⟩
      split_ifs with hc
      · exact .inr ⟨hc.1,rfl⟩
      · exact .inl rfl

variable {P : H2Ctx → Prop}
variable (hturn : ∀sndWnd id a c r1 c' sndWnd' stop,r1=none ∨ r1=r →
    P c → c.makeTurn args sndWnd id a=.ok (r1,c',sndWnd',stop) → P c')
include hturn
lemma makeTurns_induction {turns : List (Nat×XmitAnswers)} (hc : P c)
    (h : makeTurns args turns sndWnd c=.ok (r,c')) : P c' := by
  induction turns generalizing c sndWnd with
  | nil =>
    cases h
    exact hc
  | cons turn turns ih =>
    obtain ⟨⟨r',c1,sndWnd1,stop⟩,hf,hr⟩ := Outcome.bind_eq_ok.1 h
    simp only at hr
    split at hr
    · cases hr
      exact hturn _ _ _ _ _ _ _ _ (.inr rfl) hc hf
    · rename_i hg
      have hr' : r'=none := by
        simp only [Bool.or_eq_true,not_or,Option.not_isSome_iff_eq_none] at hg
        exact hg.2
      exact ih (hturn _ _ _ _ _ _ _ _ (.inl hr') hc hf) hr

lemma makeFrames_induction (hc : P (c.withFrame args.hdr args.plen)) (h : c.makeFrames args=.ok (r,c')) : P c' :=
  makeTurns_induction hturn hc h
end H2Ctx
end VetWaf.H2
