import VetWaf.H2.XmitRound

namespace VetWaf.H2

/-- The queue of a stream has all that is still to be sent. -/
structure Stocked (state : TfwStreamXmitState) (m : TfwHttpXmit) : Prop where
  bytes : m.hLen+m.bLen+m.tLen+m.frameLength ≤ m.skbHead
  data : state=.makeDataFrames → m.bLen≠0
  trailers : state=.makeTrailerFrames ∨ state=.makeTrailerContinuationFrames → m.hLen=0
  fresh : state=.encodeHeaders → m.frameLength=0

def TfwHttpXmit.part (m : TfwHttpXmit) (type : TfwFrameType) : Nat :=
  if type=.data then m.bLen else if m.hLen≠0 then m.hLen else m.tLen

namespace Xmit
variable {a : XmitAnswers} {tlsMaxOverhead minToSend n : Nat} {x y : Xmit}
variable {type : TfwFrameType} {len : Nat} {state' : TfwStreamXmitState}
lemma bytes_insertFrameHeader {length : Nat} {r : Option Err}
    (hb : x.stream.xmit.hLen+x.stream.xmit.bLen+x.stream.xmit.tLen +
      x.stream.xmit.frameLength≤x.stream.xmit.skbHead) (hl : length≤x.stream.xmit.part type)
    (h : x.insertFrameHeader a n type length=.ok (r,y)) :
    y.stream.xmit.hLen+y.stream.xmit.bLen+y.stream.xmit.tLen+y.stream.xmit.frameLength≤y.stream.xmit.skbHead := by
  have hc : ∀m,m=(x.charge type length).1.stream.xmit → m.hLen+m.bLen+m.tLen+(m.frameLength+length) ≤ m.skbHead := by
    rintro m rfl
    simp only [charge,TfwHttpXmit.part] at hl ⊢
    split_ifs at hl ⊢ <;> simp only [setXmit] <;> omega
  simp only [insertFrameHeader] at h
  split at h
  · cases h
    exact hb
  · split at h
    · cases h
    · rename_i f hf
      have hx : f.stream.xmit=(((x.charge type length).1.setXmit {(x.charge type length).1.stream.xmit with
            frameLength:=(x.charge type length).1.stream.xmit.frameLength+length + frameHeaderSize
            skbHead:=(x.charge type length).1.stream.xmit.skbHead+frameHeaderSize}).stream.xmit) := by
        rw [(frame_streamFsm hf).stream]
      have hch := hc _ rfl
      simp only [setXmit] at hx
      split at h <;> cases h
      · rw [stream_note,hx]
        simp only
        omega
      · simp [purgeSendQueue,setXmit]
      · simp [purgeSendQueue,setXmit]
      · rw [stream_note,hx]
        simp only
        omega

variable {state : TfwStreamXmitState}
lemma frameOf_eq_data (h : x.frameOf state=some (.data,len)) : state=.makeDataFrames := by
  cases state <;> first | rfl | simp [frameOf] at h

lemma len_le_part {k : Nat} {sz : Except Err Nat} (hx : Stocked state x.stream.xmit)
    (hf : x.frameOf state=some (type,len)) (hs : sz=.ok 0 ∨ state=.makeHeadersFrames) (hk : sz=.ok k) :
    len≤({x.stream.xmit with hLen:=x.stream.xmit.hLen+k} : TfwHttpXmit).part type := by
  have ht := hx.trailers
  have h0 : state ≠ .makeHeadersFrames → k=0 := by
    intro hne
    obtain hs | hst := hs
    · rw [hk] at hs
      exact Except.ok.inj hs
    · exact absurd hst hne
  cases state with
  | makeHeadersFrames | makeContinuationFrames =>
    cases hf
    simp only [TfwHttpXmit.part,reduceCtorEq,if_false]
    split_ifs <;> omega
  | makeDataFrames =>
    cases hf
    simp [TfwHttpXmit.part]
  | makeTrailerFrames | makeTrailerContinuationFrames =>
    cases hf
    simp [TfwHttpXmit.part,ht (by simp),h0 (by simp)]
  | _ => cases hf

lemma bytes_of_queued (h : Queued x y) (hb : x.stream.xmit.hLen+x.stream.xmit.bLen+x.stream.xmit.tLen +
      x.stream.xmit.frameLength≤x.stream.xmit.skbHead) :
    y.stream.xmit.hLen+y.stream.xmit.bLen+y.stream.xmit.tLen+y.stream.xmit.frameLength≤y.stream.xmit.skbHead := by
  obtain ⟨k,hk,hf,hh⟩ := h.taken
  have hLen : y.stream.xmit.hLen=x.stream.xmit.hLen := by rw [h.stream]
  have bLen : y.stream.xmit.bLen=x.stream.xmit.bLen := by rw [h.stream]
  have tLen : y.stream.xmit.tLen=x.stream.xmit.tLen := by rw [h.stream]
  omega

lemma stocked_nextFrame (h : Queued x y) (hb : x.stream.xmit.hLen+x.stream.xmit.bLen+x.stream.xmit.tLen +
      x.stream.xmit.frameLength≤x.stream.xmit.skbHead) : Stocked x.nextFrame y.stream.xmit := by
  have hy := bytes_of_queued h hb
  rw [← nextFrame_of_queued h]
  simp only [nextFrame]
  refine ⟨hy,?_,?_,?_⟩
  · split_ifs <;> simp_all
  · split_ifs <;> simp_all
  · split_ifs <;> simp_all

lemma stocked_visit (hx : Stocked state x.stream.xmit)
    (h : Visit a n x state (.jmp state') y) : Stocked state' y.stream.xmit := by
  have hb := hx.bytes
  cases h with
  | encode hLen bLen tLen =>
    have hfs := hx.fresh rfl
    refine ⟨?_,by simp,by simp,by simp⟩
    simp only [setXmit,hfs]
    omega
  | release => exact ⟨hb,by simp,by simp,by simp⟩
  | make _ type len sz cont _ _ hf _ hs hm =>
    cases hm with
    | frame k maxLen sndWnd z hk hi =>
      have hz := bytes_insertFrameHeader (by simp only [setXmit]; omega)
        (le_trans (calcFrameLength_le_len _ _ _ _ _) (len_le_part hx hf hs hk)) hi
      exact ⟨hz,by simp,by simp,by simp⟩
  | send _ _ hq hn =>
    obtain ⟨err,hr⟩ | hj := hn
    · cases hr
    · cases hj
      exact stocked_nextFrame hq hb

lemma isBlocked_visit (h : Visit a n x state (.jmp state') y) : y.stream.xmit.isBlocked=x.stream.xmit.isBlocked := by
  cases effect_visit h with
  | quiet _ _ _ hb => exact hb
  | frame _ _ _ hm => exact hm.blocked
  | block he => cases he

structure Stopped (state : TfwStreamXmitState) (m : TfwHttpXmit) : Prop where
  rest : Stocked state m ∨ state=.makeFramesFinish ∧ m.skbHead=0
  blocked : m.isBlocked=true → state=.makeDataFrames

lemma stopped_stopBlocked (hx : Stocked state x.stream.xmit)
    {blocked : Bool} (hb : blocked=true → state=.makeDataFrames) :
    Stopped state (x.stopBlocked blocked).stream.xmit := ⟨.inl ⟨hx.bytes,hx.data,hx.trailers,hx.fresh⟩,hb⟩

lemma stopped_visit (hx : Stocked state x.stream.xmit)
    (hf : x.stream.xmit.isBlocked=false) (h : Visit a n x state .exit y) : Stopped state y.stream.xmit := by
  cases h with
  | exceeded blocked => exact stopped_stopBlocked hx fun _ => rfl
  | make _ type len sz cont _ _ hfm _ _ hm =>
    cases hm with
    | stop => exact ⟨.inl hx,by simp [hf]⟩
    | block blocked _ ht =>
      refine stopped_stopBlocked (x := {x with isTrailerCont:=cont}) hx ?_
      intro hb
      exact frameOf_eq_data (ht hb ▸ hfm)
  | send _ _ _ hn =>
    obtain ⟨err,hr⟩ | hj := hn
    · cases hr
    · cases hj
  | sent c sndWnd => exact ⟨.inr ⟨rfl,rfl⟩,by simp [setXmit,hf]⟩

end Xmit

/-- What holds of the response of a stream between the turns. -/
structure XmitInv (m : TfwHttpXmit) : Prop where
  bytes : m.skbHead≠0 → m.hLen+m.bLen+m.tLen+m.frameLength ≤ m.skbHead
  clear : m.skbHead=0 → m.frameLength=0
  data : m.state=.makeDataFrames → m.skbHead≠0 ∧ m.bLen≠0
  trailers : m.state=.makeTrailerFrames ∨ m.state=.makeTrailerContinuationFrames → m.hLen=0
  fresh : m.state=.encodeHeaders → m.frameLength=0
  blocked : m.isBlocked=true → m.skbHead≠0

lemma XmitInv.stocked {m : TfwHttpXmit} (h : XmitInv m) (hq : m.skbHead≠0) : Stocked m.state m :=
  ⟨h.bytes hq,fun hst => (h.data hst).2,h.trailers,h.fresh⟩

namespace Xmit
variable {a : XmitAnswers} {tlsMaxOverhead minToSend n : Nat} {x y : Xmit}
lemma xmitInv_finish {state : TfwStreamXmitState} (hx : Stopped state x.stream.xmit)
    (h : x.finish a n state=(none,y)) : XmitInv y.stream.xmit := by
  obtain ⟨hq,hst,he⟩ := finish_ok h
  have hf := he rfl
  have hLen : y.stream.xmit.hLen=x.stream.xmit.hLen := by rw [hq.stream]
  have bLen : y.stream.xmit.bLen=x.stream.xmit.bLen := by rw [hq.stream]
  have hbl : y.stream.xmit.isBlocked=x.stream.xmit.isBlocked := by rw [hq.stream]
  obtain hs | ⟨rfl,hse⟩ := hx.rest
  · have hby := bytes_of_queued hq hs.bytes
    have hd : state=.makeDataFrames → y.stream.xmit.skbHead≠0 ∧ y.stream.xmit.bLen≠0 := by
      intro hd
      have := hs.data hd
      omega
    refine ⟨fun _ => hby,fun _ => hf,hst ▸ hd,?_,fun _ => hf,?_⟩
    · rw [hst,hLen]
      exact hs.trailers
    · rw [hbl]
      exact fun hb => (hd (hx.blocked hb)).1
  · have hh : y.stream.xmit.skbHead=0 := by
      obtain ⟨k,-,-,hk⟩ := hq.taken
      omega
    refine ⟨fun hne => absurd hh hne,fun _ => hf,?_,?_,fun _ => hf,?_⟩
    · simp [hst]
    · simp [hst]
    · rw [hbl]
      intro hb
      cases hx.blocked hb

lemma xmitInv_loop {fuel : Nat} (hx : XmitInv x.stream.xmit) (ha : x.stream.isActive=true)
    (h : x.loop a tlsMaxOverhead minToSend fuel x.stream.xmit.state=.ok (none,y)) : XmitInv y.stream.xmit := by
  simp only [TfwStream.isActive,Bool.and_eq_true,bne_iff_ne,ne_eq,Bool.not_eq_true'] at ha
  obtain ⟨n,state,z,hz,hf⟩ := loop_exit
    (P := fun state x => Stocked state x.stream.xmit ∧ x.stream.xmit.isBlocked=false)
    (R := fun state y => Stopped state y.stream.xmit)
    (fun _ _ _ _ _ hx hv => ⟨stocked_visit hx.1 hv,(isBlocked_visit hv).trans hx.2⟩)
    (fun _ _ _ _ hx hv => stopped_visit hx.1 hx.2 hv) ⟨hx.stocked ha.1,ha.2⟩ h
  exact xmitInv_finish hz hf

end Xmit

lemma fsm_open_for_sending {c : H2Ctx} {s : TfwStream} {type : TfwFrameType} {flags : UInt8}
    {f : Fsm} (h : streamFsm c s type flags true=some f) (hr : type ≠ .rstStream)
    (hst : s.state=.opened ∨ s.state=.remHalfClosed) (he : s.eosSent=false) :
    f.res=.termConn ∨ f.res=.ok ∧ (hasFlag flags fEndStream=false →
      f.stream.state=s.state ∧ f.stream.eosSent=false) := by
  obtain ⟨m,rfl,⟨-,hs⟩ | ⟨-,rfl⟩⟩ := streamFsm_eq_some h
  · rw [res_fsmFinish,stream_fsmFinish]
    unfold fsmSwitch at hs
    obtain hst | hst := hst
    · simp only [hst,Option.some.injEq] at hs
      subst hs
      simp only [fsmOpened,if_neg hr]
      split_ifs <;> simp_all [eos]
    · simp only [hst,Option.some.injEq] at hs
      subst hs
      simp only [fsmRemHalfClosed,if_neg hr,if_true]
      split_ifs
      · unfold fsmHalfClosedHeaders
        split <;> simp_all
      · simp_all
      · simp_all
      · simp_all
  · exact .inl (by rw [res_fsmFinish,Fsm.res_termConn])

/-- In state `state` of the FSM no DATA frame will be refused by the stream. -/
def Sendable (state : TfwStreamXmitState) (s : TfwStream) : Prop :=
  (s.state=.opened ∨ s.state=.remHalfClosed) ∧ s.eosSent=false ∨
    s.xmit.bLen=0 ∧ state ≠ .encodeHeaders ∧ state ≠ .makeDataFrames

instance (state : TfwStreamXmitState) (s : TfwStream) : Decidable (Sendable state s) :=
  inferInstanceAs (Decidable (_ ∨ _))

namespace Xmit
variable {a : XmitAnswers} {n : Nat} {x y : Xmit} {state : TfwStreamXmitState}
variable {type : TfwFrameType} {length : Nat} {sent : Bool}
lemma sendable_frame (hx : Sendable state x.stream) (hr : type ≠ .rstStream)
    (hd : type=.data → state=.makeDataFrames) (h : FrameMade x type length sent none y) :
    Sendable .sendFrames y.stream ∧ (type=.data → sent=true) := by
  obtain ⟨flags,m,f,hf,hse,-,hs,hen,ht⟩ := h.fsm
  obtain ⟨ho,heo⟩ | ⟨hb,-,hne⟩ := hx
  · obtain hc | ⟨hok,hsy⟩ := fsm_open_for_sending hf hr ho heo
    · cases ht hc
    · refine ⟨?_,fun _ => hse.2 hok⟩
      cases he : hasFlag flags fEndStream with
      | true => exact .inr ⟨hen he,by simp,by simp⟩
      | false =>
        obtain ⟨hst,he'⟩ := hsy he
        rw [hs]
        exact .inl ⟨by rw [hst]; exact ho,he'⟩
  · have hb' := h.body
    exact ⟨.inr ⟨by omega,by simp,by simp⟩,fun hty => absurd (hd hty) hne⟩

/-- What a state of the FSM that returns no error does to the windows. -/
inductive Accounted (x y : Xmit) : Prop
  | same : y.ctx.remWnd=x.ctx.remWnd → y.ctx.log=x.ctx.log → y.stream.remWnd=x.stream.remWnd → Accounted x y
  | data (length : Nat) : y.ctx.remWnd=x.ctx.remWnd-length →
      y.ctx.log=.data x.stream.id length x.ctx.remWnd x.stream.remWnd true::x.ctx.log →
      y.stream.remWnd=x.stream.remWnd-length → Accounted x y

lemma accounted_frame {r : Option Err} (hse : type=.data → sent=true) (h : FrameMade x type length sent r y) :
    Accounted x y := by
  obtain ⟨flags,m,f,hf,-,hc,hs,-⟩ := h.fsm
  have hfr := frame_streamFsm hf
  have hco : y.ctx.remWnd=x.ctx.remWnd-dataLength type length := by rw [hc,hfr.ctx]
  have hw : y.stream.remWnd=x.stream.remWnd-dataLength type length := by rw [hs,hfr.stream]
  by_cases ht : type=.data
  · refine .data length ?_ ?_ ?_
    · rw [hco,dataLength,if_pos ht]
    · rw [hc,if_pos ht,hse ht]
    · rw [hw,dataLength,if_pos ht]
  · rw [dataLength,if_neg ht,Int.natCast_zero,Int.sub_zero] at hco hw
    exact .same hco (by rw [hc,if_neg ht]) hw

lemma sendable_visit {state' : TfwStreamXmitState} (hx : Sendable state x.stream)
    (h : Visit a n x state (.jmp state') y) : Sendable state' y.stream ∧ Accounted x y := by
  cases h with
  | encode hLen bLen tLen =>
    refine ⟨?_,.same rfl rfl rfl⟩
    obtain ho | ⟨-,hne,-⟩ := hx
    · exact .inl ho
    · exact absurd rfl hne
  | release =>
    refine ⟨?_,.same rfl rfl rfl⟩
    obtain ho | ⟨hb,-,-⟩ := hx
    · exact .inl ho
    · exact .inr ⟨hb,by simp,by simp⟩
  | make _ type len sz cont _ _ hf _ _ hmk =>
    cases hmk with
    | frame k maxLen sndWnd z hk hi =>
      obtain ⟨hfa,-⟩ | ⟨sent,hm⟩ := insertFrameHeader_ok hi
      · cases hfa
      · have hrs : type ≠ .rstStream := by
          rintro rfl
          cases state <;> simp [frameOf] at hf
        have hd : type=.data → state=.makeDataFrames := fun ht => frameOf_eq_data (ht ▸ hf)
        have hm' : FrameMade x type _ sent none z := ⟨hm.fsm,hm.blocked,hm.body⟩
        obtain ⟨hz,hse⟩ := sendable_frame hx hrs hd hm'
        refine ⟨hz,?_⟩
        cases accounted_frame hse hm' with
        | same hw hl hs => exact .same hw hl hs
        | data length hw hl hs => exact .data length hw hl hs
  | send _ _ hq hn =>
    obtain ⟨err,hr⟩ | hj := hn
    · cases hr
    · cases hj
      refine ⟨?_,.same (by rw [hq.ctx]) (by rw [hq.ctx]) (by rw [hq.stream])⟩
      rw [hq.stream]
      obtain ho | ⟨hb,-,-⟩ := hx
      · exact .inl ho
      · refine .inr ⟨hb,?_,?_⟩
        · simp only [nextFrame]
          split_ifs <;> simp
        · simp only [nextFrame,hb]
          split_ifs <;> simp_all

lemma sendable_exit (hx : Sendable state x.stream)
    (h : Visit a n x state .exit y) : Sendable state y.stream ∧ Accounted x y := by
  cases h with
  | exceeded => exact ⟨hx,.same rfl rfl rfl⟩
  | make _ type len sz cont _ _ hf _ _ hm =>
    cases hm with
    | stop | block => exact ⟨hx,.same rfl rfl rfl⟩
  | send _ _ _ hn =>
    obtain ⟨err,hr⟩ | hj := hn
    · cases hr
    · cases hj
  | sent c sndWnd hc =>
    refine ⟨hx,.same ?_ ?_ rfl⟩
    · change c.remWnd=_
      rw [hc]
    · change c.log=_
      rw [hc]

end Xmit

namespace Xmit
variable {a : XmitAnswers} {tlsMaxOverhead minToSend n fuel : Nat} {x y : Xmit} {state : TfwStreamXmitState}
  {next : XmitNext}

lemma state_of_blocked (hf : x.stream.xmit.isBlocked=false) (h : Visit a n x state next y)
    (hb : y.stream.xmit.isBlocked=true) : state=.makeDataFrames ∧ next=.exit := by
  have hne : y.stream.xmit.isBlocked≠x.stream.xmit.isBlocked := by simp [hf,hb]
  cases effect_visit h with
  | quiet _ _ _ hs => exact absurd hs hne
  | frame _ _ _ hm => exact absurd hm.blocked hne
  | block he =>
    subst he
    cases h with
    | exceeded => exact ⟨rfl,rfl⟩
    | make _ type len sz cont _ _ hfr _ _ hmk =>
      cases hmk with
      | stop => exact absurd rfl hne
      | block blocked _ ht => exact ⟨frameOf_eq_data (ht hb ▸ hfr),rfl⟩
    | send _ _ hq => exact absurd (by rw [hq.stream]) hne
    | sent => exact absurd rfl hne

/-- The least that is sent, if the body has so much left -/
def least (minToSend : Nat) (s : TfwStream) : Nat := min minToSend s.xmit.bLen

/-- The window of the stream is too small for the least that is sent. -/
def Narrow (minToSend : Nat) (s : TfwStream) : Prop := s.remWnd≤0 ∨ s.remWnd < least minToSend s

/-- The most that a frame may have for the socket -/
def frameRoom (tlsMaxOverhead : Nat) (x : Xmit) : Nat :=
  min tlsMaxPayloadSize (x.sndWnd-tlsMaxOverhead)-frameHeaderSize

/-- The stream's window carries exactly the least that is sent, and the frame cannot have so much for another reason:
the window of the connection, the frame size or the room in the socket. -/
def Edge (tlsMaxOverhead minToSend : Nat) (state : TfwStreamXmitState) (x : Xmit) : Prop :=
  state=.makeDataFrames ∧ frameHeaderSize+tlsMaxOverhead < x.sndWnd ∧ 0<x.ctx.remWnd ∧ 0<x.stream.remWnd ∧
    x.stream.remWnd=least minToSend x.stream ∧ least minToSend x.stream ≤ x.stream.xmit.bLen%2^32 ∧
      (wndToU32 x.ctx.remWnd < least minToSend x.stream ∨ x.ctx.rsettings.maxFrameSz < least minToSend x.stream ∨
        x.frameRoom tlsMaxOverhead < least minToSend x.stream)

lemma calcFrameLength_lt_iff (hw : x.stream.remWnd=least minToSend x.stream)
    (hb : least minToSend x.stream ≤ x.stream.xmit.bLen%2^32) :
    calcFrameLength x.ctx x.stream .data x.stream.xmit.bLen (x.frameRoom tlsMaxOverhead) <
        min minToSend (x.stream.xmit.bLen%2^32) ↔
      wndToU32 x.ctx.remWnd < least minToSend x.stream ∨ x.ctx.rsettings.maxFrameSz < least minToSend x.stream ∨
        x.frameRoom tlsMaxOverhead < least minToSend x.stream := by
  have hs : wndToU32 x.stream.remWnd=least minToSend x.stream := by
    unfold wndToU32
    omega
  rw [calcFrameLength,if_pos rfl,hs]
  unfold least at *
  omega

lemma narrow_visit_iff (hf : x.stream.xmit.isBlocked=false)
    (h : x.visit a tlsMaxOverhead minToSend n state=.ok (next,y)) :
    (y.stream.xmit.isBlocked=true → Narrow minToSend y.stream) ↔ ¬x.Edge tlsMaxOverhead minToSend state := by
  by_cases hst : state=.makeDataFrames
  swap
  · exact iff_of_true (fun hb => absurd (state_of_blocked hf (visit_ok h) hb).1 hst) fun he => hst he.1
  have hv := visit_ok h
  subst hst
  simp only [visit] at h
  split at h
  · rename_i hw
    obtain ⟨-,-,blocked,hb,rfl⟩ := adjustBlockedStreams_ok h
    refine iff_of_true (fun hbl => .inl ((hb hbl).2.trans (Int.natCast_nonneg _))) ?_
    rintro ⟨-,-,h₁,h₂,-⟩
    omega
  rename_i hw
  rw [not_or,Int.not_le,Int.not_le] at hw
  simp only [makeFrame] at h
  split_ifs at h with hsnd hlen
  · cases h
    refine iff_of_true (fun hb => absurd (hf.symm.trans hb) Bool.false_ne_true) ?_
    rintro ⟨-,h₁,-⟩
    omega
  · -- The mark depends on the stream's window and on the least that is sent.
    rw [adjustBlockedStreams,hf,if_neg Bool.false_ne_true] at h
    cases h
    simp only [setXmit,Edge,true_and,decide_eq_true_eq]
    rw [← frameRoom] at hlen
    change (x.stream.remWnd≤(min minToSend (x.stream.xmit.bLen%2^32) : Nat) → Narrow minToSend x.stream) ↔ _
    constructor
    · rintro hn ⟨-,-,-,h₁,h₂,-⟩
      have hm := hn (by unfold least at *; omega)
      unfold Narrow at hm
      omega
    · intro he hb
      by_contra hn
      rw [Narrow,not_or,Int.not_le,Int.not_lt] at hn
      have h₁ : x.stream.remWnd=least minToSend x.stream := by unfold least at *; omega
      have h₂ : least minToSend x.stream ≤ x.stream.xmit.bLen%2^32 := by unfold least at *; omega
      exact he ⟨by omega,hw.1,hw.2,h₁,h₂,(calcFrameLength_lt_iff h₁ h₂).1 hlen⟩
  · refine iff_of_true (fun hb => ?_) ?_
    · have hn := (state_of_blocked hf hv hb).2
      obtain ⟨⟨r,z⟩,-,hz⟩ := Outcome.bind_eq_ok.1 h
      cases r <;> cases hz <;> cases hn
    · rintro ⟨-,-,-,-,h₁,h₂,h₃⟩
      exact hlen ((calcFrameLength_lt_iff h₁ h₂).2 h₃)

/-- The states of the FSM that a call goes through, each with the variables at its start. -/
def visited (a : XmitAnswers) (tlsMaxOverhead minToSend : Nat) :
    Nat → TfwStreamXmitState → Xmit → List (TfwStreamXmitState×Xmit)
  | 0, _, _ => []
  | n+1, state, x =>
    (state,x)::match x.visit a tlsMaxOverhead minToSend n state with
      | .ok (.jmp state,x) => visited a tlsMaxOverhead minToSend n state x
      | _ => []

/-- A stream is marked blocked only when its own window cannot carry the least that is sent, exactly if no state of the
FSM was begun at the edge where it carries just that. -/
theorem blocked_by_own_window {r : Option Err} (hfree : x.stream.xmit.isBlocked=false)
    (h : x.loop a tlsMaxOverhead minToSend fuel state=.ok (r,y)) :
    (y.stream.xmit.isBlocked=true → y.stream.remWnd≤0 ∨ y.stream.remWnd < (min minToSend y.stream.xmit.bLen : Nat)) ↔
      ∀p∈x.visited a tlsMaxOverhead minToSend fuel state,¬p.2.Edge tlsMaxOverhead minToSend p.1 := by
  induction fuel generalizing x state with
  | zero => cases h
  | succ n ih =>
    rw [loop] at h
    rw [visited,List.forall_mem_cons]
    split at h
    · cases h
    · rename_i state' z hv
      have hz : z.stream.xmit.isBlocked=false := by
        by_contra hz
        cases (state_of_blocked hfree (visit_ok hv) (by simpa using hz)).2
      have hstep := (narrow_visit_iff hfree hv).1 fun hb => absurd (hz.symm.trans hb) Bool.false_ne_true
      rw [hv,ih hz h]
      exact (and_iff_right hstep).symm
    · rename_i z hv
      have hq := (finish_ok (Except.ok.inj h)).1
      rw [hv,hq.stream]
      refine (narrow_visit_iff hfree hv).trans (and_iff_left ?_).symm
      simp
    · rename_i z hv
      cases h
      rw [hv]
      refine (narrow_visit_iff hfree hv).trans (and_iff_left ?_).symm
      simp

/-- A response of 100 bytes whose headers are sent. -/
def narrowConn (window : Int) : Xmit where
  ctx := {recv:={maxFrameSz:=16384}, remWnd:=50}
  stream := {id:=1, state:=.remHalfClosed, remWnd:=window,xmit:={state:=.makeDataFrames, skbHead:=100, bLen:=100}}
  sndWnd := 1000

theorem blocked_by_own_window_small : ∃y,(narrowConn 30).loop {} 0 512 9 .makeDataFrames=.ok (none,y) ∧
    y.stream.xmit.isBlocked=true ∧ y.stream.remWnd=30 ∧ y.stream.xmit.bLen=100 ∧ (y.stream.remWnd≤0 ∨
      y.stream.remWnd<(min 512 y.stream.xmit.bLen : Nat)) := by
  have h : (narrowConn 30).loop {} 0 512 9 .makeDataFrames=.ok (none,_) := rfl
  refine ⟨_,h,rfl,rfl,rfl,(blocked_by_own_window rfl h).2 ?_ rfl⟩
  rw [show (narrowConn 30).visited {} 0 512 9 .makeDataFrames=[(.makeDataFrames,narrowConn 30)] from rfl]
  simp [Edge,narrowConn,least]

/-- The stream could carry the whole body, and only the connection cannot. -/
theorem blocked_by_connection_window : ∃y,(narrowConn 100).loop {} 0 512 9 .makeDataFrames=.ok (none,y) ∧
    y.stream.xmit.isBlocked=true ∧ ¬(y.stream.remWnd≤0 ∨ y.stream.remWnd<(min 512 y.stream.xmit.bLen : Nat)) :=
  ⟨_,rfl,rfl,by decide⟩
end Xmit
end VetWaf.H2
