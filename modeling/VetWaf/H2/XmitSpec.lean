import VetWaf.Lib.Outcome
import VetWaf.H2.StreamFsm
import VetWaf.H2.Xmit

namespace VetWaf.H2
open Nat

def dataLength (type : TfwFrameType) (length : Nat) : Nat := if type=.data then length else 0

/-- A frame was made of the response of the stream. -/
structure FrameMade (x : Xmit) (type : TfwFrameType) (length : Nat) (sent : Bool) (r : Option Err)
    (y : Xmit) : Prop where
  fsm : ∃ (flags : UInt8) (m : TfwHttpXmit) (f : Fsm),streamFsm {x.ctx with remWnd:=x.ctx.remWnd-dataLength type length}
        {x.stream with remWnd:=x.stream.remWnd-dataLength type length, xmit:=m} type flags true=some f ∧
      (sent=true ↔ f.res=.ok) ∧ y.ctx={f.ctx with
        log :=
          if type=.data then
            .data x.stream.id length x.ctx.remWnd x.stream.remWnd sent::x.ctx.log
          else x.ctx.log} ∧
      y.stream={f.stream with xmit:=y.stream.xmit} ∧
      (hasFlag flags fEndStream=true → y.stream.xmit.bLen=0) ∧
      (f.res=.termConn → r.isSome)
  blocked : y.stream.xmit.isBlocked=x.stream.xmit.isBlocked
  body : y.stream.xmit.bLen≤x.stream.xmit.bLen

variable {x y : Xmit} {type : TfwFrameType} {length : Nat} {sent : Bool} {r : Option Err} {next : XmitNext}
lemma FrameMade.purge (h : FrameMade x type length sent r y) : FrameMade x type length sent r y.purgeSendQueue := by
  obtain ⟨flags,m,f,hf,hse,hc,hs,-,ht⟩ := h.fsm
  refine ⟨⟨flags,m,f,hf,hse,hc,?_,fun _ => rfl,ht⟩,h.blocked,zero_le⟩
  simp only [Xmit.purgeSendQueue,Xmit.setXmit]
  rw [hs]

def XmitNext.err : XmitNext → Option Err
  | .ret err => some err
  | _ => none

inductive XmitEffect (x : Xmit) (next : XmitNext) (y : Xmit) : Prop
  | quiet : y.ctx={x.ctx with error:=y.ctx.error, closedStreams:=y.ctx.closedStreams} →
      y.ctx.closedStreams=x.ctx.closedStreams ∨ y.ctx.closedStreams=(x.ctx.streamAddClosed x.stream.id).closedStreams →
      y.stream={x.stream with xmit:=y.stream.xmit} →
      y.stream.xmit.isBlocked=x.stream.xmit.isBlocked → XmitEffect x next y
  | block : next=.exit → x.stream.xmit.isBlocked=false → y.ctx={x.ctx with
        blockedStreams:=x.ctx.blockedStreams+if y.stream.xmit.isBlocked then 1 else 0} →
      y.stream={x.stream with
        xmit:={x.stream.xmit with isBlocked:=y.stream.xmit.isBlocked}} → XmitEffect x next y
  | frame (type : TfwFrameType) (length : Nat) (sent : Bool) : FrameMade x type length sent next.err y →
      (type=.data → length≤x.ctx.remWnd ∧ length≤x.stream.remWnd) → XmitEffect x next y

lemma XmitEffect.refl (x : Xmit) (next : XmitNext) : XmitEffect x next x := .quiet rfl (.inl rfl) rfl rfl

lemma XmitEffect.congr {x' y' : Xmit} (h : XmitEffect x next y)
    (hx : x'.ctx=x.ctx ∧ x'.stream=x.stream) (hy : y'.ctx=y.ctx ∧ y'.stream=y.stream) : XmitEffect x' next y' := by
  obtain ⟨_,_,_,_,_⟩ := x'
  obtain ⟨_,_,_,_,_⟩ := y'
  obtain ⟨rfl,rfl⟩ := hx
  obtain ⟨rfl,rfl⟩ := hy
  cases h with
  | quiet hc hcl hs hb => exact .quiet hc hcl hs hb
  | block he hfr hc hs => exact .block he hfr hc hs
  | frame type length sent hm hf => exact .frame type length sent ⟨hm.fsm,hm.blocked,hm.body⟩ hf

lemma FrameMade.streams (h : FrameMade x type length sent r y) : y.ctx.streams=x.ctx.streams := by
  obtain ⟨flags,m,f,hf,-,hc,-⟩ := h.fsm
  rw [hc,(frame_streamFsm hf).ctx]

lemma FrameMade.id (h : FrameMade x type length sent r y) : y.stream.id=x.stream.id := by
  obtain ⟨flags,m,f,hf,-,-,hs,-⟩ := h.fsm
  rw [hs,(frame_streamFsm hf).stream]

section
variable (h : XmitEffect x next y)
include h
lemma XmitEffect.streams : y.ctx.streams=x.ctx.streams := by
  cases h with
  | quiet hc => rw [hc]
  | block _ _ hc => rw [hc]
  | frame type length sent hm => exact hm.streams

lemma XmitEffect.id : y.stream.id=x.stream.id := by
  cases h with
  | quiet _ _ hs => rw [hs]
  | block _ _ _ hs => rw [hs]
  | frame type length sent hm => exact hm.id

lemma XmitEffect.rsettings : y.ctx.rsettings=x.ctx.rsettings := by
  cases h with
  | quiet hc => rw [hc]
  | block _ _ hc => rw [hc]
  | frame type length sent hm =>
    obtain ⟨flags,m,f,hf,-,hc,-⟩ := hm.fsm
    rw [hc,(frame_streamFsm hf).ctx]

lemma XmitEffect.closed (hx : x.stream.state=.closed) : y.stream.state=.closed := by
  cases h with
  | quiet _ _ hs => rw [hs,hx]
  | block _ _ _ hs => rw [hs,hx]
  | frame type length sent hm =>
    obtain ⟨flags,m,f,hf,-,-,hs,-⟩ := hm.fsm
    rw [hs]
    exact (state_streamFsm hf (by simp [hx])).2 hx

lemma XmitEffect.not_idle (hx : x.stream.state ≠ .idle) : y.stream.state ≠ .idle := by
  cases h with
  | quiet _ _ hs =>
    rw [hs]
    exact hx
  | block _ _ _ hs =>
    rw [hs]
    exact hx
  | frame type length sent hm =>
    obtain ⟨flags,m,f,hf,-,-,hs,-⟩ := hm.fsm
    rw [hs]
    exact (state_streamFsm hf hx).1

end

lemma wndToU32_le {window : Int} (h : 0≤window) : (wndToU32 window : Int)≤window := by
  unfold wndToU32
  omega

lemma calcFrameLength_le {c : H2Ctx} {s : TfwStream} {len maxLen : Nat} (hc : 0<c.remWnd) (hs : 0<s.remWnd) :
    (calcFrameLength c s .data len maxLen : Int)≤c.remWnd ∧
      (calcFrameLength c s .data len maxLen : Int) ≤ s.remWnd := by
  have hcw := wndToU32_le (Int.le_of_lt hc)
  have hsw := wndToU32_le (Int.le_of_lt hs)
  simp only [calcFrameLength,if_true]
  omega

lemma H2Ctx.streamAddClosed_eq (c : H2Ctx) (id : Nat) :
    c.streamAddClosed id={c with closedStreams:=(c.streamAddClosed id).closedStreams} := by
  unfold streamAddClosed
  split_ifs <;> rfl

lemma H2Ctx.closedStreams_streamAddClosed_congr {c c' : H2Ctx} {id : Nat}
    (hi : c'.idleStreams=c.idleStreams) (hc : c'.closedStreams=c.closedStreams) :
    (c'.streamAddClosed id).closedStreams=(c.streamAddClosed id).closedStreams := by
  have hq : c'.queued id=c.queued id := by simp only [queued,hi,hc]
  unfold streamAddClosed
  rw [hq]
  split_ifs
  · exact hc
  · rw [hc]

lemma bLen_of_endStream {s : TfwStream} {trailers : Bool}
    (h : hasFlag (calcFrameFlags s type trailers) fEndStream=true) : s.xmit.bLen=0 := by
  by_contra hb
  revert h
  simp only [calcFrameFlags,hb,false_and,if_false]
  split_ifs <;> decide

lemma calcFrameLength_le_len (c : H2Ctx) (s : TfwStream) (type : TfwFrameType)
    (len maxLen : Nat) : calcFrameLength c s type len maxLen≤len := by
  have hl := mod_le len (2^32)
  simp only [calcFrameLength]
  split_ifs <;> omega

namespace Xmit
variable {a : XmitAnswers} {tlsMaxOverhead minToSend n : Nat} {x y : Xmit}
variable {next : XmitNext} {type : TfwFrameType} {len : Nat} {state : TfwStreamXmitState}
lemma effect_setXmit {m : TfwHttpXmit} (h : m.isBlocked=x.stream.xmit.isBlocked) : XmitEffect x next (x.setXmit m) :=
  .quiet rfl (.inl rfl) rfl h

lemma ctx_charge (x : Xmit) (type : TfwFrameType) (length : Nat) : (x.charge type length).1.ctx =
      {x.ctx with remWnd:=x.ctx.remWnd-dataLength type length} := by
  simp only [charge,dataLength]
  split_ifs <;> simp [setXmit]

lemma stream_charge (x : Xmit) (type : TfwFrameType) (length : Nat) : (x.charge type length).1.stream = {x.stream with
        remWnd:=x.stream.remWnd-dataLength type length
        xmit:=(x.charge type length).1.stream.xmit} := by
  simp only [charge,dataLength]
  split_ifs <;> simp [setXmit]

lemma isBlocked_charge (x : Xmit) (type : TfwFrameType) (length : Nat) :
    (x.charge type length).1.stream.xmit.isBlocked=x.stream.xmit.isBlocked := by
  simp only [charge]
  split_ifs <;> rfl

lemma bLen_charge (x : Xmit) (type : TfwFrameType) (length : Nat) :
    (x.charge type length).1.stream.xmit.bLen≤x.stream.xmit.bLen := by
  simp only [charge]
  split_ifs
  · exact sub_le _ _
  · exact le_rfl
  · exact le_rfl
  · exact le_rfl

@[simp] lemma stream_note (before : Xmit) (type : TfwFrameType) (length : Nat) (sent : Bool) :
    (x.note before type length sent).stream=x.stream := by
  unfold note
  split_ifs <;> rfl

section
variable {type : TfwFrameType} {length : Nat} {r : Option Err}
lemma frameMade_note {sent : Bool} {flags : UInt8} {m : TfwHttpXmit} {f : Fsm}
    (hf : streamFsm {x.ctx with remWnd:=x.ctx.remWnd-dataLength type length}
      {x.stream with remWnd:=x.stream.remWnd-dataLength type length, xmit:=m} type flags true=some f)
    (hm : m.isBlocked=x.stream.xmit.isBlocked) (hb : m.bLen≤x.stream.xmit.bLen)
    (he : hasFlag flags fEndStream=true → m.bLen=0) (hse : sent=true ↔ f.res=.ok)
    (ht : f.res=.termConn → r.isSome) (hc : y.ctx=f.ctx) (hs : y.stream=f.stream) :
    FrameMade x type length sent r (y.note x type length sent) := by
  have hfr := frame_streamFsm hf
  have hl : f.ctx.log=x.ctx.log := by rw [hfr.ctx]
  have hid : f.stream.id=x.stream.id := by rw [hfr.stream]
  have hx : f.stream.xmit=m := by rw [hfr.stream]
  refine ⟨⟨flags,m,f,hf,hse,?_,?_,?_,ht⟩,?_,?_⟩
  · unfold note
    split_ifs
    · rw [hc,hs,hid,hl]
    · rw [hc,← hl]
  · rw [stream_note,hs]
  · rw [stream_note,hs,hx]
    exact he
  · rw [stream_note,hs,hx,hm]
  · rw [stream_note,hs,hx]
    exact hb

lemma insertFrameHeader_ok (h : x.insertFrameHeader a n type length=.ok (r,y)) :
    r.isSome ∧ y=x ∨ ∃sent,FrameMade x type length sent r y := by
  simp only [insertFrameHeader] at h
  split at h
  · cases h
    exact .inl ⟨rfl,rfl⟩
  · right
    split at h
    · cases h
    · rename_i f hf
      have he : hasFlag (calcFrameFlags (x.charge type length).1.stream type
          (x.charge type length).2) fEndStream=true → (x.charge type length).1.stream.xmit.bLen=0 := bLen_of_endStream
      simp only [setXmit] at hf
      rw [ctx_charge,stream_charge] at hf
      rw [stream_charge] at he
      have hb := x.isBlocked_charge type length
      have hbo := x.bLen_charge type length
      split at h
      · rename_i hr
        cases h
        exact ⟨true,frameMade_note hf hb hbo he (by simp [hr]) (by simp [hr]) rfl rfl⟩
      · rename_i hr
        cases h
        refine ⟨false,FrameMade.purge ?_⟩
        exact frameMade_note hf hb hbo he (by simp [hr]) (by simp [hr]) rfl rfl
      · rename_i hr
        cases h
        refine ⟨false,FrameMade.purge ?_⟩
        exact frameMade_note hf hb hbo he (by simp [hr]) (by simp [hr]) rfl rfl
      · rename_i hr
        cases h
        exact ⟨false,frameMade_note hf hb hbo he (by simp [hr]) (by simp) rfl rfl⟩

end

def stopBlocked (x : Xmit) (blocked : Bool) : Xmit := {x.setXmit {x.stream.xmit with isBlocked:=blocked} with
    ctx:={x.ctx with blockedStreams:=x.ctx.blockedStreams+(if blocked then 1 else 0)}
    stop:=true}

lemma adjustBlockedStreams_ok (h : x.adjustBlockedStreams len type=.ok (next,y)) :
    next=.exit ∧ x.stream.xmit.isBlocked=false ∧ ∃blocked,(blocked=true → type=.data ∧ x.stream.remWnd≤len) ∧
      y=x.stopBlocked blocked := by
  unfold adjustBlockedStreams at h
  split at h
  · cases h
  · rename_i hb
    cases h
    exact ⟨rfl,by simpa using hb,_,of_decide_eq_true,rfl⟩

lemma effect_stopBlocked (hf : x.stream.xmit.isBlocked=false) (blocked : Bool) :
    XmitEffect x .exit (x.stopBlocked blocked) := .block rfl hf rfl rfl

inductive MakeFrame (a : XmitAnswers) (n : Nat) (x : Xmit) (type : TfwFrameType) (len : Nat)
    (sz : Except Err Nat) : XmitNext → Xmit → Prop
  | stop : MakeFrame a n x type len sz .exit {x with stop:=true}
  | block (blocked : Bool) : x.stream.xmit.isBlocked=false → (blocked=true → type=.data) →
      MakeFrame a n x type len sz .exit (x.stopBlocked blocked)
  | fail (err : Err) : MakeFrame a n x type len sz (.ret err) x
  | error (k maxLen : Nat) (err : Err) (y : Xmit) : sz=.ok k → (x.setXmit {x.stream.xmit with
          hLen:=x.stream.xmit.hLen+k, skbHead:=x.stream.xmit.skbHead+k}).insertFrameHeader
        a n type (calcFrameLength x.ctx x.stream type len maxLen)=.ok (some err,y) →
      MakeFrame a n x type len sz (.ret err) y
  | frame (k maxLen sndWnd : Nat) (y : Xmit) : sz=.ok k → (x.setXmit {x.stream.xmit with
          hLen:=x.stream.xmit.hLen+k, skbHead:=x.stream.xmit.skbHead+k}).insertFrameHeader
        a n type (calcFrameLength x.ctx x.stream type len maxLen)=.ok (none,y) →
      MakeFrame a n x type len sz (.jmp .sendFrames) {y with sndWnd:=sndWnd}

lemma makeFrame_ok {sz : Except Err Nat} (h : makeFrame a tlsMaxOverhead minToSend n x type len sz=.ok (next,y)) :
    MakeFrame a n x type len sz next y := by
  simp only [makeFrame] at h
  split_ifs at h with hw
  · cases h
    exact .stop
  · obtain ⟨rfl,hf,blocked,ht,rfl⟩ := adjustBlockedStreams_ok h
    exact .block blocked hf fun hb => (ht hb).1
  · split at h
    · cases h
      exact .fail _
    · obtain ⟨⟨r,x'⟩,hi,hn⟩ := Outcome.bind_eq_ok.1 h
      cases r with
      | some err =>
        cases hn
        exact .error _ _ _ _ rfl hi
      | none =>
        cases hn
        exact .frame _ _ _ _ rfl hi

lemma effect_makeFrame {sz : Except Err Nat} (hw : type=.data → 0<x.ctx.remWnd ∧ 0<x.stream.remWnd)
    (h : MakeFrame a n x type len sz next y) : XmitEffect x next y := by
  have hf : ∀ (k maxLen : Nat) (next : XmitNext) (y : Xmit),(x.setXmit {x.stream.xmit with
          hLen:=x.stream.xmit.hLen+k, skbHead:=x.stream.xmit.skbHead+k}).insertFrameHeader
        a n type (calcFrameLength x.ctx x.stream type len maxLen)=.ok (next.err,y) →
      XmitEffect x next y := by
    intro k maxLen next y hi
    obtain ⟨-,rfl⟩ | ⟨sent,hm⟩ := insertFrameHeader_ok hi
    · exact effect_setXmit rfl
    · refine .frame type _ sent ⟨hm.fsm,hm.blocked,hm.body⟩ ?_
      intro ht
      subst ht
      exact calcFrameLength_le (hw rfl).1 (hw rfl).2
  cases h with
  | stop => exact (XmitEffect.refl x .exit).congr ⟨rfl,rfl⟩ ⟨rfl,rfl⟩
  | block blocked hfe => exact effect_stopBlocked hfe blocked
  | fail err => exact .refl x _
  | error k maxLen err _ _ hi => exact hf k maxLen (.ret err) y hi
  | frame k maxLen sndWnd y' _ hi => exact (hf k maxLen (.jmp .sendFrames) y' hi).congr ⟨rfl,rfl⟩ ⟨rfl,rfl⟩

structure Queued (x y : Xmit) : Prop where
  ctx : y.ctx=x.ctx
  stream : y.stream={x.stream with
    xmit:={x.stream.xmit with
      skbHead:=y.stream.xmit.skbHead
      postponed:=y.stream.xmit.postponed
      frameLength:=y.stream.xmit.frameLength
      state:=y.stream.xmit.state}}
  taken : ∃k≤x.stream.xmit.frameLength,y.stream.xmit.frameLength=x.stream.xmit.frameLength-k ∧
      y.stream.xmit.skbHead=x.stream.xmit.skbHead-k
  sndWnd : y.sndWnd≤x.sndWnd
  isTrailerCont : y.isTrailerCont=x.isTrailerCont

lemma Queued.refl (x : Xmit) : Queued x x := ⟨rfl,rfl,⟨0,zero_le,rfl,rfl⟩,le_rfl,rfl⟩

lemma Queued.trans {z : Xmit} (hx : Queued x y) (hy : Queued y z) : Queued x z := by
  refine ⟨hy.ctx.trans hx.ctx,?_,?_,le_trans hy.sndWnd hx.sndWnd,hy.isTrailerCont.trans hx.isTrailerCont⟩
  · rw [hy.stream,hx.stream]
  · obtain ⟨k,hk,hf,hh⟩ := hx.taken
    obtain ⟨l,hl,hf',hh'⟩ := hy.taken
    exact ⟨k+l,by omega,by omega,by omega⟩

lemma Queued.effect (h : Queued x y) (next : XmitNext) : XmitEffect x next y := by
  refine .quiet ?_ ?_ ?_ ?_
  · rw [h.ctx]
  · rw [h.ctx]
    exact .inl rfl
  · rw [h.stream]
  · rw [h.stream]

lemma queued_entail (hl : len≤x.stream.xmit.frameLength) : Queued x (x.entail len) :=
  ⟨rfl,rfl,⟨len,hl,rfl,rfl⟩,le_rfl,rfl⟩

lemma queued_sendPostponed (h : x.sendPostponed a n=.ok y) : Queued x y := by
  unfold sendPostponed at h
  split at h
  · cases h
  · cases h
    exact ⟨rfl,rfl,⟨0,zero_le,rfl,rfl⟩,sub_le _ _,rfl⟩

def nextFrame (x : Xmit) : TfwStreamXmitState :=
  let m := x.stream.xmit
  if m.hLen≠0 then .makeContinuationFrames
  else if m.bLen≠0 then .makeDataFrames
  else if m.tLen≠0 then
    if x.isTrailerCont then .makeTrailerContinuationFrames else .makeTrailerFrames
  else .makeFramesFinish

lemma nextFrame_of_queued (h : Queued x y) : y.nextFrame=x.nextFrame := by
  have hLen : y.stream.xmit.hLen=x.stream.xmit.hLen := by rw [h.stream]
  have bLen : y.stream.xmit.bLen=x.stream.xmit.bLen := by rw [h.stream]
  have tLen : y.stream.xmit.tLen=x.stream.xmit.tLen := by rw [h.stream]
  simp only [nextFrame,h.isTrailerCont,hLen,bLen,tLen]

lemma sendFrames_ok (h : x.sendFrames a n=(next,y)) : Queued x y ∧ ((∃err,next=.ret err) ∨ next=.jmp x.nextFrame) := by
  unfold sendFrames at h
  split at h
  · cases h
    exact ⟨.refl x,.inl ⟨_,rfl⟩⟩
  · rename_i len _
    have he : Queued x (x.entail (min len x.stream.xmit.frameLength)) := queued_entail (min_le_right _ _)
    rw [← nextFrame_of_queued he]
    revert he h
    generalize x.entail (min len x.stream.xmit.frameLength)=z
    intro h hz
    simp only at h
    split at h
    · rename_i hh
      cases h
      exact ⟨hz,.inr (by rw [nextFrame,if_pos hh])⟩
    · rename_i hh
      split at h
      · cases h
        exact ⟨hz,.inl ⟨_,rfl⟩⟩
      · rename_i z' hp
        have hz' : Queued z z' := by
          split_ifs at hp
          · exact queued_sendPostponed hp
          · cases hp
            exact .refl z
        have hc := hz'.isTrailerCont
        simp only [nextFrame,if_neg hh]
        split_ifs at h with hb ht hn <;> cases h <;> exact ⟨hz.trans hz',.inr (by simp_all)⟩

def frameOf (x : Xmit) : TfwStreamXmitState → Option (TfwFrameType×Nat)
  | .makeHeadersFrames => some (.headers,x.stream.xmit.hLen)
  | .makeContinuationFrames => some (.continuation,x.stream.xmit.hLen)
  | .makeDataFrames => some (.data,x.stream.xmit.bLen)
  | .makeTrailerFrames => some (.headers,x.stream.xmit.tLen)
  | .makeTrailerContinuationFrames => some (.continuation,x.stream.xmit.tLen)
  | _ => none

inductive Visit (a : XmitAnswers) (n : Nat) (x : Xmit) : TfwStreamXmitState → XmitNext → Xmit → Prop
  | encode (hLen bLen tLen : Nat) : Visit a n x .encodeHeaders (.jmp .releaseResponse) (x.setXmit {x.stream.xmit with
          skbHead:=hLen+bLen+tLen, hLen:=hLen, bLen:=bLen, tLen:=tLen})
  | encodeError (err : Err) : Visit a n x .encodeHeaders (.ret err) (x.setXmit {x.stream.xmit with resp:=false})
  | release : Visit a n x .releaseResponse (.jmp .makeHeadersFrames) (x.setXmit {x.stream.xmit with resp:=false})
  | exceeded (blocked : Bool) : x.stream.xmit.isBlocked=false →
      Visit a n x .makeDataFrames .exit (x.stopBlocked blocked)
  | make (state : TfwStreamXmitState) (type : TfwFrameType) (len : Nat) (sz : Except Err Nat)
      (cont : Bool) (next : XmitNext) (y : Xmit) : x.frameOf state=some (type,len) →
      (type=.data → 0<x.ctx.remWnd ∧ 0<x.stream.remWnd) → (sz=.ok 0 ∨ state=.makeHeadersFrames) →
      MakeFrame a n {x with isTrailerCont:=cont} type len sz next y → Visit a n x state next y
  | send (next : XmitNext) (y : Xmit) : Queued x y → (∃err,next=.ret err) ∨ next=.jmp x.nextFrame →
      Visit a n x .sendFrames next y
  | unsent (err : Err) : Visit a n x .makeFramesFinish (.ret err) x
  | sent (c : H2Ctx) (sndWnd : Nat) : c={x.ctx with error:=c.error, closedStreams:=c.closedStreams} →
      c.closedStreams=x.ctx.closedStreams ∨ c.closedStreams=(x.ctx.streamAddClosed x.stream.id).closedStreams →
      Visit a n x .makeFramesFinish .exit
        {x.setXmit {x.stream.xmit with skbHead:=0} with ctx:=c, sndWnd:=sndWnd}

lemma visit_makeFramesFinish (h : x.makeFramesFinish a n=.ok (next,y)) : Visit a n x .makeFramesFinish next y := by
  unfold makeFramesFinish at h
  simp only at h
  split at h
  · cases h
  · split at h
    · cases h
      exact .unsent _
    · generalize hc : (if x.ctx.error=some x.stream.id then {x.ctx with error:=none}
        else x.ctx)=c at h
      have hct : c={x.ctx with error:=c.error} := by
        rw [← hc]
        split_ifs <;> rfl
      cases h
      split_ifs
      · refine .sent c _ ?_ ?_
        · rw [hct]
        · rw [hct]
          exact .inl rfl
      · refine .sent _ _ ?_ ?_
        · rw [c.streamAddClosed_eq,hct]
        · refine .inr (H2Ctx.closedStreams_streamAddClosed_congr ?_ ?_)
          · rw [hct]
          · rw [hct]

lemma visit_ok (h : x.visit a tlsMaxOverhead minToSend n state=.ok (next,y)) : Visit a n x state next y := by
  unfold visit at h
  cases state with
  | encodeHeaders =>
    simp only at h
    split at h
    · cases h
    · split at h <;> cases h
      · exact .encodeError _
      · exact .encode _ _ _
  | releaseResponse =>
    simp only at h
    split at h
    · cases h
    · cases h
      exact .release
  | makeHeadersFrames => exact .make _ _ _ _ x.isTrailerCont _ _ rfl (by simp) (.inr rfl) (makeFrame_ok h)
  | makeContinuationFrames => exact .make _ _ _ _ x.isTrailerCont _ _ rfl (by simp) (.inl rfl) (makeFrame_ok h)
  | makeDataFrames =>
    simp only at h
    split at h
    · obtain ⟨rfl,hf,blocked,-,rfl⟩ := adjustBlockedStreams_ok h
      exact .exceeded blocked hf
    · rename_i hw
      rw [not_or,Int.not_le,Int.not_le] at hw
      exact .make _ _ _ _ x.isTrailerCont _ _ rfl (fun _ => hw) (.inl rfl) (makeFrame_ok h)
  | makeTrailerFrames | makeTrailerContinuationFrames =>
    exact .make _ _ _ _ true _ _ rfl (by simp) (.inl rfl) (makeFrame_ok h)
  | sendFrames =>
    obtain ⟨hq,hn⟩ := sendFrames_ok (Except.ok.inj h)
    exact .send _ _ hq hn
  | makeFramesFinish => exact visit_makeFramesFinish h

lemma effect_visit (h : Visit a n x state next y) : XmitEffect x next y := by
  cases h with
  | encode | encodeError | release => exact effect_setXmit rfl
  | exceeded blocked hf => exact effect_stopBlocked hf blocked
  | make _ type len sz cont _ _ _ hw _ hm =>
    have he : XmitEffect {x with isTrailerCont:=cont} next y := effect_makeFrame hw hm
    exact he.congr ⟨rfl,rfl⟩ ⟨rfl,rfl⟩
  | send _ _ hq => exact hq.effect next
  | unsent => exact .refl x _
  | sent c sndWnd hct hc => exact .quiet hct hc rfl rfl

lemma finish_ok {r : Option Err} (h : x.finish a n state=(r,y)) :
    Queued x y ∧ y.stream.xmit.state=state ∧ (r=none → y.stream.xmit.frameLength=0) := by
  have hq : Queued x (x.setXmit {x.stream.xmit with state:=state}) := ⟨rfl,rfl,⟨0,zero_le,rfl,rfl⟩,le_rfl,rfl⟩
  have hst : (x.setXmit {x.stream.xmit with state:=state}).stream.xmit.state=state := rfl
  unfold finish at h
  revert hq hst h
  generalize x.setXmit {x.stream.xmit with state:=state}=z
  intro h hz hst
  have he : Queued x (z.entail z.stream.xmit.frameLength) := hz.trans (queued_entail le_rfl)
  have hem : (z.entail z.stream.xmit.frameLength).stream.xmit.frameLength=0 := Nat.sub_self _
  simp only at h
  split at h
  · rename_i hf
    cases h
    exact ⟨hz,hst,fun _ => hf⟩
  · split at h
    · cases h
      exact ⟨hz,hst,by simp⟩
    · split at h
      · split at h
        · cases h
          exact ⟨he,hst,by simp⟩
        · rename_i z' hp
          cases h
          unfold sendPostponed at hp
          split at hp <;> cases hp
          refine ⟨he.trans ?_,hst,fun _ => hem⟩
          exact ⟨rfl,rfl,⟨0,zero_le,rfl,rfl⟩,Nat.sub_le _ _,rfl⟩
      · cases h
        exact ⟨he,hst,fun _ => hem⟩
end Xmit
end VetWaf.H2
