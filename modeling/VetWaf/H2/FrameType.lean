import VetWaf.H2.FrameSpec

namespace VetWaf.H2
open List Nat
open Rfc9113 (Frame)
open Outcome (Meets)

structure Unpacked (f : Frame) (c : TfwH2Ctx) : Prop where
  hdr : c.hdr=f.hdr
  state : c.state=.recvFrameHeader
  toRead : c.toRead=0
  padlen : c.padlen=0
  priority : c.priority.streamId=0

/-- The state that was chosen for the payload is the right one to go on from. -/
structure Typed (f : Frame) (e : Answers) (c : TfwH2Ctx) : Prop where
  type : c.hdr.type=f.hdr.type
  more : c.toRead≠0 → At f e [] 0 c.state {c with rlen:=0} frameHeaderSize
  empty : c.toRead=0 → f.payload=[]
  app : c.toRead=0 → c.state ≠ .ignoreFrameData → c.hdr.type=.headers ∨ c.hdr.type=.continuation ∨ c.hdr.type=.data →
    c.state.app=true ∧ At f e [] 0 c.state {c with rlen:=0} frameHeaderSize

section
variable {f : Frame} {e : Answers} {c c' : TfwH2Ctx}
lemma size_nil (f : Frame) : size f []=frameHeaderSize+f.payload.length := by simp [size]
lemma Unpacked.length (h : Unpacked f c) : c.hdr.length=f.payload.length := by rw [h.hdr,f.hdr_length]

lemma typed_ignored (ht : c'.hdr.type=f.hdr.type) (hst : c'.state=.ignoreFrameData)
    (hr : c'.toRead=f.payload.length) : Typed f e c' where
  type := ht
  more := by
    intro hne
    rw [hst]
    refine ⟨pos_of_ne_zero hne,?_⟩
    change frameHeaderSize+c'.toRead=size f []+0
    rw [size_nil,hr]
    rfl
  empty := by
    intro h0
    exact length_eq_zero_iff.1 (hr ▸ h0)
  app := by
    intro _ hne
    exact absurd hst hne

lemma typed_control {st : FrameState} (ht : c'.hdr.type=f.hdr.type) (hst : c'.state=st)
    (hr : c'.toRead=f.payload.length) (hl : c'.hdr.length=0) (hp : 0<f.payload.length)
    (hs : f.payload.length≤frameHeaderSize) (ha : AtPart f [] c'.toRead {c' with rlen:=0} frameHeaderSize →
      At f e [] 0 st {c' with rlen:=0} frameHeaderSize) : Typed f e c' where
  type := ht
  more := by
    intro hne
    subst hst
    apply ha
    refine ⟨rfl,by omega,pos_of_ne_zero hne,?_,?_⟩
    · exact Int.le_of_eq hl.symm
    · simp only [hl,size_nil]
      omega
  empty := by
    intro h0
    omega
  app := by
    intro h0
    omega

lemma typed_app {st : FrameState} (hst : c'.state=st) (ha : st.app=true)
    (hat : At f e [] 0 st {c' with rlen:=0} frameHeaderSize)
    (ht : c'.hdr.type=f.hdr.type) (hr : c'.toRead=f.payload.length) : Typed f e c' where
  type := ht
  more := by
    intro _
    subst hst
    exact hat
  empty := by
    intro h0
    exact length_eq_zero_iff.1 (hr ▸ h0)
  app := by
    intro _ _ _
    subst hst
    exact ⟨ha,hat⟩

lemma typed_part (ht : c'.hdr.type=f.hdr.type) (hne : c'.toRead≠0)
    (ha : At f e [] 0 c'.state {c' with rlen:=0} frameHeaderSize) : Typed f e c' where
  type := ht
  more := fun _ => ha
  empty := fun h0 => absurd h0 hne
  app := fun h0 => absurd h0 hne

namespace TfwH2Ctx
variable {d : TfwH2Ctx} {st : FrameState}
section
variable (hc : Unpacked f c)
include hc
variable (hhdr : d.hdr=c.hdr)
include hhdr
lemma typed_setToReadVerify (hr : d.toRead=c.toRead) (cur : Option Nat) :
    Typed f e {d.setToReadVerify .ignoreFrameData with curStream:=cur} := by
  have hl := hc.length
  rw [← hhdr] at hl
  have ht : d.hdr.type=f.hdr.type := by rw [hhdr,hc.hdr]
  unfold setToReadVerify
  split_ifs with h
  · apply typed_ignored
    · exact ht
    · rfl
    · simp [setToRead,hl]
  · apply typed_ignored
    · exact ht
    · rfl
    · change d.toRead=_
      rw [hr,hc.toRead]
      omega

lemma typed_recvAll_ignored : Typed f e (d.recvAll .ignoreFrameData) := by
  apply typed_ignored
  · simp [recvAll,setToRead,hhdr,hc.hdr]
  · rfl
  · simp [recvAll,setToRead,hhdr,hc.length]

lemma meets_recvOnStream (hr : d.toRead=c.toRead) (hcu : d.curStream.isSome)
    (hok : Typed f e (d.recvAll st)) : Meets Coded (Typed f e) (recvOnStream e st d) := by
  apply meets_streamRecvProcess hcu
  · intro _
    exact hok
  · intro _ cur
    exact typed_setToReadVerify hc hhdr hr cur

lemma typed_recvAll_control {n : Nat} (hl : c.hdr.length=n) (hn : 0<n) (hs : n≤frameHeaderSize)
    (ha : AtPart f [] (d.recvAll st).toRead {d.recvAll st with rlen:=0} frameHeaderSize →
      At f e [] 0 st {d.recvAll st with rlen:=0} frameHeaderSize) : Typed f e (d.recvAll st) := by
  have hp : f.payload.length=n := by
    have := hc.length
    omega
  refine @typed_control f e _ st ?_ ?_ ?_ ?_ ?_ ?_ ?_
  · simp [recvAll,setToRead,hhdr,hc.hdr]
  · rfl
  · simp [recvAll,setToRead,hhdr,hc.length]
  · rfl
  · omega
  · omega
  · exact ha

end

lemma isSome_of_isNone_eq_false {o : Option Nat} (h : ¬o.isNone) : o.isSome := by
  cases o with
  | none => simp at h
  | some _ => rfl

section
variable (hc : Unpacked f c)
include hc
lemma meets_priorityTypeProcess : Meets Coded (Typed f e) (priorityTypeProcess e c) := by
  have hco {d : TfwH2Ctx} (hhdr : d.hdr=c.hdr) (hl : c.hdr.length=framePrioritySize)
      (hcu : d.curStream.isSome) : Typed f e (d.recvAll .recvFramePriority) := by
    apply typed_recvAll_control hc hhdr hl (by decide) (by decide)
    intro hp
    exact ⟨rfl,hcu,_,hp⟩
  unfold priorityTypeProcess
  simp only
  split_ifs with hb hs hid hm hcr
  · exact coded_code _
  · have hl : c.hdr.length=framePrioritySize := not_not.1 (not_or.1 hb).2
    exact meets_recvOnStream (d := c.findStream e) hc rfl rfl hs (hco (d := c.findStream e) rfl hl hs)
  · exact coded_code _
  · exact coded_code _
  · have hl : c.hdr.length=framePrioritySize := not_not.1 (not_or.1 hb).2
    refine meets_recvOnStream (d := {c.findStream e with curStream:=some c.hdr.streamId}) hc rfl rfl rfl ?_
    exact hco rfl hl rfl
  · exact typed_recvAll_ignored hc rfl

lemma meets_wndUpdateTypeProcess : Meets Coded (Typed f e) (wndUpdateTypeProcess e c) := by
  have hco {d : TfwH2Ctx} (hhdr : d.hdr=c.hdr) (hl : c.hdr.length=frameWndUpdateSize) :
      Typed f e (d.recvAll .recvFrameWndUpdate) := by
    apply typed_recvAll_control hc hhdr hl (by decide) (by decide)
    intro hp
    exact ⟨rfl,_,hp⟩
  unfold wndUpdateTypeProcess
  simp only
  split_ifs with hb hid hs
  · exact coded_code _
  · have hl : c.hdr.length=frameWndUpdateSize := not_not.1 (not_or.1 hb).1
    exact meets_recvOnStream (d := c.findStream e) hc rfl rfl hs (hco (d := c.findStream e) rfl hl)
  · exact typed_recvAll_ignored hc rfl
  · exact hco rfl (not_not.1 (not_or.1 hb).1)

lemma meets_rstStreamTypeProcess : Meets Coded (Typed f e) (rstStreamTypeProcess e c) := by
  unfold rstStreamTypeProcess
  simp only
  split_ifs with hb hs
  · exact coded_code _
  · have hl : c.hdr.length=frameRstStreamSize := not_not.1 (not_or.1 (not_or.1 hb).2).1
    apply meets_recvOnStream (d := c.findStream e) hc rfl rfl hs
    apply typed_recvAll_control (d := c.findStream e) hc rfl hl (by decide) (by decide)
    intro hp
    exact ⟨rfl,hs,_,hp⟩
  · exact typed_recvAll_ignored hc rfl

lemma meets_pingTypeProcess : Meets Coded (Typed f e) (pingTypeProcess c) := by
  unfold pingTypeProcess
  split_ifs with hb
  · exact coded_code _
  · have hl : c.hdr.length=framePingSize := not_not.1 (not_or.1 hb).2
    apply typed_recvAll_control hc rfl hl (by decide) (by decide)
    intro hp
    exact ⟨rfl,_,hp⟩

lemma meets_settingsTypeProcess (ht : f.hdr.type=.settings) : Meets Coded (Typed f e) (settingsTypeProcess c) := by
  have hl := hc.length
  have hct : c.hdr.type=f.hdr.type := by rw [hc.hdr]
  unfold settingsTypeProcess
  split_ifs with hb hne
  · exact coded_code _
  · have hm : c.hdr.length%6=0 := not_not.1 (not_or.1 (not_or.1 hb).2).1
    have hp : AtPart f [] frameSettingsEntrySize
        {c.nextSettingsEntry with state:=.recvFrameSettings, rlen:=0} frameHeaderSize := by
      refine ⟨?_,by decide,succ_pos _,?_,?_⟩
      · simp [nextSettingsEntry,hne]
      · simp only [nextSettingsEntry,if_pos hne,frameSettingsEntrySize]
        omega
      · simp only [nextSettingsEntry,if_pos hne,size_nil,frameSettingsEntrySize]
        omega
    apply typed_part
    · simpa [nextSettingsEntry,hne] using hct
    · simp [nextSettingsEntry,hne,frameSettingsEntrySize]
    · refine ⟨?_,hp⟩
      simp only [nextSettingsEntry,if_pos hne,frameSettingsEntrySize]
      omega
  · have he : f.payload=[] := length_eq_zero_iff.1 (by omega)
    refine ⟨hct,fun h => absurd rfl h,fun _ => he,?_⟩
    intro _ _ ha
    simp [hct,ht] at ha

lemma meets_goawayTypeProcess : Meets Coded (Typed f e) (goawayTypeProcess c) := by
  have hl := hc.length
  unfold goawayTypeProcess
  split_ifs with hb
  · exact coded_code _
  · have hge : ¬c.hdr.length<frameGoawaySize := (not_or.1 hb).2
    apply typed_part
    · change c.hdr.type=_
      rw [hc.hdr]
    · exact succ_ne_zero _
    · refine ⟨rfl,by decide,succ_pos _,?_,?_⟩
      · simp only [frameGoawaySize] at hge ⊢
        omega
      · simp only [size_nil,frameGoawaySize]
        omega

end

/-- The context at the first byte of application data or of what precedes it. -/
structure AppStart (f : Frame) (e : Answers) (d : TfwH2Ctx) : Prop where
  hdr : d.hdr=f.hdr
  padlen : d.padlen=0
  priority : d.priority.streamId=0
  dataOff : d.dataOff=frameHeaderSize
  plen : d.plen=f.payload.length
  stream : f.hdr.streamId≠0
  refused : f.refused e=false

section
variable (h : AppStart f e d)
include h
lemma AppStart.length : d.hdr.length=f.payload.length := by rw [h.hdr,f.hdr_length]

lemma AppStart.hdrOf {d' : TfwH2Ctx} (ht : d'.hdr.type=d.hdr.type)
    (hf : d'.hdr.flags=d.hdr.flags) (hid : d'.hdr.streamId=d.hdr.streamId) : HdrOf f d' := by
  rw [h.hdr] at ht hf hid
  exact ⟨ht,hf,hid⟩

lemma typed_recvAll_app (hp : f.padded=false) (hst : st=.recvHeader ∨ st=.recvCont ∨ st=.recvData)
    (hpr : f.prioritized=false) (hcu : st ≠ .recvHeader → d.curStream.isSome) : Typed f e (d.recvAll st) := by
  have hl := h.length
  have hpd : f.padLength=0 := by simp [Frame.padLength,hp]
  have hr : (d.recvAll st).toRead=f.payload.length := by simp [recvAll,setToRead,hl]
  have ha : AtApp f e [] 0 st {d.recvAll st with rlen:=0} frameHeaderSize := {h.hdrOf rfl rfl rfl with
      state:=rfl
      length:=rfl
      rlen:=rfl
      padlen:=h.padlen.trans hpd.symm
      read:=by
        change frameHeaderSize+(d.recvAll st).toRead+d.padlen=size f []
        rw [hr,h.padlen,size_nil]
        rfl
      refused:=h.refused
      content:=fun hne => absurd h.padlen hne
      dataOff:=by
        change 0+d.dataOff≤frameHeaderSize
        rw [h.dataOff]
        omega
      plen:=by
        intro h0
        change d.plen=0
        rw [h.plen,← hr]
        exact h0
      depends:=by
        intro _
        have hs : f.selfDependent=false:=by simp [Frame.selfDependent,hpr]
        have hne : d.priority.streamId≠d.hdr.streamId:=by
          rw [h.priority,h.hdr]
          exact h.stream.symm
        simp [hs,recvAll,setToRead,hne]
      curStream:=hcu}
  obtain rfl | rfl | rfl := hst
  · exact typed_app rfl rfl ha ha.type hr
  · exact typed_app rfl rfl ha ha.type hr
  · exact typed_app rfl rfl ha ha.type hr

lemma meets_recvPadded (hp : f.padded=true)
    (hcu : f.hdr.type=.data → d.curStream.isSome) : Meets Coded (Typed f e) (recvPadded d) := by
  have hl := h.length
  apply meets_recvPart
  intro hle
  apply typed_part
  · exact (h.hdrOf rfl rfl rfl).type
  · exact succ_ne_zero _
  · refine ⟨rfl,rfl,⟨h.hdrOf rfl rfl rfl,⟨rfl,by decide,succ_pos _,?_,?_⟩,hp,h.refused,
      h.dataOff,rfl,h.priority,h.stream,hcu⟩⟩
    · change 0≤d.hdr.length-(1 : Nat)
      omega
    · simp only [size_nil]
      omega

lemma meets_recvPriority_first (hp : f.padded=false)
    (hpr : f.prioritized=true) : Meets Coded (Typed f e) (recvPriority d) := by
  have hl := h.length
  have hld : f.lead=0 := by simp [Frame.lead,hp]
  have hpd : f.padLength=0 := by simp [Frame.padLength,hp]
  apply meets_recvPart
  intro hle
  apply typed_part
  · exact (h.hdrOf rfl rfl rfl).type
  · exact succ_ne_zero _
  · refine ⟨rfl,rfl,⟨h.hdrOf rfl rfl rfl,rfl,succ_pos _,?_,?_,?_,?_,?_,hpr,h.refused,?_⟩⟩
    · simp only [Frame.content,hld,hpd]
      omega
    · simp only
      omega
    · simp [hld]
    · simp
    · exact h.padlen.trans hpd.symm
    · exact h.dataOff

end

variable (hc : Unpacked f c)
include hc
lemma appStart_findStream (hid : c.hdr.streamId≠0)
    (hr : f.refused e=false) : AppStart f e (c.findStream e).appPayload where
  hdr := hc.hdr
  padlen := hc.padlen
  priority := hc.priority
  dataOff := rfl
  plen := by
    change c.hdr.length.toNat=_
    rw [hc.length]
    rfl
  stream := hc.hdr ▸ hid
  refused := hr

lemma meets_dataTypeProcess (ht : f.hdr.type=.data) : Meets Coded (Typed f e) (dataTypeProcess e c) := by
  unfold dataTypeProcess
  split_ifs with hb
  · exact coded_code _
  · obtain ⟨hid,-,hf⟩ : c.hdr.streamId≠0 ∧ ¬c.hdr.streamId > c.lstreamId ∧ ¬(!e.found)=true :=
      ⟨(not_or.1 hb).1,not_or.1 (not_or.1 hb).2⟩
    have hcu : (c.findStream e).appPayload.curStream.isSome := by
      have hf' : e.found=true := by simpa using hf
      simp [appPayload,findStream,hf']
    have hst := appStart_findStream (e := e) hc hid (by simp [Frame.refused,ht])
    apply Outcome.Meets.bind (P := fun d => d=c.findStream e) (meets_check rfl)
    rintro _ rfl
    simp only
    split_ifs with hp
    · apply meets_recvPadded hst
      · rw [Frame.padded,ht,← hst.hdr]
        simpa using hp
      · exact fun _ => hcu
    · apply typed_recvAll_app hst
      · rw [Frame.padded,ht,← hst.hdr]
        simpa using hp
      · exact .inr (.inr rfl)
      · simp [Frame.prioritized,ht]
      · exact fun _ => hcu

lemma meets_continuationTypeProcess (ht : f.hdr.type=.continuation) :
    Meets Coded (Typed f e) (continuationTypeProcess e c) := by
  unfold continuationTypeProcess
  split_ifs with hb
  · exact coded_code _
  · obtain ⟨hid,-,hf⟩ : c.hdr.streamId≠0 ∧ ¬c.hdr.streamId > c.lstreamId ∧ ¬(!e.found)=true :=
      ⟨(not_or.1 hb).1,not_or.1 (not_or.1 hb).2⟩
    have hst := appStart_findStream (e := e) hc hid (by simp [Frame.refused,ht])
    apply typed_recvAll_app hst
    · simp [Frame.padded,ht]
    · exact .inr (.inl rfl)
    · simp [Frame.prioritized,ht]
    · intro _
      have hf' : e.found=true := by simpa using hf
      simp [appPayload,findStream,hf']

lemma meets_headersTypeProcess (ht : f.hdr.type=.headers) : Meets Coded (Typed f e) (headersTypeProcess e c) := by
  unfold headersTypeProcess
  simp only
  split_ifs with hb hrf hp hpr
  · exact coded_code _
  · apply meets_check
    exact typed_setToReadVerify (d := c.findStream e) hc rfl rfl
      ((c.findStream e).setToReadVerify .ignoreFrameData).curStream
  all_goals
    have hid : c.hdr.streamId≠0 := (not_or.1 hb).1
    have hr : f.refused e=false := by
      cases hf : e.found with
      | true => simp [Frame.refused,hf]
      | false => simpa [Frame.refused,ht,findStream,hf] using hrf
    have hst := appStart_findStream hc hid hr
  · apply meets_recvPadded hst
    · rw [Frame.padded,ht,← hst.hdr]
      simpa using hp
    · simp [ht]
  · apply meets_recvPriority_first hst
    · rw [Frame.padded,ht,← hst.hdr]
      simpa using hp
    · rw [Frame.prioritized,ht,← hst.hdr]
      simpa using hpr
  · apply typed_recvAll_app hst
    · rw [Frame.padded,ht,← hst.hdr]
      simpa using hp
    · exact .inl rfl
    · rw [Frame.prioritized,ht,← hst.hdr]
      simpa using hpr
    · exact fun hne => absurd rfl hne

lemma meets_unknownTypeProcess : Meets Coded (Typed f e) (unknownTypeProcess e c) := by
  unfold unknownTypeProcess
  split_ifs
  · exact coded_code _
  · exact typed_recvAll_ignored hc rfl

lemma meets_frameTypeProcess : Meets Coded (Typed f e) (frameTypeProcess e c) := by
  unfold frameTypeProcess
  split_ifs
  · exact coded_code _
  · exact coded_code _
  · have ht : c.hdr.type=f.hdr.type := by rw [hc.hdr]
    cases hca : c.hdr.type with
    | data => exact meets_dataTypeProcess hc (ht ▸ hca)
    | headers => exact meets_headersTypeProcess hc (ht ▸ hca)
    | priority => exact meets_priorityTypeProcess hc
    | rstStream => exact meets_rstStreamTypeProcess hc
    | settings => exact meets_settingsTypeProcess hc (ht ▸ hca)
    | pushPromise => exact coded_code _
    | ping => exact meets_pingTypeProcess hc
    | goaway => exact meets_goawayTypeProcess hc
    | windowUpdate => exact meets_wndUpdateTypeProcess hc
    | continuation => exact meets_continuationTypeProcess hc (ht ▸ hca)
    | undefined => exact meets_unknownTypeProcess hc
end TfwH2Ctx
end
end VetWaf.H2
