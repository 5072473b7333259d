import VetWaf.H2.FrameVisit

namespace VetWaf.H2
open TfwH2Ctx List Nat
open Rfc9113 (Frame)
open Outcome (Meets)
section
variable {f : Frame} {e : Answers} {pre tail p : Bytes} {o u : Nat} {z : Prop} {c : TfwH2Ctx}
namespace TfwH2Ctx

/-- What the processing of the first application data leaves. -/
structure Processed (st : FrameState) (c c' : TfwH2Ctx) : Prop where
  toRead : c'.toRead=c.toRead
  padlen : c'.padlen=c.padlen
  dataOff : c'.dataOff=c.dataOff
  plen : c'.plen=c.plen
  state : c'.state=st ∨ c'.state=.ignoreFrameData ∧ c.padlen=0

lemma meets_currentStreamStateProcess {st : FrameState} (hl : c.hdr.length=0)
    (hst : c.state=st) (hc : c.curStream.isSome) (hp : e.streamFsm ≠ .ok → c.padlen=0) :
    Meets Coded (Processed st c) (currentStreamStateProcess e c) := by
  apply meets_streamRecvProcess hc
  · intro _
    simp only [Outcome.meets_ok,checkCurrentStreamIsClosed]
    split_ifs
    · exact ⟨rfl,rfl,rfl,rfl,.inl hst⟩
    · exact ⟨rfl,rfl,rfl,rfl,.inl hst⟩
  · intro hne cur
    have hi : c.setToReadVerify .ignoreFrameData={c with state:=.ignoreFrameData} := if_neg (not_not.2 hl)
    rw [hi]
    exact ⟨rfl,rfl,rfl,rfl,.inr ⟨rfl,hp hne⟩⟩

lemma meets_headersProcess {st : FrameState} (hl : c.hdr.length=0) (hst : c.state=st)
    (hp : e.streamFsm ≠ .ok ∨ c.priority.streamId=c.hdr.streamId → c.padlen=0) :
    Meets Coded (Processed st c) (headersProcess e c) := by
  unfold headersProcess
  simp only
  split_ifs with hs hn hn' hc
  · have hz := hp (.inr hs)
    exact meets_check ⟨rfl,rfl,rfl,rfl,.inr ⟨rfl,hz⟩⟩
  · have hz := hp (.inr hs)
    rw [currentStreamSendRst,if_neg hn]
    exact meets_check ⟨rfl,rfl,rfl,rfl,.inr ⟨rfl,hz⟩⟩
  · refine (@meets_currentStreamStateProcess e _ st ?_ ?_ ?_ ?_).imp ?_
    · exact hl
    · exact hst
    · rfl
    · exact fun hne => hp (.inl hne)
    · rintro c' ⟨h1,h2,h3,h4,h5⟩
      exact ⟨h1,h2,h3,h4,h5⟩
  · exact coded_code _
  · refine (@meets_currentStreamStateProcess e _ st ?_ ?_ ?_ ?_).imp ?_
    · exact hl
    · exact hst
    · exact isSome_of_isNone_eq_false hn'
    · exact fun hne => hp (.inl hne)
    · rintro c' ⟨h1,h2,h3,h4,h5⟩
      exact ⟨h1,h2,h3,h4,h5⟩

end TfwH2Ctx

lemma AtApp.padlen_eq_zero {st : FrameState} (h : AtApp f e pre o st c u) (hk : f.loses e=false)
    (hd : e.streamFsm ≠ .ok ∨ f.selfDependent=true) : c.padlen=0 := by
  by_contra hne
  have hc := h.content hne
  rw [h.padlen] at hne
  have hl : f.loses e=true := by
    simp only [Frame.loses,h.refused,Bool.not_false,Bool.true_and,Bool.or_eq_true,
      Bool.and_eq_true,bne_iff_ne,decide_eq_true_eq]
    exact .inr ⟨⟨hne,hc⟩,hd⟩
  rw [hk] at hl
  cases hl

namespace Visit
variable {st : FrameState} {n : Nat}
lemma visited_move_end (hn : n=p.length) (hs : At f e pre o st {c with rlen:=0, state:=st} (u+n))
    (ha : st.app=true → 0<c.toRead) : Visited f e pre o z p u (move st c (p.drop n)) := by
  have hni : p.drop n=[] := drop_eq_nil_iff.2 (by omega)
  rw [hni,move,if_pos rfl,exit]
  apply Visited.postponed
  · rw [← hn]
    exact hs
  · exact ha

lemma visited_recvApp {process : TfwH2Ctx → Except Stop TfwH2Ctx}
    (h : AtApp f e pre o st c u) (ha : st.app=true) (hz : c.toRead=0 → z)
    (hpr : ∀m,Meets Coded (TfwH2Ctx.Processed st {c with rlen:=m, toRead:=c.toRead-m})
      (process {c with rlen:=m, toRead:=c.toRead-m})) : Visited f e pre o z p u (recvApp st process c p) := by
  have hr := h.read
  have ho := h.dataOff
  have hst : st ≠ .ignoreFrameData := by
    rintro rfl
    cases ha
  simp only [recvApp,readPyld,h.rlen,zero_add]
  apply visited_after (hpr _)
  rintro c' ⟨ht,hp,hd,hpl,hsta⟩
  simp only at ht hp hd hpl
  split_ifs with hmo hi hi
  · -- the frame is ignored and goes on
    have h0 : c'.padlen=0 := by
      obtain hs | ⟨-,h0⟩ := hsta
      · exact absurd (hs.symm.trans hi) hst
      · exact hp.trans h0
    apply visited_move_end (by omega)
    · refine ⟨pos_of_ne_zero hmo,?_⟩
      simp only
      omega
    · simp [FrameState.app]
  · -- the frame is accepted and goes on
    apply visited_move_end (by omega)
    · refine ⟨rfl,pos_of_ne_zero hmo,?_,?_⟩
      · simp only
        omega
      · simp only
        omega
    · exact fun _ => pos_of_ne_zero hmo
  · have h0 : c'.padlen=0 := by
      obtain hs | ⟨-,h0⟩ := hsta
      · exact absurd (hs.symm.trans hi) hst
      · exact hp.trans h0
    apply visited_exit (by omega) (fun hm => hz (by omega))
    apply finished_service rfl
    omega
  · apply visited_exit (by omega) (fun hm => hz (by omega))
    refine ⟨rfl,?_,?_⟩
    · simp only [ha,if_true]
      omega
    · intro _
      by_cases hm : c.toRead=0
      · exact .inr (hpl.trans (h.plen hm))
      · left
        simp only
        omega

lemma visited_recvData (h : At f e pre o .recvData c u) (hk : f.loses e=false)
    (hz : c.toRead=0 → z) : Visited f e pre o z p u (recvData e c p) := by
  have ha : AtApp f e pre o .recvData c u := h
  apply visited_recvApp ha rfl hz
  intro m
  apply meets_currentStreamStateProcess
  · exact ha.length
  · exact ha.state
  · exact ha.curStream (by decide)
  · exact fun hne => ha.padlen_eq_zero hk (.inl hne)

lemma visited_recvCont (h : At f e pre o .recvCont c u) (hk : f.loses e=false)
    (hz : c.toRead=0 → z) : Visited f e pre o z p u (recvCont e c p) := by
  have ha : AtApp f e pre o .recvCont c u := h
  apply visited_recvApp ha rfl hz
  intro m
  apply meets_currentStreamStateProcess
  · exact ha.length
  · exact ha.state
  · exact ha.curStream (by decide)
  · exact fun hne => ha.padlen_eq_zero hk (.inl hne)

lemma visited_recvHeader (h : At f e pre o .recvHeader c u) (hk : f.loses e=false)
    (hz : c.toRead=0 → z) : Visited f e pre o z p u (recvHeader e c p) := by
  have ha : AtApp f e pre o .recvHeader c u := h
  apply visited_recvApp ha rfl hz
  intro m
  apply meets_headersProcess
  · exact ha.length
  · exact ha.state
  · rintro (hne | hs)
    · exact ha.padlen_eq_zero hk (.inl hne)
    · exact ha.padlen_eq_zero hk (.inr ((ha.depends rfl).1 hs))

lemma visited_recvAppDataPost (h : At f e pre o .recvAppDataPost c u) :
    Visited f e pre o z p u (recvAppDataPost c p) := by
  have hpo : AtPost f pre o c u := h
  have hr := hpo.read
  have ho := hpo.dataOff
  have hp := hpo.toRead
  simp only [recvAppDataPost,readPyld,hpo.rlen,Nat.sub_zero,zero_add]
  by_cases hm : c.toRead-min c.toRead p.length=0
  · rw [if_neg (not_not.2 hm)]
    apply visited_exit (by omega) (by omega)
    refine ⟨rfl,?_,?_⟩
    · simp only [FrameState.app,if_true]
      omega
    · intro _
      left
      simp only
      omega
  · have hn : p.drop (min c.toRead p.length)=[] := drop_eq_nil_iff.2 (by omega)
    rw [if_pos hm,hn,exit]
    apply Visited.postponed
    · refine ⟨rfl,Nat.pos_of_ne_zero hm,?_,?_⟩
      · simp only
        omega
      · simp only
        omega
    · exact fun _ => Nat.pos_of_ne_zero hm

/-- The context once the length of the padding is known. -/
structure Unpadded (f : Frame) (e : Answers) (d : TfwH2Ctx) : Prop extends HdrOf f d where
  length : d.hdr.length=f.content
  nonneg : 0≤f.content
  padlen : d.padlen=f.padLength
  dataOff : d.dataOff=frameHeaderSize+1
  priority : d.priority.streamId=0
  stream : f.hdr.streamId≠0
  curStream : f.hdr.type=.data → d.curStream.isSome
  padded : f.padded=true
  refused : f.refused e=false

variable {d : TfwH2Ctx} {bs : Bytes}
lemma Unpadded.size_eq (h : Unpadded f e d) : (size f [] : Int)=frameHeaderSize+1+f.content+d.padlen := by
  have hl : f.lead=1 := by simp [Frame.lead,h.padded]
  rw [size_nil,Frame.content,hl,h.padlen]
  omega

lemma Unpadded.app (h : Unpadded f e d) (hne : f.content≠0)
    (hp : f.prioritized=false) (hc : st ≠ .recvHeader → d.curStream.isSome) :
    AtApp f e [] 0 st {d.setToRead with state:=st, rlen:=0} (frameHeaderSize+1) :=
  { type:=h.type
    flags:=h.flags
    streamId:=h.streamId
    state:=rfl
    length:=rfl
    rlen:=rfl
    padlen:=h.padlen
    read:=by
      have hsi:=h.size_eq
      have hn:=h.nonneg
      simp only [setToRead,h.length]
      omega
    refused:=h.refused
    content:=by
      intro _
      have hn:=h.nonneg
      simp only [hp,Bool.false_eq_true,if_false]
      omega
    dataOff:=by
      change 0+d.dataOff≤_
      rw [h.dataOff,zero_add]
    plen:=by
      intro h0
      have hn:=h.nonneg
      simp only [setToRead,h.length] at h0
      omega
    depends:=by
      intro _
      have hs : f.selfDependent=false:=by simp [Frame.selfDependent,hp]
      have hid : d.priority.streamId≠d.hdr.streamId:=by
        rw [h.priority,h.streamId]
        exact h.stream.symm
      simp [hs,setToRead,hid]
    curStream:=hc}

lemma Unpadded.pri (h : Unpadded f e d) (hp : f.prioritized=true) : Meets Coded (fun c' => c'.toRead≠0 ∧
      At f e [] 0 c'.state {c' with rlen:=0} (frameHeaderSize+1)) d.recvPriority := by
  have hl : f.lead=1 := by simp [Frame.lead,h.padded]
  apply meets_recvPart
  intro hle
  refine ⟨succ_ne_zero _,rfl,rfl,?_⟩
  exact
    { type:=h.type
      flags:=h.flags
      streamId:=h.streamId
      toRead:=rfl
      rlen:=succ_pos _
      length:=by rw [← h.length]
      nonneg:=by
        simp only
        omega
      read:=by simp [hl]
      rbuf:=by simp
      padlen:=h.padlen
      prioritized:=hp
      refused:=h.refused
      dataOff:=h.dataOff}

lemma meets_framePadProcess (h : AtPadded f e c u) (hk : f.loses e=false)
    (hb : (c.collected 1 bs).rbuf.getD 0 0=f.payload.getD 0 0) :
    Meets Coded (fun c' => (c'.toRead=0 ∧ f.payload.length=1) ∨
      (c'.toRead≠0 ∧ At f e [] 0 c'.state {c' with rlen:=0} (u+1))) (c.collected 1 bs).framePadProcess := by
  have hl : f.lead=1 := by simp [Frame.lead,h.padded]
  have hpa : f.padLength=((c.collected 1 bs).rbuf.getD 0 0).toNat := by rw [Frame.padLength,if_pos h.padded,hb]
  have hr := h.read
  have hrl := h.toAtPart.rlen
  have hsi := size_nil f
  have hst := h.start
  have hc : c.hdr.length-((c.collected 1 bs).rbuf.getD 0 0).toNat=f.content := by
    rw [Frame.content,hl,← hpa]
    omega
  rw [hst]
  unfold framePadProcess
  apply Outcome.Meets.bind (P := Unpadded f e)
  · apply meets_verifyFrameSize
    intro hn
    exact
      { type:=h.type
        flags:=h.flags
        streamId:=h.streamId
        length:=hc
        nonneg:=hc ▸ hn
        padlen:=hpa.symm
        dataOff:=congrArg (· + 1) (h.dataOff.trans hst)
        priority:=h.priority
        stream:=h.stream
        curStream:=h.curStream
        padded:=h.padded
        refused:=h.refused}
  · intro d hd
    have hn := hd.nonneg
    rw [hd.length]
    by_cases h0 : f.content=0
    · -- a frame of nothing but padding has none here
      rw [if_pos h0]
      left
      refine ⟨rfl,?_⟩
      have hno : f.padLength=0 := by
        by_contra hne
        have hlo : f.loses e=true := by simp [Frame.loses,hd.refused,hne,h0]
        rw [hk] at hlo
        cases hlo
      rw [Frame.content,hl,hno] at h0
      omega
    · have hs : d.setToRead.toRead≠0 := by
        simp only [setToRead,hd.length]
        omega
      rw [if_neg h0,hd.type]
      cases ht : f.hdr.type with
      | data =>
        have hp : f.prioritized=false := by simp [Frame.prioritized,ht]
        exact .inr ⟨hs,hd.app h0 hp (fun _ => hd.curStream ht)⟩
      | headers =>
        have hf : d.hdr.has fPriority=f.hdr.has fPriority := by rw [TfwFrameHdr.has,hd.flags,TfwFrameHdr.has]
        simp only [hf]
        cases hp : f.hdr.has fPriority with
        | true => exact (hd.pri (by simp [Frame.prioritized,ht,hp])).imp fun _ hc' => .inr hc'
        | false =>
          have hp' : f.prioritized=false := by simp [Frame.prioritized,ht,hp]
          exact .inr ⟨hs,hd.app h0 hp' (fun hne => absurd rfl hne)⟩
      | _ =>
        have hpd := h.padded
        simp [Frame.padded,ht] at hpd

lemma visited_recvFramePadded (h : At f e pre o .recvFramePadded c u) (hk : f.loses e=false)
    (hp : Ahead f pre tail u p) : Visited f e pre o z p u (recvFramePadded c p) := by
  obtain ⟨rfl,rfl,hpa⟩ := h
  have hr : c.rlen=0 := by
    have := hpa.toAtPart.rlen
    omega
  have hre := hpa.read
  have hl := hpa.length
  have hst := hpa.start
  have hsi := size_nil f
  rw [recvFramePadded,recvService,hpa.toRead]
  by_cases hs : c.rlen+p.length<1
  · rw [readSrvc_short (by decide) hs]
    have hn : p.length=0 := by omega
    apply Visited.postponed
    · refine ⟨rfl,rfl,⟨hpa.type,hpa.flags,hpa.streamId⟩,hpa.toAtPart.more hs,hpa.padded,
        hpa.refused,?_,?_,hpa.priority,hpa.stream,hpa.curStream⟩
      · rw [hn]
        exact hpa.dataOff
      · omega
    · simp [FrameState.app]
  · rw [readSrvc_enough (by decide) (by omega) (by omega)]
    have hb : (c.collected 1 (p.take (1-c.rlen))).rbuf.getD 0 0=f.payload.getD 0 0 := by
      have ht := hp.payload (k := 0) (m := 1) (by omega) (by omega) (by omega)
      simp only [collected,hr,take_zero,nil_append,ht,drop_zero]
      cases f.payload with
      | nil => rfl
      | cons b bs => rfl
    apply visited_after (meets_framePadProcess hpa hk hb)
    intro c' hc'
    have ho : 1-c.rlen=1 := by omega
    rw [ho]
    obtain ⟨h0,hpay⟩ | ⟨hne,ha⟩ := hc'
    · rw [if_neg (not_not.2 h0)]
      apply visited_exit (by omega) (by omega)
      apply finished_service rfl
      omega
    · rw [if_pos hne]
      exact visited_next (by omega) (by omega) ha hne

lemma meets_headersPriProcess (h : AtPri f e c u) (hk : f.loses e=false)
    (hb : (c.collected framePrioritySize bs).rbuf=(f.payload.drop f.lead).take framePrioritySize) :
    Meets Coded (fun c' => c'.toRead≠0 ∧
      At f e [] 0 c'.state {c' with rlen:=0} (frameHeaderSize+f.lead+framePrioritySize))
      (c.collected framePrioritySize bs).headersPriProcess := by
  have hs := size_nil f
  have hln := h.length
  have hn := h.nonneg
  have hco : f.content=f.payload.length-f.lead-f.padLength := rfl
  have hf : (c.collected framePrioritySize bs).hdr.has fPriority=true := by
    have hp := h.prioritized
    simp only [Frame.prioritized,Bool.and_eq_true] at hp
    rw [← hp.2]
    change c.hdr.has fPriority=_
    rw [TfwFrameHdr.has,h.flags,TfwFrameHdr.has]
  unfold headersPriProcess setToReadVerify
  rw [hf,if_neg (by simp)]
  by_cases hl : c.hdr.length=0
  · -- the block is all there is, and the padding is as long as it
    have hfi : f.padLength=framePrioritySize := by
      by_contra hne
      have hlo : f.loses e=true := by
        have hc : f.content=framePrioritySize := by omega
        simp [Frame.loses,h.refused,h.prioritized,hc,hne]
      rw [hk] at hlo
      cases hlo
    have ht : c.toRead=framePrioritySize := h.toRead
    refine if_neg (not_not.2 hl) ▸ ?_
    refine ⟨?_,?_,?_⟩
    · change c.toRead≠0
      rw [ht]
      exact succ_ne_zero _
    · change 0<c.toRead
      rw [ht]
      exact succ_pos _
    · change _ + c.toRead=size f []+0
      rw [ht]
      omega
  · refine if_pos hl ▸ ?_
    refine ⟨?_,?_⟩
    · change c.hdr.length.toNat≠0
      omega
    · exact
        { type:=h.type
          flags:=h.flags
          streamId:=h.streamId
          state:=rfl
          length:=rfl
          rlen:=rfl
          padlen:=h.padlen
          read:=by
            change _ + c.hdr.length.toNat+c.padlen=_
            rw [h.padlen]
            omega
          refused:=h.refused
          content:=by
            intro _
            rw [if_pos h.prioritized]
            omega
          dataOff:=by
            have ho:=h.dataOff
            have hr:=h.read
            change 0+(c.dataOff+framePrioritySize)≤_
            omega
          plen:=by
            intro h0
            change c.hdr.length.toNat=0 at h0
            omega
          depends:=by
            intro _
            change (unpackPriority (c.collected framePrioritySize bs).rbuf).streamId=c.hdr.streamId ↔ _
            rw [hb,h.streamId]
            simp [Frame.selfDependent,h.prioritized]
          curStream:=fun hne => absurd rfl hne}

lemma visited_recvHeaderPri (h : At f e pre o .recvHeaderPri c u) (hke : f.loses e=false)
    (hp : Ahead f pre tail u p) : Visited f e pre o z p u (recvHeaderPri c p) := by
  obtain ⟨rfl,rfl,hpr⟩ := h
  have hrl := hpr.rlen
  have hr := hpr.read
  have hn := hpr.nonneg
  have hl := hpr.length
  have hc : f.content=f.payload.length-f.lead-f.padLength := rfl
  have ht (m : Nat) (hm : m≤p.length) (hk : c.rlen+m≤framePrioritySize) :
      c.rbuf.take c.rlen++p.take m=(f.payload.drop f.lead).take (c.rlen+m) := by
    apply collect_eq hpr.rbuf
    rw [hp.payload (k := f.lead+c.rlen) (m := m) (by omega) hm (by omega),drop_drop]
  rw [recvHeaderPri,recvService,hpr.toRead]
  by_cases hsh : c.rlen+p.length<framePrioritySize
  · rw [readSrvc_short (by decide) hsh]
    apply Visited.postponed
    · refine ⟨rfl,rfl,⟨hpr.type,hpr.flags,hpr.streamId⟩,hpr.toRead,hsh,hpr.length,
        hpr.nonneg,?_,?_,hpr.padlen,hpr.prioritized,hpr.refused,?_⟩
      · simp only [collected]
        omega
      · have ha := ht p.length le_rfl (by omega)
        rw [take_length] at ha
        simp only [collected,ha,take_take,min_self]
      · have ho := hpr.dataOff
        simp only [collected]
        omega
    · simp [FrameState.app]
  · rw [readSrvc_enough (by decide) (by omega) (by omega)]
    have hs : c.rlen+(framePrioritySize-c.rlen)=framePrioritySize := by omega
    have hb : (c.collected framePrioritySize (p.take (framePrioritySize-c.rlen))).rbuf =
        (f.payload.drop f.lead).take framePrioritySize := by
      have ha := ht (framePrioritySize-c.rlen) (by omega) (by omega)
      rw [hs] at ha
      exact ha
    apply visited_after (meets_headersPriProcess hpr hke hb)
    rintro c' ⟨hne,hat⟩
    rw [if_pos hne]
    apply visited_next (by omega) (by omega) _ hne
    have hu : u+(framePrioritySize-c.rlen)=frameHeaderSize+f.lead+framePrioritySize := by omega
    rw [hu]
    exact hat
end Visit
end
end VetWaf.H2
