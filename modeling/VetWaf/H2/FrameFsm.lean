import VetWaf.H2.FrameData

namespace VetWaf.H2
open List Visit TfwH2Ctx
open Rfc9113 (Frame)
open Outcome (Meets)
section
variable {f : Frame} {e : Answers} {pre tail p : Bytes} {o u : Nat} {z : Prop} {c : TfwH2Ctx} {st : FrameState}
lemma AtHeader.more (h : AtHeader f pre c u) (hp : Ahead f pre tail u p) (hlt : c.rlen+p.length<frameHeaderSize) :
    AtHeader f pre {c.collected (c.rlen+p.length) p with state:=st} (u+p.length) where
  rlen := hlt
  read := by
    have hr := h.read
    simp only [collected]
    omega
  rbuf := by
    have ha := hp.header h.read le_rfl (by omega)
    rw [take_length] at ha
    simp only [collected,collect_eq h.rbuf ha,take_take,min_self]
  toRead := h.toRead
  padlen := h.padlen
  priority := h.priority

lemma AtHeader.rbuf_eq (h : AtHeader f pre c u) (hp : Ahead f pre tail u p) (hle : frameHeaderSize≤c.rlen+p.length) :
    (c.collected frameHeaderSize (p.take (frameHeaderSize-c.rlen))).rbuf=f.header := by
  have hr := h.rlen
  have hs : c.rlen+(frameHeaderSize-c.rlen)=frameHeaderSize := by omega
  have ht := hp.header (m := frameHeaderSize-c.rlen) h.read (by omega) (by omega)
  have ha := collect_eq h.rbuf ht
  rw [hs] at ha
  have hl : f.header.length=frameHeaderSize := f.header_length
  rw [← hl,take_length] at ha
  rw [collected,← hl]
  exact ha

namespace Visit

lemma visited_recvFrameHeader (h : At f e pre o .recvFrameHeader c u)
    (hp : Ahead f pre tail u p) : Visited f e pre o z p u (recvFrameHeader e c p) := by
  obtain ⟨rfl,rfl,hst,hat⟩ := h
  have hrl := hat.rlen
  have hr : u=0+c.rlen := hat.read
  have hsi := size_nil f
  rw [recvFrameHeader]
  by_cases hs : c.rlen+p.length<frameHeaderSize
  · rw [readSrvc_short le_rfl hs]
    exact .postponed ⟨rfl,rfl,rfl,hat.more hp hs⟩ (by simp [FrameState.app])
  · rw [readSrvc_enough le_rfl (by omega) (by omega)]
    have hb := hat.rbuf_eq hp (by omega)
    have hu : u+(frameHeaderSize-c.rlen)=frameHeaderSize := by omega
    apply visited_after (meets_frameTypeProcess (f := f) ?_)
    · intro c' hc'
      split_ifs with hm ha
      · apply visited_next (by omega) (by omega) _ hm
        rw [hu]
        exact hc'.more hm
      · have h0 := not_not.1 hm
        have hg := (hc'.app h0 ha.1 ha.2).2
        apply Visited.on (by omega) (by omega)
        rw [hu]
        exact hg
      · have he := hc'.empty (not_not.1 hm)
        apply visited_exit (by omega) (by omega)
        apply finished_service rfl
        rw [hu,hsi,he]
        rfl
    · exact
        { hdr:=by
            change unpackFrameHeader _ = _
            rw [hb]
            rfl
          state:=hst
          toRead:=hat.toRead
          padlen:=hat.padlen
          priority:=hat.priority}

lemma visited_recvFirstSettings (h : At f e pre o .recvFirstSettings c u)
    (hp : Ahead f pre tail u p) : Visited f e pre o z p u (recvFirstSettings c p) := by
  have ha : AtHeader f pre c u := h
  have hrl := ha.rlen
  have hr := ha.read
  have hsi : size f pre=pre.length+frameHeaderSize+f.payload.length := rfl
  rw [recvFirstSettings]
  by_cases hs : c.rlen+p.length<frameHeaderSize
  · rw [readSrvc_short le_rfl hs]
    exact .postponed (ha.more hp hs) (by simp [FrameState.app])
  · rw [readSrvc_enough le_rfl (by omega) (by omega)]
    have hb := ha.rbuf_eq hp (by omega)
    have hh : unpackFrameHeader (c.collected frameHeaderSize (p.take (frameHeaderSize-c.rlen))).rbuf=f.hdr := by
      rw [hb]
      rfl
    have hl := f.hdr_length
    apply visited_after (meets_firstSettingsVerify (c := c.collected _ _) ha.toRead hh)
    rintro _ ⟨hm,rfl⟩
    apply visited_nextSettingsEntry (by exact hm) (by simp only; omega) (by omega) (by omega)
    · simp only
      omega
    · intro h0
      simp only at h0
      apply visited_exit (by omega) (by omega)
      apply finished_service rfl
      omega

lemma visited_recvCliStartSeq (h : At f e pre o .recvCliStartSeq c u) :
    Visited f e pre o z p u (recvCliStartSeq e c p) := by
  obtain ⟨rfl,hr,rfl,ht,hp,hpr⟩ := h
  have hma : framePrefaceCliMagic.length=24 := rfl
  rw [recvCliStartSeq,read]
  split_ifs with hs
  · simp only [after]
    split_ifs with hsh
    · have hm : min (framePrefaceCliMagic.length-c.rlen) p.length=p.length := by omega
      rw [hm,drop_length]
      apply Visited.postponed
      · exact ⟨rfl,by simp only; omega,rfl,ht,hp,hpr⟩
      · simp [FrameState.app]
    · have hf : ∀s,At f e framePrefaceCliMagic o .recvFirstSettings {c with rlen:=0, state:=s}
          (c.rlen+min (framePrefaceCliMagic.length-c.rlen) p.length) := by
        intro s
        refine ⟨Nat.succ_pos _,?_,rfl,ht,hp,hpr⟩
        change _ = _ + 0
        omega
      apply visited_after (meets_check (P := fun c' => c' =
        {c with rlen:=c.rlen+min (framePrefaceCliMagic.length-c.rlen) p.length}) rfl)
      rintro _ rfl
      apply visited_move (by omega) (by omega) (hf _) (hf _)
      simp [FrameState.app]
  · exact .stop (coded_code _)

end Visit

lemma visited_visit (h : At f e pre o st c u) (hk : f.loses e=false) (hp : Ahead f pre tail u p) :
    Visited f e pre o (st.app=true ∧ c.toRead=0) p u (visit e st c p) := by
  cases st with
  | recvFrameHeader => exact Visit.visited_recvFrameHeader h hp
  | recvCliStartSeq => exact Visit.visited_recvCliStartSeq h
  | recvFirstSettings => exact Visit.visited_recvFirstSettings h hp
  | recvFramePriority => exact visited_recvFramePriority h
  | recvFrameWndUpdate => exact visited_recvFrameWndUpdate h
  | recvFramePing => exact visited_recvFramePing h
  | recvFrameRstStream => exact visited_recvFrameRstStream h
  | recvFrameSettings => exact visited_recvFrameSettings h
  | recvFrameGoaway => exact visited_recvFrameGoaway h
  | recvFramePadded => exact visited_recvFramePadded h hk hp
  | recvHeaderPri => exact visited_recvHeaderPri h hk hp
  | ignoreFrameData => exact visited_ignoreFrameData h
  | recvHeader => exact visited_recvHeader h hk (fun hz => ⟨rfl,hz⟩)
  | recvCont => exact visited_recvCont h hk (fun hz => ⟨rfl,hz⟩)
  | recvData => exact visited_recvData h hk (fun hz => ⟨rfl,hz⟩)
  | recvAppDataPost => exact visited_recvAppDataPost h

/-- What `tfw_h2_frame_recv` gives for a buffer. -/
inductive Received (f : Frame) (e : Answers) (pre : Bytes) (o : Nat) (z : Prop) (p : Bytes) (u : Nat) :
    Except Stop (Rc×TfwH2Ctx×Bytes) → Prop
  | stop {s : Stop} : Coded s → Received f e pre o z p u (.error s)
  | postponed {c : TfwH2Ctx} : At f e pre o c.state c (u+p.length) →
      (c.state.app=true → 0<c.toRead) → Received f e pre o z p u (.ok (.postpone,c,[]))
  | finished {c : TfwH2Ctx} {n : Nat} : n≤p.length → (n=0 → z) → Finished f pre o c (u+n) →
      Received f e pre o z p u (.ok (.ok,c,p.drop n))

lemma received_fsm {fuel : Nat} (h : At f e pre o st c u)
    (hk : f.loses e=false) (hp : Ahead f pre tail u p) (hfu : p.length<fuel) :
    Received f e pre o (st.app=true ∧ c.toRead=0) p u (fsm e fuel st c p) := by
  -- every visit that goes on takes a byte of the buffer
  induction fuel generalizing st c u p with
  | zero => omega
  | succ fuel ih =>
    have hv := visited_visit h hk hp
    rw [fsm]
    generalize visit e st c p=v at hv
    cases hv with
    | stop hs => exact .stop hs
    | postponed hat ha => exact .postponed hat ha
    | finished hn hz hf => exact .finished hn hz hf
    | @on st' c' n hpo hn hat =>
      have hr := ih hat (hp.drop n) (by rw [length_drop]; omega)
      simp only
      generalize fsm e fuel st' c' (p.drop n)=r at hr
      cases hr with
      | stop hs => exact .stop hs
      | postponed ha' ha =>
        apply Received.postponed _ ha
        have hl : u+n+(p.drop n).length=u+p.length := by
          rw [length_drop]
          omega
        rw [← hl]
        exact ha'
      | @finished c'' m hm hz hf =>
        rw [length_drop] at hm
        rw [drop_drop]
        refine .finished (by omega) (by omega) ?_
        rw [← add_assoc]
        exact hf

lemma received_frameRecv (h : At f e pre o c.state c u) (hk : f.loses e=false)
    (hp : Ahead f pre tail u p) (ha : c.state.app=true → 0<c.toRead) :
    Received f e pre o False p u (frameRecv e c p) := by
  have hr := received_fsm h hk hp (Nat.lt_succ_self _)
  rw [frameRecv]
  generalize fsm e (p.length+1) c.state c p=r at hr
  cases hr with
  | stop hs => exact .stop hs
  | postponed hat ha' => exact .postponed hat ha'
  | finished hn hz hf =>
    refine .finished hn ?_ hf
    intro h0
    obtain ⟨hst,hre⟩ := hz h0
    have := ha hst
    omega
end
end VetWaf.H2
