import VetWaf.H2.ConnChange

namespace VetWaf.H2
open H2Ctx

/-- The table and the frame FSM both end the connection, or both go on with the same last stream id and a current
stream that is in the table. -/
def Agrees (t : Option H2Ctx) : Except Stop TfwH2Ctx → Prop
  | .ok r => ∃c,t=some c ∧ r.lstreamId=c.lstreamId ∧ ∀id,r.curStream=some id → (c.findStream id).isSome
  | .error _ => t=none

namespace H2Ctx

def recvFsm (c : H2Ctx) (id : Nat) (fr : RecvFrame) : Option Fsm :=
  (c.findStream id).bind fun s => streamFsm (c.withFrame fr.hdr fr.plen) s fr.hdr.type fr.hdr.flags false

/-- What the table answers the frame FSM for a frame of stream `id`. -/
def answers (c : H2Ctx) (id : Nat) (fr : RecvFrame) : Answers where
  streamFsm := (c.recvFsm id fr).elim .termConn Fsm.res
  closed := (c.recvFsm id fr).any (·.stream.state == .closed)
  idle := (c.findStream id).any fun s => s.state == .idle && !s.eosSent && !s.eosReceived
  rstIgnored := (c.streamError id).isNone
  wndExceeded := (incrementWndSz ((c.findStream id).elim c.remWnd (·.remWnd)) (fr.wndIncr%2^31)).isNone

/-- The table that `tfw_h2_headers_process` leaves for the stream FSM. -/
def entered (c : H2Ctx) (cur : Option TfwStream) (id : Nat) : Option H2Ctx :=
  match cur with
  | none => (c.setLstreamId id).streamCreate id
  | some s => some
      (if s.state=.idle ∧ !s.eosSent ∧ !s.eosReceived then (c.setLstreamId id).streamRemoveIdle id
      else c.setLstreamId id)

def headersAnswers (c : H2Ctx) (cur : Option TfwStream) (fr : RecvFrame) : Answers :=
  (c.entered cur fr.hdr.streamId).elim {created:=false} fun c => c.answers fr.hdr.streamId fr

section
variable (c : H2Ctx) (id t : Nat) (s : TfwStream)
@[simp] lemma lstreamId_setStream : (c.setStream s).lstreamId=c.lstreamId := rfl

@[simp] lemma lstreamId_delFromQueueNolock : (c.delFromQueueNolock id).lstreamId=c.lstreamId := by
  unfold delFromQueueNolock
  split_ifs <;> rfl

@[simp] lemma lstreamId_currentStreamSendRst : (c.currentStreamSendRst id).lstreamId=c.lstreamId := by
  unfold currentStreamSendRst streamUnlink streamAddClosed
  split_ifs
  · exact lstreamId_delFromQueueNolock c id
  · exact lstreamId_delFromQueueNolock c id

@[simp] lemma lstreamId_currentStreamRemove : (c.currentStreamRemove id).lstreamId=c.lstreamId :=
  lstreamId_delFromQueueNolock c id

@[simp] lemma lstreamId_noteOpened : (c.noteOpened s).lstreamId=c.lstreamId := by
  unfold noteOpened
  split_ifs <;> rfl

end

variable {c c' : H2Ctx} {id : Nat} {s : TfwStream} {f : Fsm} {fr : RecvFrame}
lemma lstreamId_of_streamFsm {type : TfwFrameType} {flags : UInt8} {send : Bool}
    (h : streamFsm c s type flags send=some f) : f.ctx.lstreamId=c.lstreamId := by
  rw [(frame_streamFsm h).ctx]
  rfl

lemma lstreamId_of_streamError (h : c.streamError id=some c') : c'.lstreamId=c.lstreamId := by
  unfold streamError at h
  obtain ⟨s,-,h⟩ := Option.bind_eq_some_iff.1 h
  obtain ⟨f,hf,h⟩ := Option.bind_eq_some_iff.1 h
  split_ifs at h
  cases h
  rw [lstreamId_currentStreamSendRst,lstreamId_setStream,lstreamId_of_streamFsm hf]

end H2Ctx

variable {c c' : H2Ctx} {id : Nat} {fr : RecvFrame} {r : TfwH2Ctx}
lemma agrees_setToReadVerify (st : FrameState) {t : Option H2Ctx} (h : Agrees t (.ok r)) :
    Agrees t (.ok (r.setToReadVerify st)) := by
  obtain ⟨c,hc,hl,hs⟩ := h
  unfold TfwH2Ctx.setToReadVerify
  split_ifs
  · exact ⟨c,hc,hl,hs⟩
  · exact ⟨c,hc,hl,hs⟩

lemma curStream_setToReadVerify (r : TfwH2Ctx) (st : FrameState) : (r.setToReadVerify st).curStream=r.curStream := by
  unfold TfwH2Ctx.setToReadVerify
  split_ifs <;> rfl

/-- `STREAM_RECV_PROCESS` leaves the caller in the same place. -/
theorem streamRecvProcess_agrees (fr : RecvFrame) (hs : (c.findStream id).isSome) (hcur : r.curStream=some id)
    (hl : r.lstreamId=c.lstreamId) (k : TfwH2Ctx → Except Stop TfwH2Ctx) :
    (c.streamRecvProcess id fr=none → r.streamRecvProcess (c.answers id fr) k=.error (.code .bad)) ∧
      (∀c',c.streamRecvProcess id fr=some (c',true) →
        r.streamRecvProcess (c.answers id fr) k=k r ∧ Agrees (some c') (.ok r)) ∧
      ∀c',c.streamRecvProcess id fr=some (c',false) →
        Agrees (some c') (r.streamRecvProcess (c.answers id fr) k) := by
  obtain ⟨s,hf⟩ := Option.isSome_iff_exists.1 hs
  obtain ⟨hm,rfl⟩ := findStream_eq_some hf
  unfold TfwH2Ctx.streamRecvProcess H2Ctx.streamRecvProcess answers recvFsm
  rw [if_neg (by simp [hcur])]
  simp only [hf,Option.bind_eq_bind,Option.bind_some]
  cases hfs : streamFsm (c.withFrame fr.hdr fr.plen) s fr.hdr.type fr.hdr.flags false with
  | none => exact ⟨fun _ => rfl,fun _ h => absurd h (by simp),fun _ h => absurd h (by simp)⟩
  | some f =>
    have hag : Agrees (some (f.ctx.setStream f.stream)) (.ok r) := by
      refine ⟨_,rfl,hl.trans (lstreamId_of_streamFsm hfs).symm,fun id hid => ?_⟩
      rw [hcur] at hid
      cases hid
      rw [findStream_of_streamFsm hm hfs]
      rfl
    simp only [Option.bind_some,Option.elim_some]
    cases hre : f.res with
    | ok =>
      refine ⟨fun h => absurd h (by simp),fun c' h => ?_,fun c' h => absurd h (by simp)⟩
      cases h
      exact ⟨rfl,hag⟩
    | termConn => exact ⟨fun _ => rfl,fun _ h => absurd h (by simp),fun _ h => absurd h (by simp)⟩
    | termStream =>
      refine ⟨fun h => absurd h (by simp),fun c' h => absurd h (by simp),fun c' h => ?_⟩
      cases h
      obtain ⟨_,hc,hl,-⟩ := agrees_setToReadVerify .ignoreFrameData hag
      cases hc
      simp only [TfwH2Ctx.currentStreamSendRst,curStream_setToReadVerify,hcur]
      exact ⟨_,rfl,hl.trans (lstreamId_currentStreamSendRst _ _).symm,fun _ h => by cases h⟩
    | ignore =>
      refine ⟨fun h => absurd h (by simp),fun c' h => absurd h (by simp),fun c' h => ?_⟩
      cases h
      exact agrees_setToReadVerify _ hag

theorem currentStreamStateProcess_agrees (hs : (c.findStream id).isSome) (hcur : r.curStream=some id)
    (hl : r.lstreamId=c.lstreamId) :
    Agrees (c.currentStreamStateProcess id fr) (r.currentStreamStateProcess (c.answers id fr)) := by
  obtain ⟨hno,hgo,hig⟩ := streamRecvProcess_agrees fr hs hcur hl
    fun r => .ok (r.checkCurrentStreamIsClosed (c.answers id fr))
  unfold TfwH2Ctx.currentStreamStateProcess H2Ctx.currentStreamStateProcess
  obtain ⟨s,hf⟩ := Option.isSome_iff_exists.1 hs
  simp only [hf,Option.bind_eq_bind,Option.bind_some]
  cases hr : c.streamRecvProcess id fr with
  | none =>
    rw [hno hr]
    rfl
  | some p =>
    obtain ⟨c',go⟩ := p
    cases go with
    | false => exact hig c' hr
    | true =>
      obtain ⟨hk,_,hc,hl',hst⟩ := hgo c' hr
      cases hc
      rw [hk]
      obtain ⟨t,f,hm,rfl,hft,hfs,⟨-,-,rfl⟩ | ⟨-,h,-⟩ | ⟨-,h,-⟩⟩ := streamRecvProcess_eq_some hr
      · cases hf.symm.trans hft
        have hcl : (c.answers s.id fr).closed=(f.stream.state == .closed) := by
          simp [answers,recvFsm,hf,hfs]
        have hfo : ((f.ctx.setStream f.stream).noteOpened s).findStream s.id=some f.stream := by
          unfold findStream
          rw [streams_noteOpened]
          exact findStream_of_streamFsm hm hfs
        simp only [Option.bind_some,if_true,TfwH2Ctx.checkCurrentStreamIsClosed,checkCurrentStreamIsClosed,hcl,hfo,
          Option.any_some]
        split_ifs
        · exact ⟨_,rfl,by simpa using hl',fun _ h => by cases h⟩
        · refine ⟨_,rfl,by simpa using hl',fun id hid => ?_⟩
          rw [hcur] at hid
          cases hid
          rw [hfo]
          rfl
      · cases h
      · cases h

lemma headersProcess_eq (cur : Option TfwStream) : c.headersProcess cur fr =
    if fr.priority.streamId=fr.hdr.streamId then
      some (if cur.isNone then c.setLstreamId fr.hdr.streamId
        else (c.setLstreamId fr.hdr.streamId).currentStreamSendRst fr.hdr.streamId)
    else (c.entered cur fr.hdr.streamId).bind fun c => c.currentStreamStateProcess fr.hdr.streamId fr := by
  cases cur with
  | none => rfl
  | some s => rfl

lemma sendRst_headersAnswers (c : H2Ctx) (cur : Option TfwStream) (fr : RecvFrame) :
    (c.headersAnswers cur fr).sendRst=none := by
  unfold headersAnswers
  cases c.entered cur fr.hdr.streamId <;> rfl

lemma entered_eq_some {cur : Option TfwStream} (h : c.entered cur id=some c')
    (hfound : ∀s,cur=some s → c.findStream id=some s) : (c'.findStream id).isSome ∧ c'.lstreamId=id := by
  cases cur with
  | none =>
    simp only [entered,streamCreate] at h
    split_ifs at h
    cases h
    exact ⟨findStream_isSome.2 ⟨_,List.mem_append_right _ (List.mem_singleton_self _),rfl⟩,rfl⟩
  | some s =>
    cases h
    have hs : ((c.setLstreamId id).findStream id).isSome := by
      change (c.findStream id).isSome
      rw [hfound s rfl]
      rfl
    split_ifs
    · exact ⟨by rwa [streamRemoveIdle,findStream_delFromQueueNolock],lstreamId_delFromQueueNolock _ _⟩
    · exact ⟨hs,rfl⟩

/-- A HEADERS frame of a stream that is not in the table, or of the stream `cur` -/
theorem headersProcess_agrees {cur : Option TfwStream} (hhdr : r.hdr=fr.hdr) (hpri : r.priority=fr.priority)
    (hcur : r.curStream=cur.map (·.id)) (hfound : ∀s,cur=some s → c.findStream fr.hdr.streamId=some s) :
    Agrees (c.headersProcess cur fr) (r.headersProcess (c.headersAnswers cur fr)) := by
  have hsr := sendRst_headersAnswers c cur fr
  rw [headersProcess_eq,TfwH2Ctx.headersProcess]
  simp only [hhdr,hpri]
  by_cases hd : fr.priority.streamId=fr.hdr.streamId
  · rw [if_pos hd,if_pos hd]
    cases cur with
    | none =>
      simp only [hcur,hsr,check,Option.map_none,Option.isNone_none,if_true]
      exact ⟨_,rfl,rfl,fun _ h => by cases h⟩
    | some s =>
      simp only [hcur,hsr,check,TfwH2Ctx.currentStreamSendRst,Option.map_some,Option.isNone_some,Bool.false_eq_true,
        if_false]
      refine ⟨_,rfl,?_,fun _ h => by cases h⟩
      rw [lstreamId_currentStreamSendRst]
      rfl
  · rw [if_neg hd,if_neg hd]
    obtain hen | ⟨c1,hen⟩ := Option.eq_none_or_eq_some (c.entered cur fr.hdr.streamId)
    · cases cur with
      | none =>
        simp only [headersAnswers,hen,hcur]
        rfl
      | some s => cases hen
    · obtain ⟨hs,hl⟩ := entered_eq_some hen hfound
      simp only [headersAnswers,hen,Option.bind_some,Option.elim_some]
      cases cur with
      | none =>
        simp only [hcur,Option.map_none,Option.isNone_none,if_true]
        exact currentStreamStateProcess_agrees hs rfl hl.symm
      | some s =>
        simp only [hcur,Option.map_some,Option.isNone_some,Bool.false_eq_true,if_false]
        exact currentStreamStateProcess_agrees hs (congrArg some (findStream_eq_some (hfound s rfl)).2) hl.symm

lemma agrees_streamError (fr : RecvFrame) (hcur : r.curStream=some id) (hl : r.lstreamId=c.lstreamId) :
    Agrees (c.streamError id)
      (if (c.answers id fr).rstIgnored then .error eperm else r.currentStreamSendRst (c.answers id fr)) := by
  obtain hse | ⟨c',hse⟩ := Option.eq_none_or_eq_some (c.streamError id)
  · rw [hse,if_pos (by simp [answers,hse])]
    rfl
  · rw [hse,if_neg (by simp [answers,hse]),TfwH2Ctx.currentStreamSendRst,if_neg (by simp [hcur])]
    exact ⟨c',rfl,hl.trans (lstreamId_of_streamError hse).symm,fun _ h => by cases h⟩

lemma streamTryUnblock_isSome {s : TfwStream} (hf : (c.findStream s.id).isSome)
    (hb : s.xmit.isBlocked=true → 0<c.blockedStreams) :
    ∃c',c.streamTryUnblock s=some c' ∧ c'.lstreamId=c.lstreamId ∧ (c'.findStream s.id).isSome := by
  have hset (t : TfwStream) (ht : t.id=s.id) : ((c.setStream t).findStream s.id).isSome := by
    rw [← ht] at hf ⊢
    rw [findStream_setStream (findStream_isSome.1 hf)]
    rfl
  unfold streamTryUnblock
  simp only
  split_ifs with hp hbl hneg
  · have := hb hbl.2
    simp only [setStream] at hneg
    omega
  · exact ⟨_,rfl,rfl,hset {s with xmit:={s.xmit with isBlocked:=false}} rfl⟩
  · exact ⟨_,rfl,rfl,hset {s with xmit:={s.xmit with isBlocked:=false}} rfl⟩
  · exact ⟨_,rfl,rfl,hset s rfl⟩

/-- A PRIORITY frame whose priority block has been read -/
theorem priorityProcess_agrees (hs : (c.findStream fr.hdr.streamId).isSome) (hcur : r.curStream=some fr.hdr.streamId)
    (hl : r.lstreamId=c.lstreamId) (hhdr : r.hdr=fr.hdr) (hpri : unpackPriority r.rbuf=fr.priority) :
    Agrees (c.priorityProcess fr) (r.priorityProcess (c.answers fr.hdr.streamId fr)) := by
  obtain ⟨s,hf⟩ := Option.isSome_iff_exists.1 hs
  unfold H2Ctx.priorityProcess TfwH2Ctx.priorityProcess
  simp only [hf,hhdr,hpri,hcur,Option.bind_eq_bind,Option.bind_some,Option.isNone_some,Bool.false_eq_true,if_false]
  by_cases hd : fr.priority.streamId≠fr.hdr.streamId
  · rw [if_pos hd,if_pos hd]
    refine ⟨c,rfl,hl,fun id hid => ?_⟩
    cases hid
    exact hs
  · rw [if_neg hd,if_neg hd]
    have hi : (c.answers fr.hdr.streamId fr).idle=true ↔
        s.state=.idle ∧ (!s.eosSent)=true ∧ (!s.eosReceived)=true := by
      simp [answers,hf,and_assoc]
    by_cases hid : (c.answers fr.hdr.streamId fr).idle=true
    · rw [if_pos (hi.1 hid),if_pos hid]
      rfl
    · rw [if_neg (hi.not.1 hid),if_neg hid]
      exact agrees_streamError _ rfl hl

/-- A WINDOW_UPDATE frame of the connection or of a stream, if a blocked stream is counted -/
theorem wndUpdateProcess_agrees (hcur : r.curStream=(c.findStream id).map (·.id)) (hl : r.lstreamId=c.lstreamId)
    (hincr : ntoh (r.rbuf.take 4)=fr.wndIncr)
    (hblocked : ∀s,c.findStream id=some s → s.xmit.isBlocked=true → 0<c.blockedStreams) :
    Agrees (c.wndUpdateProcess (c.findStream id) fr.wndIncr) (r.wndUpdateProcess (c.answers id fr)) := by
  unfold H2Ctx.wndUpdateProcess TfwH2Ctx.wndUpdateProcess
  simp only [hincr]
  cases hf : c.findStream id with
  | none =>
    have hno : r.curStream=none := by rw [hcur,hf,Option.map_none]
    have hw : (c.answers id fr).wndExceeded=(incrementWndSz c.remWnd (fr.wndIncr%2^31)).isNone := by simp [answers,hf]
    by_cases h0 : fr.wndIncr%2^31=0
    · rw [if_pos h0,if_neg (fun h => h.1 h0),if_pos (by rw [hno]; rfl)]
      rfl
    · rw [if_neg h0,hw]
      cases incrementWndSz c.remWnd (fr.wndIncr%2^31) with
      | none =>
        rw [if_neg (by simp),if_pos (by rw [hno]; rfl)]
        rfl
      | some wnd =>
        rw [if_pos ⟨h0,by simp⟩]
        exact ⟨_,rfl,hl,fun id hid => by simp [hno] at hid⟩
  | some s =>
    obtain ⟨-,rfl⟩ := findStream_eq_some hf
    dsimp only
    have hso : r.curStream=some s.id := by rw [hcur,hf,Option.map_some]
    have hw : (c.answers s.id fr).wndExceeded=(incrementWndSz s.remWnd (fr.wndIncr%2^31)).isNone := by
      simp [answers,hf]
    have her := agrees_streamError fr hso hl
    have hne : ¬r.curStream.isNone=true := by simp [hso]
    by_cases h0 : fr.wndIncr%2^31=0
    · rw [if_pos h0,if_neg (fun h => h.1 h0),if_neg hne]
      exact her
    · rw [if_neg h0,hw]
      cases incrementWndSz s.remWnd (fr.wndIncr%2^31) with
      | none =>
        rw [if_neg (by simp),if_neg hne]
        exact her
      | some wnd =>
        rw [if_pos ⟨h0,by simp⟩]
        obtain ⟨c',hc',hl',hs'⟩ := streamTryUnblock_isSome (s := {s with remWnd:=wnd})
          (c := {c with log:=.wndIncr s.id (fr.wndIncr%2^31)::c.log}) (Option.isSome_iff_exists.2 ⟨s,hf⟩)
          (hblocked s hf)
        refine ⟨c',hc',hl.trans hl'.symm,fun id hid => ?_⟩
        rw [hso] at hid
        cases hid
        exact hs'

theorem currentStreamIdVerify_agrees (cur : Option TfwStream) (hcur : r.curStream=cur.map (·.id))
    (hl : r.lstreamId=c.lstreamId) : c.currentStreamIdVerify cur r.hdr.streamId=r.currentStreamIdVerify := by
  simp [H2Ctx.currentStreamIdVerify,TfwH2Ctx.currentStreamIdVerify,hcur,hl]
end VetWaf.H2
