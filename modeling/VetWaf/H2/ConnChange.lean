import VetWaf.H2.StreamFsm
import VetWaf.H2.ConnStep

namespace VetWaf.H2
open Option List H2Ctx

inductive Change (drops : Nat → Prop) (c : H2Ctx) : H2Ctx → Prop
  | frame (recv : TfwH2Ctx) : Change drops c {c with recv:=recv}
  | queues (idle closed : TfwStreamQueue) : Change drops c {c with idleStreams:=idle, closedStreams:=closed}
  | opened (id : Nat) : Change drops c {c with log:=.opened id::c.log}
  | create (id : Nat) (c' : H2Ctx) : id≠0 → c.streamCreate id=some c' → Change drops c c'
  | clean (id : Nat) : drops id → Change drops c (c.streamClean id)
  | close (id : Nat) : Change drops c (c.setStreamState id .closed)
  | fsm (s : TfwStream) (f : Fsm) : s∈c.streams → FsmFrame ⟨c,s,.ok,none⟩ f →
      (s.state=.closed → f.stream.state=.closed) → Change drops c (f.ctx.setStream f.stream)
  | connWnd (incr : Nat) (wnd : Int) : incrementWndSz c.remWnd incr=some wnd →
      Change drops c {c with remWnd:=wnd, log:=.wndIncr 0 incr::c.log}
  | streamWnd (s : TfwStream) (incr : Nat) (wnd : Int) (c' : H2Ctx) :
      s∈c.streams → s.id≠0 → incrementWndSz s.remWnd incr=some wnd →
      {c with log:=.wndIncr s.id incr::c.log}.streamTryUnblock {s with remWnd:=wnd} = some c' → Change drops c c'

def Changes (drops : Nat → Prop) : H2Ctx → H2Ctx → Prop := Relation.ReflTransGen (Change drops)

namespace Changes
variable {drops : Nat → Prop} {c c' c'' : H2Ctx}
lemma refl (c : H2Ctx) : Changes drops c c := Relation.ReflTransGen.refl

lemma trans (h : Changes drops c c') (h' : Changes drops c' c'') : Changes drops c c'' :=
  Relation.ReflTransGen.trans h h'

lemma one (h : Change drops c c') : Changes drops c c' := Relation.ReflTransGen.single h

lemma induction {P : H2Ctx → Prop} (hst : ∀c c',P c → Change drops c c' → P c')
    (h : Changes drops c c') (hc : P c) : P c' := by
  induction h with
  | refl => exact hc
  | tail _ hch ih => exact hst _ _ ih hch

end Changes

variable {c : H2Ctx}
lemma locHalfClosed_of_closed {s : TfwStream} {type : TfwFrameType} {flags : UInt8}
    {f : Fsm} (hr : type ≠ .rstStream) (hp : type ≠ .priority)
    (hf : streamFsm c s type flags false=some f) (hok : f.res=.ok)
    (hc : f.stream.state=.closed) : s.state=.locHalfClosed := by
  obtain ⟨m,rfl,⟨-,hs⟩ | ⟨-,rfl⟩⟩ := streamFsm_eq_some hf
  · rw [res_fsmFinish] at hok
    rw [stream_fsmFinish] at hc
    unfold fsmSwitch at hs
    cases hst : s.state <;> simp only [hst,Option.some.injEq,reduceCtorEq] at hs
    case locHalfClosed => rfl
    case idle =>
      exfalso
      simp only [fsmIdle,Bool.false_eq_true,if_false,if_neg hr,if_pos hp] at hs
      split at hs
      · split at hs <;> cases hs <;> simp at hc
      · cases hs
        simp at hok
    case opened =>
      subst hs
      exfalso
      revert hc
      simp only [fsmOpened,if_neg hr,Bool.false_eq_true,if_false]
      split_ifs <;> simp [hst,halfClosed]
    case remHalfClosed =>
      subst hs
      exfalso
      revert hc hok
      simp only [fsmRemHalfClosed,if_neg hr,Bool.false_eq_true,if_false]
      split_ifs <;> simp [hst]
    case locClosed =>
      subst hs
      exfalso
      revert hc hok
      simp only [fsmLocClosed,if_neg hr,Bool.false_eq_true,if_false]
      split_ifs <;> simp [hst]
    case closed =>
      subst hs
      simp [fsmClosed,hp] at hok
  · simp at hok

namespace H2Ctx

lemma findStream_setStream {c : H2Ctx} {s : TfwStream} (h : ∃t∈c.streams,t.id=s.id) :
    (c.setStream s).findStream s.id=some s := by
  have hs : ((c.setStream s).findStream s.id).isSome := by
    rw [findStream_isSome]
    obtain ⟨t,ht,hid⟩ := h
    exact ⟨s,mem_map.2 ⟨t,ht,if_pos hid⟩,rfl⟩
  obtain ⟨t,ht⟩ := isSome_iff_exists.1 hs
  obtain ⟨hm,hid⟩ := findStream_eq_some ht
  obtain rfl | ⟨-,hne⟩ := mem_setStream hm
  · exact ht
  · exact absurd hid hne

section
variable {drops : Nat → Prop} {c c' : H2Ctx}
lemma changes_delFromQueueNolock (c : H2Ctx) (id : Nat) : Changes drops c (c.delFromQueueNolock id) := by
  unfold delFromQueueNolock
  split_ifs
  · exact .one (.queues _ c.closedStreams)
  · exact .one (.queues c.idleStreams _)
  · exact .refl c

lemma changes_streamAddClosed (c : H2Ctx) (id : Nat) : Changes drops c (c.streamAddClosed id) := by
  unfold streamAddClosed
  split_ifs
  · exact .refl c
  · exact .one (.queues c.idleStreams _)

lemma changes_streamAddIdle (c : H2Ctx) (id : Nat) : Changes drops c (c.streamAddIdle id) := by
  unfold streamAddIdle
  split
  · exact .one (.queues _ c.closedStreams)
  · unfold addToIdleNolock
    split_ifs
    · exact .refl c
    · exact .one (.queues _ c.closedStreams)

lemma changes_currentStreamSendRst (c : H2Ctx) (id : Nat) : Changes drops c (c.currentStreamSendRst id) :=
  (changes_delFromQueueNolock c id).trans (changes_streamAddClosed _ id)

variable {id t maxStreams : Nat} {fr : RecvFrame} {s : TfwStream}
lemma changes_currentStreamRemove (hid : drops id) : Changes drops c (c.currentStreamRemove id) :=
  (changes_delFromQueueNolock c id).trans (.one (.clean id hid))

lemma changes_removeIdleLoop (id : Nat) (l : List Nat) (c : H2Ctx) : Changes drops c (removeIdleLoop id l c) := by
  induction l generalizing c with
  | nil => exact .refl c
  | cons t rest ih =>
    rw [removeIdleLoop]
    split_ifs
    · exact .refl c
    · refine Changes.trans ?_ (ih _)
      refine (changes_delFromQueueNolock c t).trans ?_
      exact (Changes.one (.close t)).trans (changes_streamAddClosed _ t)

lemma changes_removeIdleStreams (c : H2Ctx) (id : Nat) : Changes drops c (c.removeIdleStreams id) :=
  changes_removeIdleLoop id _ c

lemma mem_closed_of_delFromQueueNolock
    (h : t∈(c.delFromQueueNolock id).closedStreams.list) : t∈c.closedStreams.list := by
  unfold delFromQueueNolock at h
  split_ifs at h
  · exact h
  · exact mem_of_mem_erase h
  · exact h

lemma mem_closed_of_streamAddClosed
    (h : t∈(c.streamAddClosed id).closedStreams.list) : t∈c.closedStreams.list ∨ t=id := by
  unfold streamAddClosed at h
  split_ifs at h
  · exact .inl h
  · simpa using h

variable {l : List Nat} {go send : Bool} {type : TfwFrameType} {flags : UInt8} {f : Fsm} {cur : Option TfwStream}
lemma mem_closed_of_removeIdleLoop
    (h : t∈(removeIdleLoop id l c).closedStreams.list) : t∈c.closedStreams.list ∨ t∈l := by
  induction l generalizing c with
  | nil => exact .inl h
  | cons u rest ih =>
    rw [removeIdleLoop] at h
    split_ifs at h
    · exact .inl h
    · obtain hc | hr := ih h
      · obtain hc | rfl := mem_closed_of_streamAddClosed hc
        · exact .inl (mem_closed_of_delFromQueueNolock hc)
        · exact .inr (.head _)
      · exact .inr (.tail _ hr)

lemma changes_closedStreamsShrinkLoop {n : Nat} (hc : ∀id∈c.closedStreams.list,drops id) :
    Changes drops c (closedStreamsShrinkLoop maxStreams n c) := by
  induction n generalizing c with
  | zero => exact .refl c
  | succ n ih =>
    rw [closedStreamsShrinkLoop]
    split_ifs
    · exact .refl c
    · split
      · exact .refl c
      · rename_i id rest hl
        have hid : drops id := hc id (by rw [hl]; exact .head _)
        refine (changes_currentStreamRemove hid).trans (ih ?_)
        intro t ht
        exact hc t (mem_closed_of_delFromQueueNolock ht)

lemma changes_closedStreamsShrink (maxStreams : Nat) (hc : ∀id∈c.closedStreams.list,drops id) :
    Changes drops c (c.closedStreamsShrink maxStreams) := changes_closedStreamsShrinkLoop hc

lemma streamRecvProcess_eq_some (h : c.streamRecvProcess id fr=some (c',go)) :
    ∃ (s : TfwStream) (f : Fsm),s∈c.streams ∧ s.id=id ∧ c.findStream id=some s ∧
      streamFsm (c.withFrame fr.hdr fr.plen) s fr.hdr.type fr.hdr.flags false=some f ∧
      (f.res=.ok ∧ go=true ∧ c'=f.ctx.setStream f.stream ∨ f.res=.ignore ∧ go=false ∧ c'=f.ctx.setStream f.stream ∨
        f.res=.termStream ∧ go=false ∧ c'=(f.ctx.setStream f.stream).currentStreamSendRst id) := by
  obtain ⟨s,hs,h⟩ := bind_eq_some_iff.1 h
  obtain ⟨f,hf,h⟩ := bind_eq_some_iff.1 h
  obtain ⟨hm,hid⟩ := findStream_eq_some hs
  refine ⟨s,f,hm,hid,hs,hf,?_⟩
  cases hr : f.res with
  | ok =>
    simp only [hr,Option.some.injEq,Prod.mk.injEq] at h
    exact .inl ⟨rfl,h.2.symm,h.1.symm⟩
  | ignore =>
    simp only [hr,Option.some.injEq,Prod.mk.injEq] at h
    exact .inr (.inl ⟨rfl,h.2.symm,h.1.symm⟩)
  | termStream =>
    simp only [hr,Option.some.injEq,Prod.mk.injEq] at h
    exact .inr (.inr ⟨rfl,h.2.symm,h.1.symm⟩)
  | termConn => simp [hr] at h

lemma changes_streamFsm (hs : s∈c.streams) (hf : streamFsm c s type flags send=some f) :
    Changes drops c (f.ctx.setStream f.stream) := by
  refine .one (.fsm s f hs (frame_streamFsm hf) ?_)
  intro hc
  have hne : s.state ≠ .idle := by simp [hc]
  exact (state_streamFsm hf hne).2 hc

lemma findStream_of_streamFsm {hdr : TfwFrameHdr} {plen : Nat} (hs : s∈c.streams)
    (hf : streamFsm (c.withFrame hdr plen) s type flags send=some f) :
    (f.ctx.setStream f.stream).findStream s.id=some f.stream := by
  have hfr := frame_streamFsm hf
  have hid : f.stream.id=s.id := by rw [hfr.stream]
  have hst : f.ctx.streams=c.streams := by
    rw [hfr.ctx]
    rfl
  rw [← hid]
  exact findStream_setStream ⟨s,hst ▸ hs,hid.symm⟩

lemma changes_streamRecvProcess (h : c.streamRecvProcess id fr=some (c',go)) : Changes drops c c' := by
  obtain ⟨s,f,hs,-,-,hf,hr⟩ := streamRecvProcess_eq_some h
  have hfr : Changes drops c (c.withFrame fr.hdr fr.plen) := .one (.frame _)
  have hfs : Changes drops c (f.ctx.setStream f.stream) := hfr.trans (changes_streamFsm hs hf)
  obtain ⟨-,-,rfl⟩ | ⟨-,-,rfl⟩ | ⟨-,-,rfl⟩ := hr
  · exact hfs
  · exact hfs
  · exact hfs.trans (changes_currentStreamSendRst _ id)

lemma changes_streamError (h : c.streamError id=some c') : Changes drops c c' := by
  obtain ⟨s,hs,h⟩ := bind_eq_some_iff.1 h
  obtain ⟨f,hf,h⟩ := bind_eq_some_iff.1 h
  split_ifs at h
  cases h
  exact (changes_streamFsm (findStream_eq_some hs).1 hf).trans (changes_currentStreamSendRst _ id)

lemma changes_recvPriorityFor (h : c.recvPriorityFor fr=some c') : Changes drops c c' := by
  obtain ⟨⟨c1,go⟩,hr,h⟩ := bind_eq_some_iff.1 h
  refine (changes_streamRecvProcess hr).trans ?_
  simp only at h
  split_ifs at h
  · obtain ⟨s,-,h⟩ := bind_eq_some_iff.1 h
    split_ifs at h
    · cases h
      exact .refl c'
    · exact changes_streamError h
  · cases h
    exact .refl c'

@[simp] lemma streams_noteOpened (c : H2Ctx) (s : TfwStream) : (c.noteOpened s).streams=c.streams := by
  unfold noteOpened
  split_ifs <;> rfl

lemma changes_noteOpened (c : H2Ctx) (s : TfwStream) : Changes drops c (c.noteOpened s) := by
  unfold noteOpened
  split_ifs
  · exact .one (.opened s.id)
  · exact .refl c

lemma currentStreamStateProcess_eq_some (h : c.currentStreamStateProcess id fr=some c') :
    ∃ (s : TfwStream) (f : Fsm),s∈c.streams ∧ s.id=id ∧ c.findStream id=some s ∧
      streamFsm (c.withFrame fr.hdr fr.plen) s fr.hdr.type fr.hdr.flags false=some f ∧ (f.res=.ok ∧
          c'=(if f.stream.state=.closed then ((f.ctx.setStream f.stream).noteOpened s).currentStreamRemove id
            else (f.ctx.setStream f.stream).noteOpened s) ∨ f.res=.ignore ∧ c'=f.ctx.setStream f.stream ∨
        f.res=.termStream ∧ c'=(f.ctx.setStream f.stream).currentStreamSendRst id) := by
  obtain ⟨s,hs,h⟩ := bind_eq_some_iff.1 h
  obtain ⟨⟨c1,go⟩,hre,h⟩ := bind_eq_some_iff.1 h
  obtain ⟨s',f,hm,hid,hs',hf,hr⟩ := streamRecvProcess_eq_some hre
  obtain rfl : s=s' := Option.some.inj (hs.symm.trans hs')
  refine ⟨s,f,hm,hid,hs,hf,?_⟩
  obtain ⟨hok,rfl,rfl⟩ | ⟨hi,rfl,rfl⟩ | ⟨ht,rfl,rfl⟩ := hr
  · refine .inl ⟨hok,?_⟩
    have hfi : ((f.ctx.setStream f.stream).noteOpened s).findStream id=some f.stream := by
      rw [findStream,streams_noteOpened,← hid]
      exact findStream_of_streamFsm hm hf
    simp only [if_true,Option.some.injEq] at h
    rw [← h,checkCurrentStreamIsClosed,hfi,any_some]
    simp only [beq_iff_eq]
  · cases h
    exact .inr (.inl ⟨hi,rfl⟩)
  · cases h
    exact .inr (.inr ⟨ht,rfl⟩)

lemma changes_currentStreamStateProcess (hrs : fr.hdr.type ≠ .rstStream) (hp : fr.hdr.type ≠ .priority)
    (hd : ∀s,c.findStream id=some s → s.state=.locHalfClosed → drops id)
    (h : c.currentStreamStateProcess id fr=some c') : Changes drops c c' := by
  obtain ⟨s,f,hm,-,hs,hf,hr⟩ := currentStreamStateProcess_eq_some h
  have hfr : Changes drops c (c.withFrame fr.hdr fr.plen) := .one (.frame _)
  have hfs : Changes drops c (f.ctx.setStream f.stream) := hfr.trans (changes_streamFsm hm hf)
  obtain ⟨hok,rfl⟩ | ⟨-,rfl⟩ | ⟨-,rfl⟩ := hr
  · refine (hfs.trans (changes_noteOpened _ s)).trans ?_
    split_ifs with hc
    · exact changes_currentStreamRemove (hd s hs (locHalfClosed_of_closed hrs hp hf hok hc))
    · exact .refl _
  · exact hfs
  · exact hfs.trans (changes_currentStreamSendRst _ id)

lemma findStream_setStreamState (c : H2Ctx) (id t : Nat) (state : TfwStreamState) :
    (c.setStreamState t state).findStream id =
      (c.findStream id).map fun s => if s.id=t then {s with state:=state} else s := by
  simp only [findStream,setStreamState,find?_map]
  congr 2
  funext s
  simp only [Function.comp_apply]
  split_ifs <;> rfl

@[simp] lemma findStream_delFromQueueNolock (c : H2Ctx) (id t : Nat) :
    (c.delFromQueueNolock t).findStream id=c.findStream id := by
  unfold delFromQueueNolock
  split_ifs <;> rfl

@[simp] lemma findStream_streamAddClosed (c : H2Ctx) (id t : Nat) :
    (c.streamAddClosed t).findStream id=c.findStream id := by
  unfold streamAddClosed
  split_ifs <;> rfl

lemma findStream_of_removeIdleLoop {k : Nat}
    (h : (removeIdleLoop k l c).findStream id=some s) (hs : s.state ≠ .closed) : c.findStream id=some s := by
  induction l generalizing c with
  | nil => exact h
  | cons t rest ih =>
    rw [removeIdleLoop] at h
    split_ifs at h
    · exact h
    · have hb := ih h
      rw [findStream_streamAddClosed,findStream_setStreamState,findStream_delFromQueueNolock] at hb
      obtain ⟨s',hs',heq⟩ := map_eq_some_iff.1 hb
      split_ifs at heq
      · exact absurd (by rw [← heq]) hs
      · rw [hs',heq]

def dropped (c : H2Ctx) (fr : RecvFrame) (id : Nat) : Bool := c.queued id || (id == fr.hdr.streamId &&
    match fr.hdr.type with
    | .rstStream => true
    | .headers | .continuation | .data => (c.findStream id).any (·.state == .locHalfClosed)
    | _ => false)

lemma findStream_of_streamCreate (h : c.streamCreate id=some c') (hs : c'.findStream id=some s) : s.state=.idle := by
  unfold streamCreate at h
  split_ifs at h with hf
  cases h
  obtain ⟨hm,hid⟩ := findStream_eq_some hs
  obtain hold | hn := mem_append.1 hm
  · exact absurd (findStream_isSome.2 ⟨s,hold,hid⟩) hf
  · rw [mem_singleton.1 hn]

lemma changes_headersProcess (hty : fr.hdr.type=.headers) (h0 : fr.hdr.streamId≠0)
    (hd : cur.isSome → ∀s,c.findStream fr.hdr.streamId=some s → s.state=.locHalfClosed → drops fr.hdr.streamId)
    (h : c.headersProcess cur fr=some c') : Changes drops c c' := by
  have hr : fr.hdr.type ≠ .rstStream := by simp [hty]
  have hp : fr.hdr.type ≠ .priority := by simp [hty]
  have hl : Changes drops c (c.setLstreamId fr.hdr.streamId) := .one (.frame _)
  refine hl.trans ?_
  unfold headersProcess at h
  simp only at h
  split at h
  · split at h
    · cases h
      exact .refl _
    · cases h
      exact changes_currentStreamSendRst _ _
  · cases cur with
    | none =>
      obtain ⟨c1,hc,h⟩ := bind_eq_some_iff.1 h
      refine (Changes.one (.create _ c1 h0 hc)).trans ?_
      refine changes_currentStreamStateProcess hr hp ?_ h
      intro s hs hst
      have hi := findStream_of_streamCreate hc hs
      simp [hst] at hi
    | some s =>
      simp only at h
      split at h
      · refine (changes_delFromQueueNolock _ fr.hdr.streamId).trans ?_
        refine changes_currentStreamStateProcess hr hp ?_ h
        intro t ht
        rw [findStream_delFromQueueNolock] at ht
        exact hd rfl t ht
      · exact changes_currentStreamStateProcess hr hp (hd rfl) h

lemma changes_recvHeader (hty : fr.hdr.type=.headers) (h0 : fr.hdr.streamId≠0)
    (hd : cur.isSome → ∀s,c.findStream fr.hdr.streamId=some s → s.state=.locHalfClosed → drops fr.hdr.streamId)
    (h : c.recvHeader cur fr=some c') : Changes drops c c' := by
  unfold recvHeader at h
  split_ifs at h
  · cases h
    exact .refl c
  · exact changes_headersProcess hty h0 hd h

lemma changes_recvHeaders (hty : fr.hdr.type=.headers) (h : c.recvHeaders maxStreams fr=some c') :
    Changes (fun id => c.dropped fr id=true) c c' := by
  unfold recvHeaders at h
  simp only at h
  split at h
  · cases h
  · rename_i hv
    have h0 : fr.hdr.streamId≠0 := fun h0 => hv (.inl h0)
    refine (changes_removeIdleStreams c fr.hdr.streamId).trans ?_
    split at h
    · have hc : ∀t∈(c.removeIdleStreams fr.hdr.streamId).closedStreams.list,c.dropped fr t=true := by
        intro t ht
        have hq : c.queued t=true := by
          obtain ht | ht := mem_closed_of_removeIdleLoop ht
          · simp [queued,ht]
          · simp [queued,ht]
        simp [dropped,hq]
      refine (changes_closedStreamsShrink maxStreams hc).trans ?_
      split at h
      · cases h
        exact .refl _
      · rename_i hn _
        refine changes_recvHeader hty h0 ?_ h
        intro hso
        rw [isNone_iff_eq_none] at hn
        simp [hn] at hso
    · refine changes_recvHeader hty h0 ?_ h
      intro _ s hs hst
      have hb := findStream_of_removeIdleLoop hs (by simp [hst])
      simp [dropped,hty,hb,hst]

lemma changes_recvPriority (h : c.recvPriority maxStreams fr=some c') :
    Changes (fun id => c.dropped fr id=true) c c' := by
  unfold recvPriority at h
  simp only at h
  split_ifs at h with h0
  · exact changes_recvPriorityFor h
  · have hc : ∀t∈c.closedStreams.list,c.dropped fr t=true := by
      intro t ht
      simp [dropped,queued,ht]
    refine (changes_closedStreamsShrink maxStreams hc).trans ?_
    obtain ⟨c1,hcr,h⟩ := bind_eq_some_iff.1 h
    refine (Changes.one (.create _ c1 h0 hcr)).trans ?_
    exact (changes_streamAddIdle c1 _).trans (changes_recvPriorityFor h)
  · cases h
    exact .refl c

lemma changes_recvRstStream (ht : fr.hdr.type=.rstStream)
    (h : c.recvRstStream fr=some c') : Changes (fun id => c.dropped fr id=true) c c' := by
  unfold recvRstStream at h
  simp only at h
  split_ifs at h
  · cases h
    exact .refl c
  · obtain ⟨⟨c1,go⟩,hr,rfl⟩ := map_eq_some_iff.1 h
    refine (changes_streamRecvProcess hr).trans ?_
    simp only
    split_ifs
    · refine changes_currentStreamRemove ?_
      simp [dropped,ht]
    · exact .refl c1

lemma changes_recvData (ht : fr.hdr.type=.data ∨ fr.hdr.type=.continuation)
    (h : c.recvData fr=some c') : Changes (fun id => c.dropped fr id=true) c c' := by
  unfold recvData at h
  simp only at h
  split_ifs at h
  · cases h
    exact .refl c
  · refine changes_currentStreamStateProcess ?_ ?_ ?_ h
    · rcases ht with ht | ht <;> simp [ht]
    · rcases ht with ht | ht <;> simp [ht]
    · intro s hs hst
      rcases ht with ht | ht <;> simp [dropped,ht,hs,hst]

lemma changes_wndUpdateProcess {incr : Nat} (hc : ∀s,cur=some s → s∈c.streams ∧ s.id≠0)
    (h : c.wndUpdateProcess cur incr=some c') : Changes drops c c' := by
  unfold wndUpdateProcess at h
  cases cur with
  | none =>
    simp only at h
    split_ifs at h
    obtain ⟨wnd,hw,rfl⟩ := map_eq_some_iff.1 h
    exact .one (.connWnd _ wnd hw)
  | some s =>
    obtain ⟨hm,hid⟩ := hc s rfl
    simp only at h
    split at h
    · exact changes_streamError h
    · split at h
      · exact changes_streamError h
      · rename_i wnd hw
        exact .one (.streamWnd s _ wnd c' hm hid hw h)

lemma changes_recvWndUpdate (h : c.recvWndUpdate fr=some c') : Changes drops c c' := by
  unfold recvWndUpdate at h
  simp only at h
  split_ifs at h with hl h0 hc
  · exact changes_wndUpdateProcess (by simp) h
  · cases h
    exact .refl c
  · obtain ⟨⟨c1,go⟩,hr,h⟩ := bind_eq_some_iff.1 h
    refine (changes_streamRecvProcess hr).trans ?_
    simp only at h
    split at h
    · obtain ⟨s,hs,h⟩ := bind_eq_some_iff.1 h
      refine changes_wndUpdateProcess ?_ h
      rintro _ ⟨⟩
      obtain ⟨hm,hid⟩ := findStream_eq_some hs
      exact ⟨hm,by rwa [hid]⟩
    · cases h
      exact .refl c'

lemma changes_recvFrame (h : c.recvFrame maxStreams fr=some c') : Changes (fun id => c.dropped fr id=true) c c' := by
  obtain ⟨c1,hf,rfl⟩ := map_eq_some_iff.1 h
  have hr : Changes (fun id => c.dropped fr id=true) c1 c1.reinit := .one (.frame _)
  refine Changes.trans ?_ hr
  cases ht : fr.hdr.type <;> simp only [ht] at hf
  case data => exact changes_recvData (.inl ht) hf
  case continuation => exact changes_recvData (.inr ht) hf
  case headers => exact changes_recvHeaders ht hf
  case priority => exact changes_recvPriority hf
  case rstStream => exact changes_recvRstStream ht hf
  case windowUpdate => exact changes_recvWndUpdate hf
  case settings | ping | goaway =>
    cases hf
    exact .refl c
  case pushPromise => cases hf
  case undefined =>
    split_ifs at hf
    cases hf
    exact .refl c

end
end H2Ctx

inductive ConnEffect (c : H2Ctx) : ConnOp → H2Ctx → Prop
  | recv (maxStreams : Nat) (fr : RecvFrame) (c' : H2Ctx) :
      Changes (fun id => c.dropped fr id=true) c c' → ConnEffect c (.recv maxStreams fr) c'
  | initWndSize (val : Nat) (c' : H2Ctx) : val ≤ maxWndSize → c.applyWndSzChange (val-c.rsettings.wndSz)=some c' →
      ConnEffect c (.settings .initWndSize val) {c' with rsettings:={c'.rsettings with wndSz:=val}}
  | maxFrameSize (val : Nat) : ConnEffect c (.settings .maxFrameSize val)
        {c with rsettings:={c.rsettings with maxFrameSz:=val}}
  | initForXmit (s : TfwStream) (state : TfwStreamXmitState) (hLen bLen : Nat) :
      s∈c.streams → s.state ≠ .idle → state=.encodeHeaders ∨ state=.releaseResponse →
      ConnEffect c (.initForXmit s.id state hLen bLen) (c.streamInitForXmit s state hLen bLen)
  | initTLenForXmit (s : TfwStream) (tLen : Nat) : s∈c.streams → s.state ≠ .idle → s.xmit.skbHead=0 →
      ConnEffect c (.initTLenForXmit s.id tLen) (c.setStream {s with xmit:={s.xmit with tLen:=tLen}})
  | dropResp (id len : Nat) (error : Bool) : ConnEffect c (.sendResp id len error) c
  | sendResp (s : TfwStream) (len : Nat) (error : Bool) (errorStream : Option Nat) :
      s∈c.streams → s.state ≠ .idle → s.xmit.skbHead=0 → s.state ≠ .closed → ConnEffect c (.sendResp s.id len error)
        ({c with error:=errorStream}.setStream {s with
            xmit:={s.xmit with
              resp:=true
              skbHead:=s.xmit.hLen+s.xmit.bLen+s.xmit.tLen+len}})
  | frameNow (rst : Option Nat) (len : Nat) : ConnEffect c (.sendFrame rst len) c
  | sendFrame (s : TfwStream) (rst : Option Nat) (len more postponed : Nat) :
      s∈c.streams → (s.xmit.skbHead=0 → more=0) → ConnEffect c (.sendFrame rst len)
        (c.setStream {s with xmit:={s.xmit with skbHead:=s.xmit.skbHead+more, postponed:=postponed}})
  | makeFrames (args : MakeArgs) (c' : H2Ctx) :
      c.makeFrames args=.ok (none,c') → ConnEffect c (.makeFrames args) c'.reinit
  | unlinkAndClose (id : Nat) (c' : H2Ctx) : Changes (fun _ => False) c c' → ConnEffect c (.unlinkAndClose id) c'

lemma reqStream_eq_some {id : Nat} {s : TfwStream} (h : reqStream c id=some s) :
    s∈c.streams ∧ s.id=id ∧ s.state ≠ .idle := by
  obtain ⟨hf,hst⟩ := filter_eq_some_iff.1 h
  obtain ⟨hm,hid⟩ := findStream_eq_some hf
  exact ⟨hm,hid,by simpa using hst⟩

lemma connEffect_onSendDflt (rst : Option Nat) (len : Nat) : ConnEffect c (.sendFrame rst len) (c.onSendDflt len) := by
  unfold onSendDflt
  cases hs : c.curSendHeaders.bind c.findStream with
  | none => exact .frameNow rst len
  | some s =>
    obtain ⟨id,-,hf⟩ := bind_eq_some_iff.1 hs
    exact .sendFrame s rst len 0 _ (findStream_eq_some hf).1 fun _ => rfl

lemma connEffect_onSendRstStream (id len : Nat) :
    ConnEffect c (.sendFrame (some id) len) (c.onSendRstStream id len) := by
  unfold onSendRstStream
  cases hs : (c.findNotClosedStream id).filter (·.xmit.skbHead != 0) with
  | none => exact connEffect_onSendDflt (some id) len
  | some s =>
    obtain ⟨hf,hne⟩ := filter_eq_some_iff.1 hs
    refine .sendFrame s (some id) len len s.xmit.postponed (findStream_eq_some (filter_eq_some_iff.1 hf).1).1 ?_
    exact fun h0 => absurd h0 (by simpa using hne)

lemma connEffect_connStep {c' : H2Ctx} {op : ConnOp} (h : connStep c op=some c') : ConnEffect c op c' := by
  cases op with
  | recv maxStreams fr => exact .recv maxStreams fr c' (H2Ctx.changes_recvFrame h)
  | settings id val =>
    simp only [connStep,applySettingsEntry] at h
    split_ifs at h with hch
    cases id with
    | initWndSize =>
      obtain ⟨c1,hc1,rfl⟩ := map_eq_some_iff.1 h
      exact .initWndSize val c1 (of_decide_eq_true hch) hc1
    | maxFrameSize =>
      cases h
      exact .maxFrameSize val
  | initForXmit id state hLen bLen =>
    simp only [connStep] at h
    split_ifs at h with hst
    obtain ⟨s,hs,rfl⟩ := map_eq_some_iff.1 h
    obtain ⟨hm,rfl,hi⟩ := reqStream_eq_some hs
    exact .initForXmit s state hLen bLen hm hi hst
  | initTLenForXmit id tLen =>
    obtain ⟨s,hs,rfl⟩ := map_eq_some_iff.1 h
    obtain ⟨hreq,hq⟩ := filter_eq_some_iff.1 hs
    obtain ⟨hm,rfl,hi⟩ := reqStream_eq_some hreq
    exact .initTLenForXmit s tLen hm hi (by simpa using hq)
  | sendResp id len error =>
    obtain ⟨s,hs,hr⟩ := bind_eq_some_iff.1 h
    obtain ⟨hm,rfl,hi⟩ := reqStream_eq_some hs
    simp only [onSendResp] at hr
    split_ifs at hr with hc hb
    · cases hr
      exact .dropResp s.id len error
    · cases hr
      exact .sendResp s len error _ hm hi (by simpa using (not_or.1 hb).1) hc
    · cases hr
      exact .sendResp s len error c.error hm hi (by simpa using (not_or.1 hb).1) hc
  | sendFrame rst len =>
    cases rst with
    | none =>
      cases h
      exact connEffect_onSendDflt none len
    | some id =>
      cases h
      exact connEffect_onSendRstStream id len
  | makeFrames args =>
    simp only [connStep] at h
    split at h
    · rename_i c1 hma
      cases h
      exact .makeFrames args c1 hma
    · cases h
  | unlinkAndClose id =>
    obtain ⟨s,-,rfl⟩ := map_eq_some_iff.1 h
    refine .unlinkAndClose id _ ?_
    exact (Changes.one (.close id)).trans (H2Ctx.changes_streamAddClosed _ id)
end VetWaf.H2
