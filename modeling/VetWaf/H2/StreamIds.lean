import VetWaf.H2.StreamTable

namespace VetWaf.H2
open H2Ctx List

def openedIds : List H2Event → List Nat
  | [] => []
  | .opened id::log => id::openedIds log
  | .created _ :: log => openedIds log
  | .wndIncr _ _ :: log => openedIds log
  | .data _ _ _ _ _ :: log => openedIds log

lemma idle_streamFsm {c : H2Ctx} {s : TfwStream} {type : TfwFrameType} {flags : UInt8}
    {send : Bool} {f : Fsm} (h : streamFsm c s type flags send=some f) (hi : s.state=.idle) :
    f.res=.termConn ∧ f.stream.state=.idle ∨
      f.res=.ok ∧ type=.headers ∧ f.stream.state ≠ .idle ∧ f.stream.state ≠ .closed ∨
      f.res=.ok ∧ type=.priority ∧ f.stream.state=.idle := by
  obtain ⟨m,rfl,⟨-,hs⟩ | ⟨-,rfl⟩⟩ := streamFsm_eq_some h
  · rw [res_fsmFinish,stream_fsmFinish]
    simp only [fsmSwitch,hi] at hs
    unfold fsmIdle at hs
    split at hs
    · cases hs
    · split at hs
      · cases hs
        exact .inl ⟨rfl,hi⟩
      · split at hs
        · rename_i ht
          refine .inr (.inl ?_)
          split at hs <;> cases hs <;> simp [ht]
        · split at hs
          · cases hs
            exact .inl ⟨rfl,hi⟩
          · rename_i hp
            cases hs
            exact .inr (.inr ⟨rfl,not_not.1 hp,hi⟩)
  · rw [res_fsmFinish,stream_fsmFinish]
    exact .inl ⟨rfl,hi⟩

lemma termConn_of_closed {c : H2Ctx} {s : TfwStream} {type : TfwFrameType} {flags : UInt8}
    {f : Fsm} (h : streamFsm c s type flags false=some f) (hc : s.state=.closed)
    (hp : type ≠ .priority) : f.res=.termConn := by
  obtain ⟨m,rfl,⟨-,hs⟩ | ⟨-,rfl⟩⟩ := streamFsm_eq_some h
  · simp only [fsmSwitch,hc,fsmClosed,Bool.false_eq_true,if_false,if_pos hp,Option.some.injEq] at hs
    rw [res_fsmFinish,← hs]
    rfl
  · rw [res_fsmFinish]
    rfl

/-- The streams above the last one opened are idle or were closed without being opened, and the idle
ones are in their queue, except for `cur`, which a frame is about to open or to queue. -/
structure IdsInv (cur : Option Nat) (last : Nat) (opened : List Nat) (c : H2Ctx) : Prop where
  lstreamId : c.lstreamId=last
  log : openedIds c.log=opened
  queue : c.IdleInv
  closed : c.closedStreams.list.Nodup
  listed : ∀s∈c.streams,s.state=.idle → cur=some s.id ∨ s.id∈c.idleStreams.list ∧ last<s.id
  fresh : ∀s∈c.streams,last<s.id → (s.state=.idle ∨ s.state=.closed) ∧ s.xmit.skbHead=0
  present : ∀id,last < id → c.queued id=true → ∃s∈c.streams,s.id=id

namespace H2Ctx
variable {c : H2Ctx} {id t : Nat}
lemma exists_mem_setStream {s : TfwStream} (hs : s∈c.streams) (u : TfwStream) :
    ∃t∈(c.setStream u).streams,t.id=s.id := by
  refine ⟨if s.id=u.id then u else s,mem_map.2 ⟨s,hs,rfl⟩,?_⟩
  split_ifs with heq
  · exact heq.symm
  · rfl

@[simp] lemma recv_delFromQueueNolock : (c.delFromQueueNolock id).recv=c.recv := by
  unfold delFromQueueNolock
  split_ifs <;> rfl

@[simp] lemma log_delFromQueueNolock : (c.delFromQueueNolock id).log=c.log := by
  unfold delFromQueueNolock
  split_ifs <;> rfl

@[simp] lemma streams_delFromQueueNolock : (c.delFromQueueNolock id).streams=c.streams := by
  unfold delFromQueueNolock
  split_ifs <;> rfl

lemma recv_removeIdleLoop {k : Nat} {l : List Nat} : (removeIdleLoop k l c).recv=c.recv := by
  induction l generalizing c with
  | nil => rfl
  | cons t rest ih =>
    rw [removeIdleLoop]
    split_ifs
    · rfl
    · rw [ih,streamAddClosed_eq]
      exact recv_delFromQueueNolock

lemma log_removeIdleLoop {k : Nat} {l : List Nat} : (removeIdleLoop k l c).log=c.log := by
  induction l generalizing c with
  | nil => rfl
  | cons t rest ih =>
    rw [removeIdleLoop]
    split_ifs
    · rfl
    · rw [ih,streamAddClosed_eq]
      exact log_delFromQueueNolock

lemma mem_idle_delFromQueueNolock (ht : t≠id) (h : t∈c.idleStreams.list) :
    t∈(c.delFromQueueNolock id).idleStreams.list := by
  unfold delFromQueueNolock
  split_ifs
  · exact (mem_erase_of_ne ht).2 h
  · exact h
  · exact h

lemma queued_of_delFromQueueNolock (h : (c.delFromQueueNolock id).queued t=true) : c.queued t=true := by
  simp only [queued,decide_eq_true_eq] at h ⊢
  unfold delFromQueueNolock at h
  split_ifs at h
  · exact h.imp mem_of_mem_erase fun hm => hm
  · exact h.imp (fun hm => hm) mem_of_mem_erase
  · exact h

lemma nodup_closed_delFromQueueNolock (h : c.closedStreams.list.Nodup) :
    (c.delFromQueueNolock id).closedStreams.list.Nodup := by
  unfold delFromQueueNolock
  split_ifs
  · exact h
  · exact h.erase id
  · exact h

lemma not_queued_delFromQueueNolock (hi : c.IdleInv) (hc : c.closedStreams.list.Nodup) :
    (c.delFromQueueNolock id).queued id=false := by
  have hs : c.idleStreams.list.Nodup := hi.sorted.imp ne_of_lt
  simp only [queued,decide_eq_false_iff_not,not_or]
  unfold delFromQueueNolock
  split_ifs with hil hm
  · exact ⟨hs.not_mem_erase,hi.apart id hil⟩
  · exact ⟨hil,hc.not_mem_erase⟩
  · exact ⟨hil,hm⟩

end H2Ctx

namespace IdsInv
variable {cur : Option Nat} {last id : Nat} {opened : List Nat} {c c' : H2Ctx}
lemma congr (h : IdsInv cur last opened c) (hla : c'.lstreamId=c.lstreamId)
    (hl : openedIds c'.log=openedIds c.log) (hs : c'.streams=c.streams)
    (hi : c'.idleStreams=c.idleStreams) (hc : c'.closedStreams=c.closedStreams) : IdsInv cur last opened c' := by
  refine ⟨hla.trans h.lstreamId,hl.trans h.log,⟨?_,?_,?_⟩,?_,?_,?_,?_⟩
  · rw [hi]
    exact h.queue.sorted
  · rw [hi]
    exact h.queue.num
  · rw [hi,hc]
    exact h.queue.apart
  · rw [hc]
    exact h.closed
  · rw [hs,hi]
    exact h.listed
  · rw [hs]
    exact h.fresh
  · simp only [queued,hs,hi,hc]
    exact h.present

lemma setStream {s t : TfwStream} (h : IdsInv cur last opened c) (hs : s∈c.streams)
    (hid : t.id=s.id) (hil : t.state=.idle → s.state=.idle)
    (hf : last<s.id → (t.state=s.state ∨ t.state=.closed) ∧ t.xmit.skbHead=0) :
    IdsInv cur last opened (c.setStream t) := by
  refine ⟨h.lstreamId,h.log,⟨h.queue.sorted,h.queue.num,h.queue.apart⟩,h.closed,?_,?_,?_⟩
  · intro u hu hst
    obtain rfl | ⟨hu,-⟩ := mem_setStream hu
    · rw [hid]
      exact h.listed s hs (hil hst)
    · exact h.listed u hu hst
  · intro u hu hlt
    obtain rfl | ⟨hu,-⟩ := mem_setStream hu
    · rw [hid] at hlt
      obtain ⟨hst | hst,hqu⟩ := hf hlt
      · exact ⟨hst ▸ (h.fresh s hs hlt).1,hqu⟩
      · exact ⟨.inr hst,hqu⟩
    · exact h.fresh u hu hlt
  · intro i hi hq
    obtain ⟨u,hu,rfl⟩ := h.present i hi hq
    exact exists_mem_setStream hu t

lemma settle {t : TfwStream} (h : IdsInv (some t.id) last opened c) (hil : t.state ≠ .idle)
    (hle : t.id≤last) : IdsInv none last opened (c.setStream t) := by
  refine ⟨h.lstreamId,h.log,⟨h.queue.sorted,h.queue.num,h.queue.apart⟩,h.closed,?_,?_,?_⟩
  · intro u hu hst
    obtain rfl | ⟨hu,hne⟩ := mem_setStream hu
    · exact absurd hst hil
    · obtain heq | hl := h.listed u hu hst
      · exact absurd (Option.some.inj heq).symm hne
      · exact .inr hl
  · intro u hu hlt
    obtain rfl | ⟨hu,-⟩ := mem_setStream hu
    · exact absurd hlt (Nat.not_lt.2 hle)
    · exact h.fresh u hu hlt
  · intro i hi hq
    obtain ⟨u,hu,rfl⟩ := h.present i hi hq
    exact exists_mem_setStream hu t

section
variable (h : IdsInv cur last opened c)
include h
lemma delFromQueueNolock (hid : ∀s∈c.streams,s.id=id → s.state=.idle → cur=some id) :
    IdsInv cur last opened (c.delFromQueueNolock id) := by
  refine ⟨?_,?_,h.queue.delFromQueueNolock id,nodup_closed_delFromQueueNolock h.closed,?_,?_,?_⟩
  · rw [H2Ctx.lstreamId,H2Ctx.recv_delFromQueueNolock]
    exact h.lstreamId
  · rw [log_delFromQueueNolock]
    exact h.log
  · rw [streams_delFromQueueNolock]
    intro s hs hst
    by_cases heq : s.id=id
    · exact .inl (heq ▸ hid s hs heq hst)
    · exact (h.listed s hs hst).imp (fun hc => hc)
        fun hl => ⟨mem_idle_delFromQueueNolock heq hl.1,hl.2⟩
  · rw [streams_delFromQueueNolock]
    exact h.fresh
  · rw [streams_delFromQueueNolock]
    intro i hi hq
    exact h.present i hi (queued_of_delFromQueueNolock hq)

lemma streamAddClosed (hid : last < id → ∃s∈c.streams,s.id=id) : IdsInv cur last opened (c.streamAddClosed id) := by
  unfold H2Ctx.streamAddClosed
  split_ifs with hq
  · exact h
  · simp only [queued,decide_eq_true_eq,not_or] at hq
    refine ⟨h.lstreamId,h.log,⟨h.queue.sorted,h.queue.num,?_⟩,?_,h.listed,h.fresh,?_⟩
    · intro t ht hm
      obtain hold | hn := mem_append.1 hm
      · exact h.queue.apart t ht hold
      · exact hq.1 (mem_singleton.1 hn ▸ ht)
    · refine nodup_append.2 ⟨h.closed,pairwise_singleton _ _,?_⟩
      intro a ha b hb heq
      exact hq.2 (mem_singleton.1 hb ▸ heq ▸ ha)
    · intro i hi hi'
      simp only [queued,decide_eq_true_eq,mem_append,mem_singleton] at hi'
      obtain hil | hold | rfl := hi'
      · exact h.present i hi (by simp [queued,hil])
      · exact h.present i hi (by simp [queued,hold])
      · exact hid hi

lemma streamClean (hid : last < id → c.queued id=false) : IdsInv cur last opened (c.streamClean id) := by
  refine ⟨h.lstreamId,h.log,⟨h.queue.sorted,h.queue.num,h.queue.apart⟩,h.closed,?_,?_,?_⟩
  · intro s hs
    exact h.listed s (mem_of_mem_filter hs)
  · intro s hs
    exact h.fresh s (mem_of_mem_filter hs)
  · intro i hi hq
    have hq' : c.queued i=true := hq
    obtain ⟨s,hs,rfl⟩ := h.present i hi hq'
    refine ⟨s,mem_filter.2 ⟨hs,?_⟩,rfl⟩
    have hne : s.id≠id := by
      intro heq
      rw [heq] at hi hq'
      simp [hid hi] at hq'
    simpa using hne

lemma currentStreamRemove (hid : ∀s∈c.streams,s.id=id → s.state=.idle → cur=some id) :
    IdsInv cur last opened (c.currentStreamRemove id) := (h.delFromQueueNolock hid).streamClean
    fun _ => not_queued_delFromQueueNolock h.queue h.closed

lemma currentStreamSendRst (hid : ∀s∈c.streams,s.id=id → s.state=.idle → cur=some id)
    (hex : last < id → ∃s∈c.streams,s.id=id) : IdsInv cur last opened (c.currentStreamSendRst id) := by
  refine (h.delFromQueueNolock hid).streamAddClosed ?_
  rw [streams_delFromQueueNolock]
  exact hex

end

section
variable (h : IdsInv none last opened c)
include h
lemma not_idle_of_closed {s : TfwStream} (hs : s∈c.streams) (hm : s.id∈c.closedStreams.list) : s.state ≠ .idle := by
  intro hi
  obtain hc | hl := h.listed s hs hi
  · cases hc
  · exact h.queue.apart s.id hl.1 hm

lemma closedStreamsShrinkLoop {maxStreams n : Nat} :
    IdsInv none last opened (H2Ctx.closedStreamsShrinkLoop maxStreams n c) ∧
      (∀s∈(H2Ctx.closedStreamsShrinkLoop maxStreams n c).streams,s∈c.streams) ∧
      (H2Ctx.closedStreamsShrinkLoop maxStreams n c).idleStreams=c.idleStreams := by
  induction n generalizing c with
  | zero => exact ⟨h,fun _ hs => hs,rfl⟩
  | succ n ih =>
    rw [closedStreamsShrinkLoop]
    split_ifs
    · exact ⟨h,fun _ hs => hs,rfl⟩
    · split
      · exact ⟨h,fun _ hs => hs,rfl⟩
      · rename_i id rest hl
        have hm : id∈c.closedStreams.list := by
          rw [hl]
          exact .head _
        have hn : id∉c.idleStreams.list := fun hil => h.queue.apart id hil hm
        have hr : IdsInv none last opened (c.currentStreamRemove id) := by
          refine h.currentStreamRemove ?_
          intro s hs hid hil
          exact absurd hil (h.not_idle_of_closed hs (hid ▸ hm))
        obtain ⟨hi,hsu,hil⟩ := ih hr
        refine ⟨hi,?_,?_⟩
        · intro s hs
          have hs' := mem_of_mem_filter (hsu s hs)
          exact streams_delFromQueueNolock ▸ hs'
        · refine hil.trans ?_
          change (c.delFromQueueNolock id).idleStreams=c.idleStreams
          rw [H2Ctx.delFromQueueNolock,if_neg hn,if_pos hm]

lemma closedStreamsShrink (maxStreams : Nat) : IdsInv none last opened (c.closedStreamsShrink maxStreams) ∧
      (∀s∈(c.closedStreamsShrink maxStreams).streams,s∈c.streams) ∧
      (c.closedStreamsShrink maxStreams).idleStreams=c.idleStreams := h.closedStreamsShrinkLoop

lemma removeIdleStreams (id : Nat) : IdsInv none last opened (c.removeIdleStreams id) ∧
      ∀s∈(c.removeIdleStreams id).streams,s.state=.idle → id ≤ s.id := by
  have hr := removed_removeIdleStreams h.queue id
  have hbe : ∀s∈(c.removeIdleStreams id).streams,s.state=.idle →
      s∈c.streams ∧ ¬(s.id∈c.idleStreams.list ∧ s.id < id) := by
    intro s hs hil
    rw [hr.state] at hs
    obtain ⟨t,ht,rfl⟩ := mem_map.1 hs
    split_ifs at hil ⊢ with hcl
    exact ⟨ht,hcl⟩
  have hab : ∀s∈(c.removeIdleStreams id).streams,s.state=.idle → s.id∈c.idleStreams.list ∧ last<s.id ∧ id ≤ s.id := by
    intro s hs hil
    obtain ⟨hs',hk⟩ := hbe s hs hil
    obtain hc | hl := h.listed s hs' hil
    · cases hc
    · exact ⟨hl.1,hl.2,le_of_not_gt fun hlt => hk ⟨hl.1,hlt⟩⟩
  refine ⟨⟨?_,?_,hr.inv,?_,?_,?_,?_⟩,fun s hs hil => (hab s hs hil).2.2⟩
  · rw [H2Ctx.lstreamId,H2Ctx.removeIdleStreams,H2Ctx.recv_removeIdleLoop]
    exact h.lstreamId
  · rw [H2Ctx.removeIdleStreams,H2Ctx.log_removeIdleLoop]
    exact h.log
  · rw [hr.closed]
    have hso : c.idleStreams.list.Nodup := h.queue.sorted.imp ne_of_lt
    refine nodup_append.2 ⟨h.closed,hso.filter _,?_⟩
    intro a ha b hb heq
    exact h.queue.apart b (mem_of_mem_filter hb) (heq ▸ ha)
  · intro s hs hil
    obtain ⟨hm,hla,hle⟩ := hab s hs hil
    rw [hr.idle]
    exact .inr ⟨mem_filter.2 ⟨hm,by simpa using hle⟩,hla⟩
  · rw [hr.state]
    intro s hs hlt
    obtain ⟨t,ht,rfl⟩ := mem_map.1 hs
    split_ifs at hlt ⊢
    · exact ⟨.inr rfl,(h.fresh t ht hlt).2⟩
    · exact h.fresh t ht hlt
  · intro i hi hq
    have hq' : c.queued i=true := by
      simp only [queued,hr.idle,hr.closed,decide_eq_true_eq,mem_append,mem_filter] at hq ⊢
      tauto
    obtain ⟨t,ht,rfl⟩ := h.present i hi hq'
    rw [hr.state]
    refine ⟨_,mem_map.2 ⟨t,ht,rfl⟩,?_⟩
    split_ifs <;> rfl

end

section
variable {s : TfwStream} {type : TfwFrameType} {flags : UInt8} {send : Bool} {f : Fsm}
lemma withFrame (h : IdsInv cur last opened c) (hdr : TfwFrameHdr) (plen : Nat) :
    IdsInv cur last opened (c.withFrame hdr plen) := h.congr rfl rfl rfl rfl rfl

lemma streamFsm (h : IdsInv none last opened c) (hs : s∈c.streams) (hf : streamFsm c s type flags send=some f)
    (hi : s.state=.idle → f.stream.state=.idle) : IdsInv none last opened (f.ctx.setStream f.stream) := by
  have hfr := frame_streamFsm hf
  have hc : IdsInv none last opened f.ctx ∧ f.ctx.streams=c.streams := by
    rw [hfr.ctx]
    exact ⟨h.congr rfl rfl rfl rfl rfl,rfl⟩
  refine hc.1.setStream (hc.2 ▸ hs) ?_ ?_ ?_
  · rw [hfr.stream]
  · intro hst
    by_contra hne
    exact (state_streamFsm hf hne).1 hst
  · intro hlt
    obtain ⟨hst,hq⟩ := h.fresh s hs hlt
    refine ⟨?_,by rw [hfr.stream]; exact hq⟩
    obtain hst | hst := hst
    · exact .inl ((hi hst).trans hst.symm)
    · exact .inr ((state_streamFsm hf (by simp [hst])).2 hst)

lemma not_idle_streamFsm (hf : VetWaf.H2.streamFsm c s type flags send=some f) (hne : s.state ≠ .idle) :
    ∀u∈(f.ctx.setStream f.stream).streams,u.id=s.id → u.state ≠ .idle := by
  intro u hu hid
  obtain rfl | ⟨-,ho⟩ := mem_setStream hu
  · exact (state_streamFsm hf hne).1
  · rw [(frame_streamFsm hf).stream] at ho
    exact absurd hid ho

lemma streamFsm_sendRst (h : IdsInv none last opened c) (hs : s∈c.streams)
    (hf : VetWaf.H2.streamFsm c s type flags send=some f) (hne : s.state ≠ .idle) :
    IdsInv none last opened ((f.ctx.setStream f.stream).currentStreamSendRst s.id) := by
  have hfs := h.streamFsm hs hf fun hi => absurd hi hne
  refine hfs.currentStreamSendRst ?_ ?_
  · intro u hu hid hi
    exact absurd hi (not_idle_streamFsm hf hne u hu hid)
  · intro _
    refine exists_mem_setStream ?_ _
    rw [(frame_streamFsm hf).ctx]
    exact hs

lemma streamFsm_remove (h : IdsInv none last opened c) (hs : s∈c.streams)
    (hf : VetWaf.H2.streamFsm c s type flags send=some f) (hne : s.state ≠ .idle) :
    IdsInv none last opened ((f.ctx.setStream f.stream).currentStreamRemove s.id) := by
  have hfs := h.streamFsm hs hf fun hi => absurd hi hne
  refine hfs.currentStreamRemove ?_
  intro u hu hid hi
  exact absurd hi (not_idle_streamFsm hf hne u hu hid)

end

lemma close (h : IdsInv none last opened c) (id : Nat) : IdsInv none last opened (c.setStreamState id .closed) := by
  refine ⟨h.lstreamId,h.log,⟨h.queue.sorted,h.queue.num,h.queue.apart⟩,h.closed,?_,?_,?_⟩
  · intro t ht hil
    obtain ⟨s,hs,rfl⟩ := mem_map.1 ht
    split_ifs at hil ⊢
    obtain hc | hl := h.listed s hs hil
    · cases hc
    · exact .inr hl
  · intro t ht hlt
    obtain ⟨s,hs,rfl⟩ := mem_map.1 ht
    split_ifs at hlt ⊢
    · exact ⟨.inr rfl,(h.fresh s hs hlt).2⟩
    · exact h.fresh s hs hlt
  · intro i hi hq
    obtain ⟨s,hs,rfl⟩ := h.present i hi hq
    refine ⟨_,mem_map_of_mem hs,?_⟩
    split_ifs <;> rfl

lemma adjusted (h : IdsInv none last opened c) (delta blocked : Int) (settings : TfwSettings) :
    IdsInv none last opened {c with
        streams:=c.streams.map (·.adjusted delta)
        blockedStreams:=blocked
        rsettings:=settings} := by
  refine ⟨h.lstreamId,h.log,⟨h.queue.sorted,h.queue.num,h.queue.apart⟩,h.closed,?_,?_,?_⟩
  · intro t ht hil
    obtain ⟨s,hs,rfl⟩ := mem_map.1 ht
    rw [TfwStream.state_adjusted] at hil
    rw [TfwStream.id_adjusted]
    exact h.listed s hs hil
  · intro t ht hlt
    obtain ⟨s,hs,rfl⟩ := mem_map.1 ht
    rw [TfwStream.id_adjusted] at hlt
    rw [TfwStream.state_adjusted,TfwStream.skbHead_adjusted]
    exact h.fresh s hs hlt
  · intro i hi hq
    obtain ⟨s,hs,rfl⟩ := h.present i hi hq
    exact ⟨_,mem_map_of_mem hs,s.id_adjusted delta⟩
end IdsInv
end VetWaf.H2
