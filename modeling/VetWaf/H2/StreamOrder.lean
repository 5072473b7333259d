import VetWaf.H2.StreamIds

namespace VetWaf.H2
open H2Ctx List Run TfwStream Nat
namespace IdsInv
variable {cur : Option Nat} {last id : Nat} {opened : List Nat} {c c' : H2Ctx}
section
variable {fr : RecvFrame}
section
variable (h : IdsInv none last opened c)
include h
lemma streamRecvProcess {go : Bool}
    (hty : fr.hdr.type ≠ .headers) (hc : c.streamRecvProcess id fr=some (c',go)) : IdsInv none last opened c' := by
  obtain ⟨s,f,hs,rfl,-,hf,hr⟩ := streamRecvProcess_eq_some hc
  have hi : s.state=.idle → f.stream.state=.idle := by
    intro hst
    obtain ⟨-,hi⟩ | ⟨-,hh,-⟩ | ⟨-,-,hi⟩ := idle_streamFsm hf hst
    · exact hi
    · exact absurd hh hty
    · exact hi
  have hfs := (h.withFrame fr.hdr fr.plen).streamFsm hs hf hi
  obtain ⟨-,-,rfl⟩ | ⟨-,-,rfl⟩ | ⟨ht,-,rfl⟩ := hr
  · exact hfs
  · exact hfs
  · refine (h.withFrame fr.hdr fr.plen).streamFsm_sendRst hs hf ?_
    intro hst
    rcases idle_streamFsm hf hst with ⟨hr,-⟩ | ⟨hr,-⟩ | ⟨hr,-⟩ <;> simp [ht] at hr

lemma streamError (hc : c.streamError id=some c') : IdsInv none last opened c' := by
  obtain ⟨s,hs,hc⟩ := Option.bind_eq_some_iff.1 hc
  obtain ⟨f,hf,hc⟩ := Option.bind_eq_some_iff.1 hc
  obtain ⟨hm,rfl⟩ := findStream_eq_some hs
  split_ifs at hc with hok
  cases hc
  refine h.streamFsm_sendRst hm hf ?_
  intro hst
  obtain ⟨hr,-⟩ | ⟨-,ht,-⟩ | ⟨-,ht,-⟩ := idle_streamFsm hf hst
  · simp [hok] at hr
  · cases ht
  · cases ht

lemma recvPriorityFor (ht : fr.hdr.type ≠ .headers)
    (hc : c.recvPriorityFor fr=some c') : IdsInv none last opened c' := by
  obtain ⟨⟨c1,go⟩,hr,hc⟩ := Option.bind_eq_some_iff.1 hc
  have h1 := h.streamRecvProcess ht hr
  simp only at hc
  split_ifs at hc
  · obtain ⟨s,-,hc⟩ := Option.bind_eq_some_iff.1 hc
    split_ifs at hc
    · cases hc
      exact h1
    · exact h1.streamError hc
  · cases hc
    exact h1

end

lemma streamCreate (h : IdsInv cur last opened c) (hcu : cur=none ∨ cur=some id)
    (hc : c.streamCreate id=some c') : IdsInv (some id) last opened c' := by
  unfold H2Ctx.streamCreate at hc
  split_ifs at hc
  cases hc
  refine ⟨h.lstreamId,h.log,⟨h.queue.sorted,h.queue.num,h.queue.apart⟩,h.closed,?_,?_,?_⟩
  · intro s hs hil
    obtain hs | hs := mem_append.1 hs
    · obtain hl | hl := h.listed s hs hil
      · obtain rfl | rfl := hcu
        · cases hl
        · exact .inl hl
      · exact .inr hl
    · rw [mem_singleton.1 hs]
      exact .inl rfl
  · intro s hs hlt
    obtain hs | hs := mem_append.1 hs
    · exact h.fresh s hs hlt
    · rw [mem_singleton.1 hs]
      exact ⟨.inl rfl,rfl⟩
  · intro i hi hq
    obtain ⟨s,hs,rfl⟩ := h.present i hi hq
    exact ⟨s,mem_append_left _ hs,rfl⟩

lemma streamAddIdle (h : IdsInv (some id) last opened c) (hla : last < id)
    (hs : ∃s∈c.streams,s.id=id) (hn : c.queued id=false)
    (hp : c.idleStreams.list=[] ∨ ∃t∈c.idleStreams.list,t < id) : IdsInv none last opened (c.streamAddIdle id) := by
  have hm : ∀t,t∈(c.streamAddIdle id).idleStreams.list ↔ t=id ∨ t∈c.idleStreams.list := by
    intro t
    unfold H2Ctx.streamAddIdle
    split
    · rename_i l hin
      rw [mem_reverse,mem_insertBackwards hin,mem_reverse]
    · rw [addToIdleNolock,if_neg (by simp [hn]),mem_append,mem_singleton]
      exact or_comm
  have hf : c.streamAddIdle id={c with idleStreams:=(c.streamAddIdle id).idleStreams} := by
    unfold H2Ctx.streamAddIdle
    split
    · rfl
    · unfold addToIdleNolock
      split_ifs <;> rfl
  have hqu := h.queue.streamAddIdle hn hp
  rw [hf] at hm hqu ⊢
  refine ⟨h.lstreamId,h.log,hqu,h.closed,?_,h.fresh,?_⟩
  · intro s hs hil
    obtain hcu | hl := h.listed s hs hil
    · have hid : id=s.id := Option.some.inj hcu
      exact .inr ⟨(hm s.id).2 (.inl hid.symm),hid ▸ hla⟩
    · exact .inr ⟨(hm s.id).2 (.inr hl.1),hl.2⟩
  · intro i hi hq
    simp only [queued,decide_eq_true_eq,hm] at hq
    obtain (rfl | hil) | hc := hq
    · exact hs
    · exact h.present i hi (by simp [queued,hil])
    · exact h.present i hi (by simp [queued,hc])

variable {maxStreams : Nat} {s : TfwStream}
lemma recvPriority (h : IdsInv none last opened c) (ht : fr.hdr.type=.priority)
    (ho : (c.findStream fr.hdr.streamId).isSome ∨ fr.hdr.streamId≤last ∨
      c.idleStreams.list=[] ∨ ∃t∈c.idleStreams.list,t<fr.hdr.streamId)
    (hc : c.recvPriority maxStreams fr=some c') : IdsInv none last opened c' := by
  have hh : fr.hdr.type ≠ .headers := by simp [ht]
  unfold H2Ctx.recvPriority at hc
  simp only [h.lstreamId] at hc
  split_ifs at hc with _ hso hl
  · exact h.recvPriorityFor hh hc
  · obtain ⟨c1,hcre,hc⟩ := Option.bind_eq_some_iff.1 hc
    obtain ⟨hs,-,hi⟩ := h.closedStreamsShrink maxStreams
    have hcr := hs.streamCreate (.inl rfl) hcre
    refine IdsInv.recvPriorityFor (hcr.streamAddIdle hl ?_ ?_ ?_) hh hc
    all_goals
      unfold H2Ctx.streamCreate at hcre
      split_ifs at hcre with hf
      cases hcre
    · exact ⟨_,mem_append_right _ (.head _),rfl⟩
    · by_contra hq
      rw [Bool.not_eq_false] at hq
      exact hf (findStream_isSome.2 (hs.present _ hl hq))
    · obtain ho | ho | ho := ho
      · exact absurd ho hso
      · exact absurd hl (not_lt.2 ho)
      · rw [← hi] at ho
        exact ho
  · cases hc
    exact h

lemma continued (h : IdsInv none last opened c) (hne : ∀s,c.findStream id=some s → s.state ≠ .idle)
    (hc : c.currentStreamStateProcess id fr=some c') : IdsInv none last opened c' := by
  obtain ⟨s,f,hs,rfl,hfi,hf,hr⟩ := currentStreamStateProcess_eq_some hc
  have hi := hne s hfi
  have hfr := h.withFrame fr.hdr fr.plen
  have hfs := hfr.streamFsm hs hf fun hst => absurd hst hi
  obtain ⟨-,rfl⟩ | ⟨-,rfl⟩ | ⟨-,rfl⟩ := hr
  · rw [noteOpened,if_neg hi]
    split_ifs
    · exact hfr.streamFsm_remove hs hf hi
    · exact hfs
  · exact hfs
  · exact hfr.streamFsm_sendRst hs hf hi

lemma opens (h : IdsInv (some id) id opened c) (hty : fr.hdr.type=.headers)
    (hs : c.findStream id=some s) (hi : s.state=.idle)
    (hc : c.currentStreamStateProcess id fr=some c') : IdsInv none id (id::opened) c' := by
  obtain ⟨s',f,hm,hid,hs',hf,hr⟩ := currentStreamStateProcess_eq_some hc
  obtain rfl : s=s' := Option.some.inj (hs.symm.trans hs')
  have hfr := frame_streamFsm hf
  have hfi : f.stream.id=id := by rw [hfr.stream,hid]
  have hct : IdsInv (some f.stream.id) id opened f.ctx := by
    rw [hfr.ctx,hfi]
    exact h.congr rfl rfl rfl rfl rfl
  obtain ⟨ht,-⟩ | ⟨hok,-,ho,hcl⟩ | ⟨-,hp,-⟩ := idle_streamFsm hf hi
  · simp [ht] at hr
  · have hse := hct.settle ho (le_of_eq hfi)
    simp only [hok,reduceCtorEq,false_and,or_false,true_and,if_neg hcl,noteOpened,if_pos hi] at hr
    rw [hr]
    refine ⟨hse.lstreamId,?_,⟨hse.queue.sorted,hse.queue.num,hse.queue.apart⟩,hse.closed,
      hse.listed,hse.fresh,hse.present⟩
    rw [openedIds,hse.log,hid]
  · simp [hty] at hp

section
variable (h : IdsInv none last opened c)
include h
lemma setLstreamId (hlt : last < id)
    (ha : ∀s∈c.streams,s.state=.idle → id ≤ s.id) : IdsInv (some id) id opened (c.setLstreamId id) := by
  refine ⟨rfl,h.log,⟨h.queue.sorted,h.queue.num,h.queue.apart⟩,h.closed,?_,?_,?_⟩
  · intro s hs hil
    obtain hc | hl := h.listed s hs hil
    · cases hc
    · obtain heq | hlt := eq_or_lt_of_le (ha s hs hil)
      · exact .inl (by rw [heq])
      · exact .inr ⟨hl.1,hlt⟩
  · intro s hs hid
    exact h.fresh s hs (lt_trans hlt hid)
  · intro i hi
    exact h.present i (lt_trans hlt hi)

lemma headersProcess_new (ht : fr.hdr.type=.headers)
    (hlt : last<fr.hdr.streamId) (hse : fr.priority.streamId≠fr.hdr.streamId)
    (ha : ∀s∈c.streams,s.state=.idle → fr.hdr.streamId ≤ s.id) (hc : c.headersProcess none fr=some c') :
    IdsInv none fr.hdr.streamId (fr.hdr.streamId::opened) c' := by
  simp only [headersProcess,if_neg hse] at hc
  obtain ⟨c1,hcr,hc⟩ := Option.bind_eq_some_iff.1 hc
  have h1 := (h.setLstreamId hlt ha).streamCreate (.inr rfl) hcr
  obtain ⟨s,-,-,-,hs,-⟩ := currentStreamStateProcess_eq_some hc
  exact h1.opens ht hs (findStream_of_streamCreate hcr hs) hc

lemma headersProcess_found (hty : fr.hdr.type=.headers) (hle : last≤fr.hdr.streamId)
    (hse : fr.priority.streamId=fr.hdr.streamId → fr.hdr.streamId≤last)
    (ha : ∀s∈c.streams,s.state=.idle → fr.hdr.streamId ≤ s.id) (hc : c.headersProcess (some s) fr=some c') :
    IdsInv none last opened c' ∨ last<fr.hdr.streamId ∧ IdsInv none fr.hdr.streamId (fr.hdr.streamId::opened) c' := by
  -- the last id stays as it is when the frame is for a stream that is not idle
  have hsa : fr.hdr.streamId≤last → IdsInv none last opened (c.setLstreamId fr.hdr.streamId) ∧
      ∀t∈c.streams,t.id=fr.hdr.streamId → t.state ≠ .idle := by
    intro hge
    refine ⟨h.congr ?_ rfl rfl rfl rfl,?_⟩
    · rw [h.lstreamId]
      exact le_antisymm hge hle
    · intro t ht hid hil
      obtain hcu | hl := h.listed t ht hil
      · cases hcu
      · omega
  unfold headersProcess at hc
  simp only [Option.isNone_some,Bool.false_eq_true,if_false] at hc
  split at hc
  · rename_i heq
    obtain ⟨hi,hne⟩ := hsa (hse heq)
    cases hc
    refine .inl (hi.currentStreamSendRst ?_ ?_)
    · exact fun t ht hid hil => absurd hil (hne t ht hid)
    · exact fun hlt => absurd hlt (not_lt.2 (hse heq))
  · generalize hc1 : (if s.state=.idle ∧ (!s.eosSent)=true ∧ (!s.eosReceived)=true then
      (c.setLstreamId fr.hdr.streamId).streamRemoveIdle fr.hdr.streamId
      else c.setLstreamId fr.hdr.streamId)=c1 at hc
    have hr : ∀ {cur last' opened'},IdsInv cur last' opened' (c.setLstreamId fr.hdr.streamId) →
        (∀t∈c.streams,t.id=fr.hdr.streamId → t.state=.idle → cur=some fr.hdr.streamId) →
        IdsInv cur last' opened' c1 := by
      intro cur last' opened' hi hcu
      rw [← hc1]
      split_ifs
      · exact hi.delFromQueueNolock hcu
      · exact hi
    have hs : c1.streams=c.streams := by
      rw [← hc1]
      split_ifs
      · exact streams_delFromQueueNolock
      · rfl
    obtain ⟨t,f,ht,hid,hfi,hf,hre⟩ := currentStreamStateProcess_eq_some hc
    rw [hs] at ht
    by_cases hil : t.state=.idle
    · have hlt : last<fr.hdr.streamId := by
        obtain hcu | hl := h.listed t ht hil
        · cases hcu
        · exact hid ▸ hl.2
      refine .inr ⟨hlt,?_⟩
      exact (hr (h.setLstreamId hlt ha) fun _ _ _ _ => rfl).opens hty hfi hil hc
    · have hcl : t.state ≠ .closed := by
        intro hcl
        have hte := termConn_of_closed hf hcl (by simp [hty])
        simp [hte] at hre
      have hge : fr.hdr.streamId≤last := by
        by_contra hlt
        obtain hst | hst := (h.fresh t ht (by omega)).1
        · exact hil hst
        · exact hcl hst
      obtain ⟨hi,hne⟩ := hsa hge
      refine .inl ((hr hi ?_).continued ?_ hc)
      · exact fun u hu hid hst => absurd hst (hne u hu hid)
      · intro u hu
        cases Option.some.inj (hu.symm.trans hfi)
        exact hil

lemma recvHeaders (ht : fr.hdr.type=.headers) (ho : match c.findNotClosedStream fr.hdr.streamId with
      | some s => if s.state=.idle then fr.priority.streamId≠fr.hdr.streamId else last≤fr.hdr.streamId
      | none => fr.priority.streamId≠fr.hdr.streamId) (hc : c.recvHeaders maxStreams fr=some c') :
    IdsInv none last opened c' ∨ last<fr.hdr.streamId ∧ IdsInv none fr.hdr.streamId (fr.hdr.streamId::opened) c' := by
  obtain ⟨hr,ha⟩ := h.removeIdleStreams fr.hdr.streamId
  unfold H2Ctx.recvHeaders at hc
  simp only at hc
  split at hc
  · cases hc
  · rename_i hv
    rw [not_or,currentStreamIdVerify,h.lstreamId] at hv
    cases hcu : c.findNotClosedStream fr.hdr.streamId with
    | none =>
      simp only [hcu] at ho hv hc
      have hlt : last<fr.hdr.streamId := by
        simp only [Option.isSome_none,Bool.false_or,Bool.not_eq_true',Bool.not_eq_false,
          Bool.and_eq_true,decide_eq_true_eq] at hv
        exact hv.2.1
      obtain ⟨hsh,hsu,-⟩ := hr.closedStreamsShrink maxStreams
      simp only [Option.isNone_none,if_true] at hc
      split at hc
      · cases hc
        exact .inl hsh
      · rw [H2Ctx.recvHeader] at hc
        split_ifs at hc
        · cases hc
          exact .inl hsh
        · refine .inr ⟨hlt,hsh.headersProcess_new ht hlt ho ?_ hc⟩
          exact fun s hs hi => ha s (hsu s hs) hi
    | some s =>
      simp only [hcu,Option.isNone_some,Bool.false_eq_true,if_false] at ho hc
      rw [H2Ctx.recvHeader] at hc
      split_ifs at hc
      · cases hc
        exact .inl hr
      obtain ⟨hf,hcl⟩ := Option.filter_eq_some_iff.1 hcu
      obtain ⟨hs,hid⟩ := findStream_eq_some hf
      have hcl : s.state ≠ .closed := by simpa using hcl
      by_cases hi : s.state=.idle
      · rw [if_pos hi] at ho
        have hlt : last<fr.hdr.streamId := by
          obtain hcu | hl := h.listed s hs hi
          · cases hcu
          · exact hid ▸ hl.2
        exact hr.headersProcess_found ht (le_of_lt hlt) (fun heq => absurd heq ho) ha hc
      · rw [if_neg hi] at ho
        have hge : fr.hdr.streamId≤last := by
          by_contra hlt
          obtain hst | hst := (h.fresh s hs (by omega)).1
          · exact hi hst
          · exact hcl hst
        exact hr.headersProcess_found ht ho (fun _ => hge) ha hc

lemma recvData (hc : c.recvData fr=some c') : IdsInv none last opened c' := by
  unfold H2Ctx.recvData at hc
  simp only [h.lstreamId] at hc
  split_ifs at hc with hr
  · cases hc
    exact h
  · refine h.continued ?_ hc
    intro s hs hi
    obtain ⟨hm,hid⟩ := findStream_eq_some hs
    obtain hcu | hl := h.listed s hm hi
    · cases hcu
    · omega

lemma recvRstStream (ht : fr.hdr.type=.rstStream) (hc : c.recvRstStream fr=some c') : IdsInv none last opened c' := by
  unfold H2Ctx.recvRstStream at hc
  simp only [h.lstreamId] at hc
  split_ifs at hc with href hf
  · cases hc
    exact h
  · obtain ⟨⟨c1,go⟩,hr,rfl⟩ := Option.map_eq_some_iff.1 hc
    have hi := h.streamRecvProcess (by simp [ht]) hr
    simp only
    split_ifs with hg
    · refine hi.currentStreamRemove ?_
      intro s hs hid hil
      obtain hcu | hl := hi.listed s hs hil
      · cases hcu
      · omega
    · exact hi

end

lemma streamTryUnblock {wnd : Int}
    (hc : c.streamTryUnblock {s with remWnd:=wnd}=some c') (h : IdsInv none last opened c)
    (hs : s∈c.streams) : IdsInv none last opened c' := by
  rw [streamTryUnblock_eq_some hc]
  have hse : IdsInv none last opened (c.setStream ({s with remWnd:=wnd} : TfwStream).unblocked) := by
    refine h.setStream hs (id_unblocked _) ?_ ?_
    · rw [state_unblocked]
      exact fun hi => hi
    · intro hlt
      rw [state_unblocked,skbHead_unblocked]
      exact ⟨.inl rfl,(h.fresh s hs hlt).2⟩
  exact hse.congr rfl rfl rfl rfl rfl

lemma recvWndUpdate (h : IdsInv none last opened c) (ht : fr.hdr.type=.windowUpdate)
    (hc : c.recvWndUpdate fr=some c') : IdsInv none last opened c' := by
  unfold H2Ctx.recvWndUpdate at hc
  simp only at hc
  split_ifs at hc with hl h0 hf
  · simp only [wndUpdateProcess] at hc
    split_ifs at hc
    obtain ⟨wnd,-,rfl⟩ := Option.map_eq_some_iff.1 hc
    exact h.congr rfl rfl rfl rfl rfl
  · cases hc
    exact h
  · obtain ⟨⟨c1,go⟩,hr,hc⟩ := Option.bind_eq_some_iff.1 hc
    have hi := h.streamRecvProcess (by simp [ht]) hr
    simp only at hc
    split at hc
    · obtain ⟨s,hs,hc⟩ := Option.bind_eq_some_iff.1 hc
      simp only [wndUpdateProcess] at hc
      split at hc
      · exact hi.streamError hc
      · split at hc
        · exact hi.streamError hc
        · exact IdsInv.streamTryUnblock hc (hi.congr rfl rfl rfl rfl rfl) (findStream_eq_some hs).1
    · cases hc
      exact hi

end

lemma xmitEffect {x y : Xmit} {next : XmitNext} (h : IdsInv none last opened x.ctx)
    (hid : x.stream.id≤last) (he : XmitEffect x next y) : IdsInv none last opened y.ctx := by
  cases he with
  | quiet hc hcl =>
    obtain hcl | hcl := hcl
    · rw [hc]
      exact h.congr rfl rfl rfl rfl hcl
    · have ha : IdsInv none last opened (x.ctx.streamAddClosed x.stream.id) :=
        h.streamAddClosed fun hlt => absurd hid (not_le.2 hlt)
      rw [streamAddClosed_eq] at ha
      rw [hc]
      exact ha.congr rfl rfl rfl rfl hcl
  | block _ _ hc =>
    rw [hc]
    exact h.congr rfl rfl rfl rfl rfl
  | frame type length sent hm =>
    obtain ⟨flags,m,f,hf,-,hc,-⟩ := hm.fsm
    rw [hc,(frame_streamFsm hf).ctx]
    refine h.congr rfl ?_ rfl rfl rfl
    simp only
    split_ifs <;> rfl

lemma makeTurn {args : MakeArgs} {a : XmitAnswers} {sndWnd sndWnd' : Nat} {r : Option Err}
    {stop : Bool} (h : IdsInv none last opened c) (hc : c.makeTurn args sndWnd id a=.ok (r,c',sndWnd',stop)) :
    IdsInv none last opened c' := by
  obtain ⟨s,x0,x,minToSend,fuel,hs,ha,rfl,rfl,hl,hc'⟩ := makeTurn_ok hc
  have hid : x0.stream.id≤last := by
    by_contra hlt
    have hq := (h.fresh _ hs (lt_of_not_ge hlt)).2
    simp [isActive,hq] at ha
  have hi : x0.stream.state ≠ .idle := by
    intro hi
    obtain hcu | hli := h.listed _ hs hi
    · cases hcu
    · omega
  obtain ⟨hx,hxi,hxid,hxs⟩ := Xmit.loop_induction
    (P := fun y => IdsInv none last opened y.ctx ∧ y.stream.state ≠ .idle ∧
      y.stream.id=x0.stream.id ∧ y.ctx.streams=x0.ctx.streams)
    (fun _ _ _ hy he => ⟨hy.1.xmitEffect (hy.2.2.1 ▸ hid) he,he.not_idle hy.2.1,
      he.id.trans hy.2.2.1,he.streams.trans hy.2.2.2⟩) ⟨h,hi,rfl,rfl⟩ hl
  have hse : IdsInv none last opened (x.ctx.setStream x.stream) := by
    refine hx.setStream (hxs ▸ hs) hxid (fun hst => absurd hst hxi) ?_
    exact fun hlt => absurd hid (not_le.2 hlt)
  obtain rfl | ⟨-,rfl⟩ := hc'
  · exact hse
  · exact hse.streamClean fun hlt => absurd hid (not_le.2 hlt)

end IdsInv

/-- A HEADERS frame of a stream that is open is for the last one opened, no other one depends on
itself, and a new idle stream does not go to the front of its queue. -/
def keepsOrder (c : H2Ctx) : ConnOp → Bool
  | .recv _ fr =>
    match fr.hdr.type with
    | .headers =>
      match c.findNotClosedStream fr.hdr.streamId with
      | some s =>
        if s.state=.idle then fr.priority.streamId != fr.hdr.streamId
        else c.lstreamId≤fr.hdr.streamId
      | none => fr.priority.streamId != fr.hdr.streamId
    | .priority =>
      (c.findStream fr.hdr.streamId).isSome || fr.hdr.streamId≤c.lstreamId || notFirst c (.addIdle fr.hdr.streamId)
    | _ => true
  | _ => true

namespace IdsInv
variable {last : Nat} {opened : List Nat} {c c' : H2Ctx}
lemma recvFrame {maxStreams : Nat} {fr : RecvFrame} (h : IdsInv none last opened c)
    (ho : keepsOrder c (.recv maxStreams fr)=true) (hc : c.recvFrame maxStreams fr=some c') :
    IdsInv none last opened c' ∨ fr.hdr.type=.headers ∧ last<fr.hdr.streamId ∧
      IdsInv none fr.hdr.streamId (fr.hdr.streamId::opened) c' := by
  obtain ⟨c1,hf,rfl⟩ := Option.map_eq_some_iff.1 hc
  have hr : ∀ {last opened},IdsInv none last opened c1 → IdsInv none last opened c1.reinit :=
    fun hi => hi.congr rfl rfl rfl rfl rfl
  cases ht : fr.hdr.type <;> simp only [ht] at hf
  case headers =>
    have hh := h.recvHeaders ht ?_ hf
    · obtain hi | ⟨hlt,hi⟩ := hh
      · exact .inl (hr hi)
      · exact .inr ⟨rfl,hlt,hr hi⟩
    · simp only [keepsOrder,ht,h.lstreamId] at ho
      split at ho
      · split_ifs at ho ⊢
        · simpa using ho
        · simpa using ho
      · simpa using ho
  case priority =>
    refine .inl (hr (h.recvPriority ht ?_ hf))
    simpa [keepsOrder,ht,notFirst,h.lstreamId,or_assoc] using ho
  case data | continuation => exact .inl (hr (h.recvData hf))
  case rstStream => exact .inl (hr (h.recvRstStream ht hf))
  case windowUpdate => exact .inl (hr (h.recvWndUpdate ht hf))
  case settings | ping | goaway =>
    cases hf
    exact .inl (hr h)
  case pushPromise => cases hf
  case undefined =>
    split_ifs at hf
    cases hf
    exact .inl (hr h)

lemma connStep {op : ConnOp} (hu : c.UniqueIds) (h : IdsInv none last opened c)
    (hop : keepsOrder c op=true) (hc : connStep c op=some c') :
    IdsInv none last opened c' ∨ ∃maxStreams fr,op=.recv maxStreams fr ∧ fr.hdr.type=.headers ∧ last<fr.hdr.streamId ∧
      IdsInv none fr.hdr.streamId (fr.hdr.streamId::opened) c' := by
  cases connEffect_connStep hc with
  | recv maxStreams fr =>
    obtain hi | ho := h.recvFrame hop hc
    · exact .inl hi
    · exact .inr ⟨maxStreams,fr,rfl,ho⟩
  | initWndSize val c1 _ hc1 =>
    rw [applyWndSzChange_eq_some hu hc1]
    exact .inl (h.adjusted _ _ _)
  | maxFrameSize | dropResp | frameNow => exact .inl (h.congr rfl rfl rfl rfl rfl)
  | initForXmit s _ _ _ hs => exact .inl (h.setStream hs rfl (fun hil => hil) fun _ => ⟨.inl rfl,rfl⟩)
  | initTLenForXmit s _ hs _ hq => exact .inl (h.setStream hs rfl (fun hil => hil) fun _ => ⟨.inl rfl,hq⟩)
  | sendFrame s _ _ more _ hs hm =>
    refine .inl (h.setStream hs rfl (fun hil => hil) fun hlt => ⟨.inl rfl,?_⟩)
    have h0 := (h.fresh s hs hlt).2
    rw [h0,hm h0]
  | sendResp s _ _ errorStream hs hil _ hcl =>
    have he : IdsInv none last opened {c with error:=errorStream} := h.congr rfl rfl rfl rfl rfl
    refine .inl (he.setStream hs rfl (fun hst => hst) ?_)
    intro hlt
    obtain hst | hst := (h.fresh s hs hlt).1
    · exact absurd hst hil
    · exact absurd hst hcl
  | makeFrames args c1 hma =>
    have h1 : IdsInv none last opened c1 := by
      refine makeFrames_induction ?_ (h.withFrame args.hdr args.plen) hma
      intro _ _ _ _ _ _ _ _ _ hc ht
      exact hc.makeTurn ht
    exact .inl (h1.congr rfl rfl rfl rfl rfl)
  | unlinkAndClose id =>
    obtain ⟨s,hs,rfl⟩ := Option.map_eq_some_iff.1 hc
    obtain ⟨hm,hid,-⟩ := reqStream_eq_some hs
    refine .inl ((h.close id).streamAddClosed fun _ => ?_)
    refine ⟨_,mem_map_of_mem hm,?_⟩
    split_ifs
    exact hid

end IdsInv

structure OrderInv (c : H2Ctx) : Prop where
  inv : IdsInv none c.lstreamId (openedIds c.log) c
  largest : c.lstreamId=(openedIds c.log).foldr max 0
  below : ∀id∈openedIds c.log,id≤c.lstreamId
  sorted : (openedIds c.log).Pairwise (· > ·)

lemma OrderInv.contextInit (maxFrameSz : Nat) : OrderInv (contextInit maxFrameSz) := by
  refine ⟨⟨rfl,rfl,⟨List.Pairwise.nil,rfl,?_⟩,nodup_nil,?_,?_,?_⟩,rfl,?_,List.Pairwise.nil⟩
  all_goals simp [VetWaf.H2.contextInit,queued,openedIds]

lemma OrderInv.connStep {c c' : H2Ctx} {op : ConnOp} (h : OrderInv c) (hu : c.UniqueIds)
    (hop : keepsOrder c op=true) (hc : connStep c op=some c') : OrderInv c' := by
  obtain hs | ⟨-,fr,-,-,hlt,ho⟩ := h.inv.connStep hu hop hc
  · have hla := hs.lstreamId
    have hl := hs.log
    refine ⟨?_,?_,?_,?_⟩ <;> rw [hl]
    · rw [hla]
      exact hs
    · rw [hla]
      exact h.largest
    · rw [hla]
      exact h.below
    · exact h.sorted
  · have hla := ho.lstreamId
    have hl := ho.log
    refine ⟨?_,?_,?_,?_⟩ <;> rw [hl]
    · rw [hla]
      exact ho
    · rw [hla,foldr_cons,← h.largest]
      exact (max_eq_left (le_of_lt hlt)).symm
    · rw [hla]
      intro id hid
      obtain rfl | hid := mem_cons.1 hid
      · exact le_rfl
      · exact le_trans (h.below id hid) (le_of_lt hlt)
    · refine pairwise_cons.2 ⟨?_,h.sorted⟩
      exact fun id hid => lt_of_le_of_lt (h.below id hid) hlt

/-- As long as HEADERS frames open new streams or belong to the last one opened, the last id is the largest id ever
opened, no step decreases it. -/
theorem stream_ids_not_reused {maxFrameSz : Nat} {ops : List ConnOp} {c : H2Ctx}
    (hops : along connStep keepsOrder (contextInit maxFrameSz) ops=true)
    (hrun : run connStep (contextInit maxFrameSz) ops=some c) :
    c.lstreamId=(openedIds c.log).foldr max 0 ∧ (openedIds c.log).Pairwise (· > ·) ∧
      ∀op c',keepsOrder c op=true → connStep c op=some c' → c.lstreamId≤c'.lstreamId ∧
        ∀maxStreams fr,op=.recv maxStreams fr → fr.hdr.type=.headers →
          fr.hdr.streamId≤c.lstreamId → openedIds c'.log=openedIds c.log := by
  have hinit : (contextInit maxFrameSz).UniqueIds ∧ OrderInv (contextInit maxFrameSz) :=
    ⟨nodup_nil,OrderInv.contextInit maxFrameSz⟩
  have hi : c.UniqueIds ∧ OrderInv c := by
    refine run_invariant_along connStep (P := fun c => c.UniqueIds ∧ OrderInv c) ?_ hinit hops hrun
    intro c op c' ⟨hu,h⟩ ho hst
    exact ⟨uniqueIds_connStep hu hst,h.connStep hu ho hst⟩
  obtain ⟨hu,h⟩ := hi
  refine ⟨h.largest,h.sorted,?_⟩
  intro op c' ho hst
  obtain hs | ⟨maxStreams,fr,rfl,-,hlt,hope⟩ := h.inv.connStep hu ho hst
  · exact ⟨le_of_eq hs.lstreamId.symm,fun _ _ _ _ _ => hs.log⟩
  · refine ⟨?_,?_⟩
    · rw [hope.lstreamId]
      exact le_of_lt hlt
    · intro _ _ hr _ hle
      cases hr
      exact absurd hlt (not_lt.2 hle)

/-- PRIORITY creates streams 5 and 7, HEADERS open 3 and 7, and 7 is ended by trailers. -/
theorem stream_ids_not_reused_interleaved : let ops : List ConnOp :=
      [.recv 100 {hdr:={type:=.priority, streamId:=5}},.recv 100 {hdr:={type:=.priority, streamId:=7}},
        .recv 100 {hdr:={type:=.headers, flags:=fEndHeaders, streamId:=3}},
        .recv 100 {hdr:={type:=.headers, flags:=fEndHeaders, streamId:=7}},
        .recv 100 {hdr:={type:=.data, flags:=fEndStream, streamId:=3}, plen:=10},.recv 100
          {hdr:={type:=.headers, flags:=fEndHeaders ||| fEndStream, streamId:=7}}]
    ∃c : H2Ctx,run connStep (contextInit 16384) ops=some c ∧ openedIds c.log=[7,3] ∧
      c.lstreamId=(openedIds c.log).foldr max 0 := by
  intro ops
  have hl : (run connStep (contextInit 16384) ops).map (fun c => openedIds c.log) = some [7,3] := by decide +kernel
  obtain ⟨c,hc,ho⟩ := Option.map_eq_some_iff.1 hl
  exact ⟨c,hc,ho,(stream_ids_not_reused (by decide +kernel) hc).1⟩

/-- Trailers of stream 1 set the last id back, and after stream 3 was closed by the client its id is
used again. -/
theorem trailers_set_last_id_back : (run connStep (contextInit 16384)
      [.recv 100 {hdr:={type:=.headers, flags:=fEndHeaders, streamId:=1}},
        .recv 100 {hdr:={type:=.headers, flags:=fEndHeaders, streamId:=3}},.recv 100
          {hdr:={type:=.headers, flags:=fEndHeaders ||| fEndStream, streamId:=1}}]).map
        (fun c => (c.lstreamId,openedIds c.log))=some (1,[3,1]) ∧ (run connStep (contextInit 16384)
        [.recv 100 {hdr:={type:=.headers, flags:=fEndHeaders, streamId:=1}},
          .recv 100 {hdr:={type:=.headers, flags:=fEndHeaders, streamId:=3}},
          .recv 100 {hdr:={type:=.rstStream, streamId:=3}},.recv 100
            {hdr:={type:=.headers, flags:=fEndHeaders ||| fEndStream, streamId:=1}},
          .recv 100 {hdr:={type:=.headers, flags:=fEndHeaders, streamId:=3}}]).map
        (fun c => openedIds c.log)=some [3,3,1] := by
  decide +kernel
end VetWaf.H2
