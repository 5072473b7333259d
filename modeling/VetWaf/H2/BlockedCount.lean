import VetWaf.H2.FlowControl
import VetWaf.H2.XmitTurn

namespace VetWaf.H2
open H2Ctx List Run
namespace H2Ctx

def countBlocked (c : H2Ctx) : Nat := c.streams.countP (·.xmit.isBlocked)

variable {c c' : H2Ctx}
lemma countBlocked_setStream {s t : TfwStream} (h : c.UniqueIds) (hs : s∈c.streams) (hid : t.id=s.id) :
    ((c.setStream t).countBlocked : Int) =
      c.countBlocked-(if s.xmit.isBlocked then 1 else 0)+if t.xmit.isBlocked then 1 else 0 :=
  countP_setStream h hs hid

lemma countBlocked_streamClean {id : Nat} (h : ∀s∈c.streams,s.id=id → s.xmit.isBlocked=false) :
    (c.streamClean id).countBlocked=c.countBlocked := by
  simp only [countBlocked,streamClean,countP_filter]
  apply countP_congr
  intro s hs
  by_cases hid : s.id=id
  · simp [hid,h s hs hid]
  · simp [hid]

lemma countBlocked_setStreamState (c : H2Ctx) (id : Nat) (state : TfwStreamState) :
    (c.setStreamState id state).countBlocked=c.countBlocked := by
  simp only [countBlocked,setStreamState,countP_map]
  apply countP_congr
  intro s _
  simp only [Function.comp_apply]
  split_ifs <;> simp

end H2Ctx

lemma XmitInv.more {m : TfwHttpXmit} {more postponed : Nat} (h : XmitInv m) (hm : m.skbHead=0 → more=0) :
    XmitInv {m with skbHead:=m.skbHead+more, postponed:=postponed} := by
  have hby := h.bytes
  refine ⟨fun hne => ?_,fun h0 => h.clear (Nat.add_eq_zero_iff.1 h0).1,fun hst => ?_,h.trailers,h.fresh,fun hb => ?_⟩
  · simp only at hne ⊢
    omega
  · have hd := h.data hst
    exact ⟨by simp only; omega,hd.2⟩
  · have hb := h.blocked hb
    simp only
    omega

structure CountInv (c : H2Ctx) : Prop where
  ids : c.UniqueIds
  count : c.blockedStreams=c.countBlocked
  xmit : ∀s∈c.streams,XmitInv s.xmit

def keepsCount (c : H2Ctx) : ConnOp → Bool
  | .recv _ fr => c.streams.all fun s => !(s.xmit.isBlocked && c.dropped fr s.id)
  | .initForXmit id _ _ _ => c.streams.all fun s => !(s.xmit.isBlocked && s.id == id)
  | _ => true

namespace CountInv
variable {c c' : H2Ctx} {drops : Nat → Prop} {s : TfwStream} {id : Nat}
lemma setStream {t : TfwStream} (h : CountInv c) (hs : s∈c.streams) (hid : t.id=s.id)
    (hb : t.xmit.isBlocked=s.xmit.isBlocked) (ht : XmitInv t.xmit) : CountInv (c.setStream t) := by
  refine ⟨h.ids.setStream t,?_,?_⟩
  · have hc := countBlocked_setStream h.ids hs hid
    rw [hb] at hc
    have hbe := h.count
    change c.blockedStreams=_
    omega
  · intro u hu
    obtain rfl | ⟨hu,-⟩ := mem_setStream hu
    · exact ht
    · exact h.xmit u hu

lemma streamClean (h : CountInv c)
    (hid : ∀s∈c.streams,s.id=id → s.xmit.isBlocked=false) : CountInv (c.streamClean id) := by
  refine ⟨h.ids.streamClean id,?_,?_⟩
  · rw [countBlocked_streamClean hid]
    exact h.count
  · intro s hs
    exact h.xmit s (mem_of_mem_filter hs)

lemma xmitInv_unblocked (h : XmitInv s.xmit) : XmitInv s.unblocked.xmit := by
  unfold TfwStream.unblocked
  split_ifs
  · exact ⟨h.bytes,h.clear,h.data,h.trailers,h.fresh,by simp⟩
  · exact h

lemma isBlocked_unblocked (h : XmitInv s.xmit) :
    (if s.unblocked.xmit.isBlocked then 1 else 0)+(if s.unblocks then 1 else 0) =
      if s.xmit.isBlocked then 1 else 0 := by
  unfold TfwStream.unblocked TfwStream.unblocks
  by_cases hw : 0<s.remWnd
  · cases hb : s.xmit.isBlocked with
    | false => simp [hw]
    | true => simp [hw,h.blocked hb]
  · simp [hw]

lemma streamTryUnblock {wnd : Int} (h : CountInv c) (hs : s∈c.streams)
    (hc : c.streamTryUnblock {s with remWnd:=wnd}=some c') : CountInv c' := by
  have hx := h.xmit s hs
  have hco := countBlocked_setStream h.ids hs (({s with remWnd:=wnd} : TfwStream).id_unblocked)
  have hb := h.count
  rw [streamTryUnblock_eq_some hc]
  refine ⟨h.ids.setStream _,?_,?_⟩
  · change c.blockedStreams-_ = ((c.setStream _).countBlocked : Int)
    have hun := isBlocked_unblocked (s := {s with remWnd:=wnd}) hx
    rw [hco,hb]
    split_ifs at hun ⊢ <;> simp_all
  · intro u hu
    obtain rfl | ⟨hu,-⟩ := mem_setStream hu
    · exact xmitInv_unblocked (s := {s with remWnd:=wnd}) hx
    · exact h.xmit u hu

lemma change (h : CountInv c ∧ ∀s∈c.streams,s.xmit.isBlocked=true → ¬drops s.id) (hc : Change drops c c') :
    CountInv c' ∧ ∀s∈c'.streams,s.xmit.isBlocked=true → ¬drops s.id := by
  obtain ⟨h,hf⟩ := h
  cases hc with
  | frame | queues | opened | connWnd => exact ⟨⟨h.ids,h.count,h.xmit⟩,hf⟩
  | create id _ _ hcr =>
    have hi := h.ids.streamCreate hcr
    unfold streamCreate at hcr
    split_ifs at hcr
    cases hcr
    refine ⟨⟨hi,?_,?_⟩,?_⟩
    · simp only [countBlocked,countP_append,countP_singleton]
      exact h.count
    · intro s hs
      obtain hs | hs := mem_append.1 hs
      · exact h.xmit s hs
      · rw [mem_singleton.1 hs]
        constructor <;> simp
    · intro s hs
      obtain hs | hs := mem_append.1 hs
      · exact hf s hs
      · rw [mem_singleton.1 hs]
        simp
  | clean id hid =>
    refine ⟨h.streamClean ?_,?_⟩
    · intro s hs heq
      rw [← Bool.not_eq_true]
      exact fun hb => hf s hs hb (heq ▸ hid)
    · intro s hs
      exact hf s (mem_of_mem_filter hs)
  | close id =>
    have hcl : ∀s∈(c.setStreamState id .closed).streams,∃t∈c.streams,s.id=t.id ∧ s.xmit=t.xmit := by
      intro s hs
      obtain ⟨t,ht,rfl⟩ := mem_map.1 hs
      refine ⟨t,ht,?_⟩
      split_ifs <;> exact ⟨rfl,rfl⟩
    refine ⟨⟨h.ids.setStreamState id .closed,?_,?_⟩,?_⟩
    · rw [countBlocked_setStreamState]
      exact h.count
    · intro s hs
      obtain ⟨t,ht,-,hx⟩ := hcl s hs
      exact hx ▸ h.xmit t ht
    · intro s hs
      obtain ⟨t,ht,hid,hx⟩ := hcl s hs
      rw [hid,hx]
      exact hf t ht
  | fsm s f hs hfm =>
    have hct : CountInv f.ctx ∧ f.ctx.streams=c.streams := by
      rw [hfm.ctx]
      exact ⟨⟨h.ids,h.count,h.xmit⟩,rfl⟩
    have hid : f.stream.id=s.id := by rw [hfm.stream]
    have hx : f.stream.xmit=s.xmit := by rw [hfm.stream]
    refine ⟨hct.1.setStream (hct.2 ▸ hs) hid (by rw [hx]) (hx ▸ h.xmit s hs),?_⟩
    intro t ht
    obtain rfl | ⟨ht,-⟩ := mem_setStream ht
    · rw [hid,hx]
      exact hf s hs
    · exact hf t (hct.2 ▸ ht)
  | streamWnd s incr wnd _ hs hid hw hu =>
    have hl : CountInv {c with log:=.wndIncr s.id incr::c.log} := ⟨h.ids,h.count,h.xmit⟩
    refine ⟨hl.streamTryUnblock hs hu,?_⟩
    rw [streamTryUnblock_eq_some hu]
    intro t ht
    obtain rfl | ⟨ht,-⟩ := mem_setStream ht
    · intro hbl
      rw [TfwStream.id_unblocked]
      refine hf s hs ?_
      unfold TfwStream.unblocked at hbl
      split_ifs at hbl
      exact hbl
    · exact hf t ht

lemma isBlocked_adjusted (delta : Int) (h : XmitInv s.xmit) : (if (s.adjusted delta).xmit.isBlocked then 1 else 0) +
        (if s.adjustUnblocks delta then 1 else 0) =
      if s.xmit.isBlocked then 1 else 0 := by
  have hs := isBlocked_unblocked (s := {s with remWnd:=s.remWnd+delta}) h
  by_cases hst : s.state=.opened ∨ s.state=.remHalfClosed
  · simpa [TfwStream.adjusted,TfwStream.adjustUnblocks,hst] using hs
  · simp [TfwStream.adjusted,TfwStream.adjustUnblocks,hst]

lemma countP_adjusted (delta : Int) {l : List TfwStream} (h : ∀s∈l,XmitInv s.xmit) :
    (l.map (·.adjusted delta)).countP (·.xmit.isBlocked)+l.countP (·.adjustUnblocks delta) =
      l.countP (·.xmit.isBlocked) := by
  induction l with
  | nil => rfl
  | cons s l ih =>
    have hs := isBlocked_adjusted delta (h s (.head _))
    have hr := ih fun t ht => h t (.tail _ ht)
    simp only [map_cons,countP_cons]
    omega

lemma applyWndSzChange {delta : Int} (h : CountInv c) (hc : c.applyWndSzChange delta=some c') : CountInv c' := by
  have hi := h.ids.applyWndSzChange hc
  have hco := countP_adjusted delta h.xmit
  rw [applyWndSzChange_eq_some h.ids hc] at hi ⊢
  refine ⟨hi,?_,?_⟩
  · have hb := h.count
    simp only [countBlocked] at hb ⊢
    omega
  · intro t ht
    obtain ⟨s,hs,rfl⟩ := mem_map.1 ht
    unfold TfwStream.adjusted
    split_ifs
    · exact xmitInv_unblocked (s := {s with remWnd:=s.remWnd+delta}) (h.xmit s hs)
    · exact h.xmit s hs

lemma makeTurn {args : MakeArgs} {a : XmitAnswers} {sndWnd sndWnd' : Nat} {stop : Bool}
    (h : CountInv c) (hc : c.makeTurn args sndWnd id a=.ok (none,c',sndWnd',stop)) : CountInv c' := by
  obtain ⟨s,x0,x,minToSend,fuel,hs,ha,rfl,rfl,hl,hc'⟩ := makeTurn_ok hc
  have hxm := Xmit.xmitInv_loop (h.xmit _ hs) ha hl
  have hfr : x0.stream.xmit.isBlocked=false := by
    simp only [TfwStream.isActive,Bool.and_eq_true,Bool.not_eq_true'] at ha
    exact ha.2
  have hx : x.ctx.streams=x0.ctx.streams ∧ x.stream.id=x0.stream.id ∧
      x.ctx.blockedStreams=x0.ctx.countBlocked+if x.stream.xmit.isBlocked then 1 else 0 := by
    refine Xmit.loop_induction (P := fun y => y.ctx.streams=x0.ctx.streams ∧ y.stream.id=x0.stream.id ∧
      y.ctx.blockedStreams=x0.ctx.countBlocked+if y.stream.xmit.isBlocked then 1 else 0)
      ?_ ⟨rfl,rfl,by simp [hfr,h.count]⟩ hl
    intro y _ z hy he
    refine ⟨he.streams.trans hy.1,he.id.trans hy.2.1,?_⟩
    have hco := hy.2.2
    cases he with
    | quiet hct _ _ hbl =>
      rw [hct,hbl]
      exact hco
    | block _ hbl hct =>
      rw [hct]
      simp only [hbl,Bool.false_eq_true,if_false,Int.add_zero] at hco
      rw [hco]
    | frame type length sent hm =>
      obtain ⟨flags,m,f,hf,-,hct,-⟩ := hm.fsm
      rw [hm.blocked,hct,(frame_streamFsm hf).ctx]
      exact hco
  obtain ⟨hst,hid,hco⟩ := hx
  have hi : x.ctx.UniqueIds := by
    rw [H2Ctx.UniqueIds,hst]
    exact h.ids
  have hset : CountInv (x.ctx.setStream x.stream) := by
    refine ⟨hi.setStream _,?_,?_⟩
    · have haf := countBlocked_setStream hi (hst ▸ hs) hid
      have hsa : x.ctx.countBlocked=x0.ctx.countBlocked := by rw [countBlocked,hst,countBlocked]
      rw [haf,hsa,hfr]
      change x.ctx.blockedStreams=_
      rw [hco]
      simp
    · intro u hu
      obtain rfl | ⟨hu,-⟩ := mem_setStream hu
      · exact hxm
      · exact h.xmit u (hst ▸ hu)
  obtain rfl | ⟨hse,rfl⟩ := hc'
  · exact hset
  · refine hset.streamClean ?_
    intro u hu hui
    obtain rfl | ⟨-,hne⟩ := mem_setStream hu
    · rw [← Bool.not_eq_true]
      exact fun hb => hxm.blocked hb hse
    · exact absurd (hui.trans hid.symm) hne

lemma connStep {op : ConnOp} (h : CountInv c) (ho : keepsCount c op=true)
    (hc : connStep c op=some c') : CountInv c' := by
  cases connEffect_connStep hc with
  | recv maxStreams fr _ hcha =>
    have hf : ∀s∈c.streams,s.xmit.isBlocked=true → ¬c.dropped fr s.id=true := by
      intro s hs hb
      have hs' := all_eq_true.1 ho s hs
      simpa [hb] using hs'
    exact (hcha.induction (fun _ _ hc hch => CountInv.change hc hch) ⟨h,hf⟩).1
  | unlinkAndClose _ _ hcha =>
    have hf : ∀s∈c.streams,s.xmit.isBlocked=true → ¬False := fun _ _ _ => not_false
    exact (hcha.induction (fun _ _ hc hch => CountInv.change hc hch) ⟨h,hf⟩).1
  | initWndSize val c1 _ hc1 =>
    have h1 := h.applyWndSzChange hc1
    exact ⟨h1.ids,h1.count,h1.xmit⟩
  | maxFrameSize | dropResp | frameNow => exact ⟨h.ids,h.count,h.xmit⟩
  | initForXmit s state hLen bLen hs _ hst =>
    have hs' := all_eq_true.1 ho s hs
    simp only [beq_self_eq_true,Bool.and_true,Bool.not_eq_true'] at hs'
    refine h.setStream hs rfl hs'.symm ?_
    constructor
    all_goals rcases hst with rfl | rfl <;> simp
  | initTLenForXmit s tLen hs _ hq =>
    have hx := h.xmit s hs
    refine h.setStream hs rfl rfl ?_
    exact ⟨fun hne => absurd hq hne,hx.clear,hx.data,hx.trailers,hx.fresh,hx.blocked⟩
  | sendFrame s _ _ more postponed hs hm => exact h.setStream hs rfl rfl ((h.xmit s hs).more hm)
  | sendResp s len error errorStream hs _ hq =>
    have he : CountInv {c with error:=errorStream} := ⟨h.ids,h.count,h.xmit⟩
    have hx := h.xmit s hs
    have hfm := hx.clear hq
    refine he.setStream hs rfl rfl ?_
    refine ⟨?_,fun _ => hfm,?_,hx.trailers,hx.fresh,?_⟩
    · intro _
      simp only
      omega
    · exact fun hst => absurd hq (hx.data hst).1
    · exact fun hb => absurd hq (hx.blocked hb)
  | makeFrames args c1 hm =>
    have h1 : CountInv c1 := by
      refine makeFrames_induction ?_ ⟨h.ids,h.count,h.xmit⟩ hm
      intro _ _ _ _ r _ _ _ hr hc ht
      obtain rfl : r=none := or_self_iff.1 hr
      exact hc.makeTurn ht
    exact ⟨h1.ids,h1.count,h1.xmit⟩

end CountInv

/-- As long as no blocked stream is removed or given a new response, the connection has as many
blocked streams as it counts. -/
theorem blocked_streams_counted {maxFrameSz : Nat} {ops : List ConnOp} {c : H2Ctx}
    (hops : along connStep keepsCount (contextInit maxFrameSz) ops=true)
    (hrun : run connStep (contextInit maxFrameSz) ops=some c) :
    c.blockedStreams=c.countBlocked ∧ 0≤c.blockedStreams := by
  have hinit : CountInv (contextInit maxFrameSz) := ⟨nodup_nil,rfl,by simp [contextInit]⟩
  have hi : CountInv c := run_invariant_along connStep (fun _ _ _ => CountInv.connStep) hinit hops hrun
  exact ⟨hi.count,hi.count ▸ Int.natCast_nonneg _⟩

/-- The stream of the long response is blocked. -/
theorem blocked_streams_counted_longResponse : ∃c : H2Ctx,run connStep (contextInit 16384) longResponse=some c ∧
      c.countBlocked=1 ∧ c.blockedStreams=c.countBlocked := by
  have hb : (run connStep (contextInit 16384) longResponse).map (·.countBlocked)=some 1 := by decide +kernel
  obtain ⟨c,hc,hco⟩ := Option.map_eq_some_iff.1 hb
  exact ⟨c,hc,hco,(blocked_streams_counted (by decide +kernel) hc).1⟩

/-- The client resets the blocked stream: it is gone, and it is still counted. -/
theorem reset_blocked_stream_still_counted : (run connStep (contextInit 16384)
      (longResponse++[.recv 100 {hdr:={type:=.rstStream, streamId:=1}}])).map
        (fun c => (c.blockedStreams,c.streams))=some (1,[]) := by
  decide +kernel
end VetWaf.H2
