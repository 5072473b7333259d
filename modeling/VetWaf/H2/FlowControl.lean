import VetWaf.H2.StreamTable

namespace VetWaf.H2
open H2Ctx List Run TfwStream

def H2Event.fits : H2Event → Prop
  | .data _ length connWnd streamWnd _ => length≤connWnd ∧ length ≤ streamWnd
  | _ => True

structure FlowInv (c : H2Ctx) : Prop where
  nonneg : 0≤c.remWnd
  fits : ∀e∈c.log,e.fits

namespace FlowInv
variable {c c' : H2Ctx}
lemma congr (h : FlowInv c) (hw : c'.remWnd=c.remWnd) (hl : c'.log=c.log) : FlowInv c' := ⟨hw ▸ h.nonneg,hl ▸ h.fits⟩

lemma note {e : H2Event} (h : FlowInv c) (he : e.fits) (hw : 0≤c'.remWnd) (hl : c'.log=e::c.log) : FlowInv c' := by
  refine ⟨hw,?_⟩
  rw [hl]
  exact forall_mem_cons.2 ⟨he,h.fits⟩

lemma change {drops : Nat → Prop} (h : FlowInv c) (hc : Change drops c c') : FlowInv c' := by
  cases hc with
  | frame | queues | clean | close => exact h.congr rfl rfl
  | opened id => exact h.note (e := .opened id) trivial h.nonneg rfl
  | create id _ _ hcr =>
    unfold streamCreate at hcr
    split_ifs at hcr
    cases hcr
    exact h.note (e := .created id) trivial h.nonneg rfl
  | fsm s f hs hf =>
    have hct : FlowInv f.ctx := by
      rw [hf.ctx]
      exact h.congr rfl rfl
    exact hct.congr rfl rfl
  | connWnd incr wnd hw =>
    unfold incrementWndSz at hw
    split_ifs at hw
    cases hw
    have hn := h.nonneg
    exact h.note (e := .wndIncr 0 incr) trivial (by simp only; omega) rfl
  | streamWnd s incr wnd _ hs hid hw hu =>
    rw [streamTryUnblock_eq_some hu]
    exact h.note (e := .wndIncr s.id incr) trivial h.nonneg rfl

lemma xmitEffect {x y : Xmit} {next : XmitNext} (h : FlowInv x.ctx) (hx : XmitEffect x next y) : FlowInv y.ctx := by
  cases hx with
  | quiet hc =>
    rw [hc]
    exact h.congr rfl rfl
  | block _ _ hc =>
    rw [hc]
    exact h.congr rfl rfl
  | frame type length sent hm hfi =>
    obtain ⟨flags,m,f,hf,-,hc,-⟩ := hm.fsm
    have hw : y.ctx.remWnd=x.ctx.remWnd-dataLength type length := by rw [hc,(frame_streamFsm hf).ctx]
    by_cases ht : type=.data
    · subst ht
      refine h.note (e := .data x.stream.id length x.ctx.remWnd x.stream.remWnd sent)
        (hfi rfl) ?_ (by rw [hc,if_pos rfl])
      rw [hw,dataLength,if_pos rfl]
      exact Int.sub_nonneg.2 (hfi rfl).1
    · refine h.congr ?_ (by rw [hc,if_neg ht])
      rw [hw,dataLength,if_neg ht]
      exact Int.sub_zero _

lemma makeFrames {args : MakeArgs} {r : Option Err} (h : FlowInv c)
    (hc : c.makeFrames args=.ok (r,c')) : FlowInv c' := by
  refine makeFrames_induction ?_ (h.congr rfl rfl) hc
  intro _ _ _ c r c' _ _ _ h ht
  obtain ⟨s,x0,x,_,_,-,-,rfl,-,hl,hc'⟩ := makeTurn_ok ht
  have hx : FlowInv x.ctx := Xmit.loop_induction (P := fun y => FlowInv y.ctx) (fun _ _ _ => xmitEffect) h hl
  obtain rfl | ⟨-,rfl⟩ := hc'
  · exact hx.congr rfl rfl
  · exact hx.congr rfl rfl

lemma connStep {op : ConnOp} (hu : c.UniqueIds) (h : FlowInv c) (hc : connStep c op=some c') : FlowInv c' := by
  cases connEffect_connStep hc with
  | recv _ _ _ hcha | unlinkAndClose _ _ hcha => exact hcha.induction (fun _ _ hc hch => FlowInv.change hc hch) h
  | initWndSize val c1 _ hc1 =>
    rw [applyWndSzChange_eq_some hu hc1]
    exact h.congr rfl rfl
  | maxFrameSize | dropResp | frameNow | initForXmit | initTLenForXmit | sendResp | sendFrame => exact h.congr rfl rfl
  | makeFrames args c1 hm => exact (h.makeFrames hm).congr rfl rfl

end FlowInv

/-- Over all runs of a connection every DATA frame fits into the windows of the connection and of its stream at the
moment when it is made. -/
theorem data_frames_fit_windows {maxFrameSz : Nat} {ops : List ConnOp} {c : H2Ctx}
    (hrun : run connStep (contextInit maxFrameSz) ops=some c) : (0≤c.remWnd ∧ ∀e∈c.log,e.fits) ∧
      ∀ (args : MakeArgs) (r : Option Err) (c' : H2Ctx),c.makeFrames args=.ok (r,c') →
        0≤c'.remWnd ∧ ∀e∈c'.log,e.fits := by
  have hinit : (contextInit maxFrameSz).UniqueIds ∧ FlowInv (contextInit maxFrameSz) :=
    ⟨nodup_nil,⟨Int.natCast_nonneg _,by simp [contextInit]⟩⟩
  have hi : c.UniqueIds ∧ FlowInv c := by
    refine run_invariant connStep (P := fun c => c.UniqueIds ∧ FlowInv c) ?_ hinit hrun
    intro c op c' ⟨hu,h⟩ hst
    exact ⟨uniqueIds_connStep hu hst,h.connStep hu hst⟩
  refine ⟨⟨hi.2.nonneg,hi.2.fits⟩,?_⟩
  intro args r c' hm
  have h' := hi.2.makeFrames hm
  exact ⟨h'.nonneg,h'.fits⟩

def longResponse : List ConnOp :=
  [.recv 100 {hdr:={type:=.headers, flags:=fEndHeaders ||| fEndStream, streamId:=1}},
    .initForXmit 1 .encodeHeaders 0 0,.sendResp 1 70000 false,.makeFrames
      { mssNow:=1400, tlsMaxOverhead:=40, sndWnd:=100000
        turns:=[(1,{prepareResp:=.ok (20,70000,0), entail:=fun _ => .ok 20000})]}]

/-- The body is sent in four DATA frames. -/
theorem data_frames_fit_windows_longResponse : ∃c : H2Ctx,run connStep (contextInit 16384) longResponse=some c ∧
      c.log.length=6 ∧ ∀e∈c.log,e.fits := by
  have hlo : (run connStep (contextInit 16384) longResponse).map (fun c => c.log.length) = some 6 := by decide +kernel
  obtain ⟨c,hc,hl⟩ := Option.map_eq_some_iff.1 hlo
  exact ⟨c,hc,hl,(data_frames_fit_windows hc).1.2⟩

/-- The windows are at most the maximum of the protocol. -/
structure WndInv (c : H2Ctx) : Prop where
  conn : c.remWnd ≤ maxWndSize
  settings : c.rsettings.wndSz ≤ maxWndSize
  streams : ∀s∈c.streams,s.remWnd ≤ maxWndSize

/-- A new SETTINGS_INITIAL_WINDOW_SIZE does not raise the window of a stream above the maximum. -/
def noOverflow (c : H2Ctx) : ConnOp → Bool
  | .settings .initWndSize val =>
    c.streams.all fun s =>
      !(s.state == .opened || s.state == .remHalfClosed) ||
        s.remWnd+(val-c.rsettings.wndSz) ≤ maxWndSize
  | _ => true

namespace WndInv
variable {c c' : H2Ctx}
lemma setStream (h : WndInv c) {s : TfwStream} (hs : s.remWnd ≤ maxWndSize) : WndInv (c.setStream s) := by
  refine ⟨h.conn,h.settings,?_⟩
  intro t ht
  obtain rfl | ⟨ht,-⟩ := mem_setStream ht
  · exact hs
  · exact h.streams t ht

lemma streamClean (h : WndInv c) (id : Nat) : WndInv (c.streamClean id) :=
  ⟨h.conn,h.settings,fun s hs => h.streams s (mem_of_mem_filter hs)⟩

lemma incrementWndSz_le {window wnd : Int} {incr : Nat}
    (h : H2Ctx.incrementWndSz window incr=some wnd) : wnd ≤ maxWndSize := by
  unfold incrementWndSz at h
  split_ifs at h with hm
  cases h
  exact Int.not_lt.1 hm

lemma change {drops : Nat → Prop} (h : WndInv c) (hc : Change drops c c') : WndInv c' := by
  cases hc with
  | frame | queues | opened => exact ⟨h.conn,h.settings,h.streams⟩
  | create id _ _ hcr =>
    unfold streamCreate at hcr
    split_ifs at hcr
    cases hcr
    refine ⟨h.conn,h.settings,?_⟩
    intro s hs
    obtain hs | hs := mem_append.1 hs
    · exact h.streams s hs
    · rw [mem_singleton.1 hs]
      exact Int.ofNat_le.2 h.settings
  | clean id => exact h.streamClean id
  | close id =>
    refine ⟨h.conn,h.settings,?_⟩
    intro s hs
    obtain ⟨t,ht,rfl⟩ := mem_map.1 hs
    split_ifs
    · exact h.streams t ht
    · exact h.streams t ht
  | fsm s f hs hf =>
    have hct : WndInv f.ctx := by
      rw [hf.ctx]
      exact ⟨h.conn,h.settings,h.streams⟩
    refine hct.setStream ?_
    rw [hf.stream]
    exact h.streams s hs
  | connWnd incr wnd hw => exact ⟨incrementWndSz_le hw,h.settings,h.streams⟩
  | streamWnd s incr wnd _ hs hid hw hu =>
    have hl : WndInv {c with log:=.wndIncr s.id incr::c.log} := ⟨h.conn,h.settings,h.streams⟩
    have hse := hl.setStream (s := ({s with remWnd:=wnd} : TfwStream).unblocked)
      (by rw [remWnd_unblocked]; exact incrementWndSz_le hw)
    rw [streamTryUnblock_eq_some hu]
    exact ⟨hse.conn,hse.settings,hse.streams⟩

lemma xmitEffect {x y : Xmit} {next : XmitNext}
    (h : WndInv x.ctx ∧ x.stream.remWnd ≤ maxWndSize) (hx : XmitEffect x next y) :
    WndInv y.ctx ∧ y.stream.remWnd ≤ maxWndSize := by
  obtain ⟨hc,hst⟩ := h
  have hs : ∀s∈y.ctx.streams,s.remWnd ≤ maxWndSize := by
    rw [hx.streams]
    exact hc.streams
  cases hx with
  | quiet hc' _ hs' =>
    rw [hs']
    refine ⟨⟨?_,?_,hs⟩,hst⟩
    · rw [hc']
      exact hc.conn
    · rw [hc']
      exact hc.settings
  | block _ _ hc' hs' =>
    rw [hs']
    refine ⟨⟨?_,?_,hs⟩,hst⟩
    · rw [hc']
      exact hc.conn
    · rw [hc']
      exact hc.settings
  | frame type length sent hm =>
    obtain ⟨flags,m,f,hf,-,hc',hs',-⟩ := hm.fsm
    have hfr := frame_streamFsm hf
    have hco := hc.conn
    refine ⟨⟨?_,?_,hs⟩,?_⟩
    · rw [hc',hfr.ctx]
      simp only
      omega
    · rw [hc',hfr.ctx]
      exact hc.settings
    · rw [hs',hfr.stream]
      simp only
      omega

lemma makeFrames {args : MakeArgs} {r : Option Err} (h : WndInv c) (hc : c.makeFrames args=.ok (r,c')) : WndInv c' := by
  refine makeFrames_induction ?_ ⟨h.conn,h.settings,h.streams⟩ hc
  intro _ _ _ c r c' _ _ _ h ht
  obtain ⟨s,x0,x,_,_,hs,-,rfl,rfl,hl,hc'⟩ := makeTurn_ok ht
  have hx : WndInv x.ctx ∧ x.stream.remWnd ≤ maxWndSize :=
    Xmit.loop_induction (P := fun y => WndInv y.ctx ∧ y.stream.remWnd ≤ maxWndSize)
      (fun _ _ _ => xmitEffect) ⟨h,h.streams _ hs⟩ hl
  obtain rfl | ⟨-,rfl⟩ := hc'
  · exact hx.1.setStream hx.2
  · exact (hx.1.setStream hx.2).streamClean _

lemma connStep {op : ConnOp} (hu : c.UniqueIds) (h : WndInv c) (hop : noOverflow c op=true)
    (hc : connStep c op=some c') : WndInv c' := by
  cases connEffect_connStep hc with
  | recv _ _ _ hcha | unlinkAndClose _ _ hcha => exact hcha.induction (fun _ _ hc hch => WndInv.change hc hch) h
  | initWndSize val c1 hv hc1 =>
    rw [applyWndSzChange_eq_some hu hc1]
    refine ⟨h.conn,hv,?_⟩
    intro t ht
    obtain ⟨s,hs,rfl⟩ := mem_map.1 ht
    have hf := all_eq_true.1 hop s hs
    simp only [Bool.or_eq_true,Bool.not_eq_true',Bool.or_eq_false_iff,beq_eq_false_iff_ne,decide_eq_true_eq] at hf
    unfold adjusted
    split_ifs with hst
    · rw [remWnd_unblocked]
      obtain ho | hf := hf
      · exact absurd hst (not_or.2 ho)
      · exact hf
    · exact h.streams s hs
  | maxFrameSize | dropResp | frameNow => exact ⟨h.conn,h.settings,h.streams⟩
  | initForXmit s _ _ _ hs | initTLenForXmit s _ hs | sendFrame s _ _ _ _ hs => exact h.setStream (h.streams s hs)
  | sendResp s _ _ errorStream hs =>
    have he : WndInv {c with error:=errorStream} := ⟨h.conn,h.settings,h.streams⟩
    exact he.setStream (h.streams s hs)
  | makeFrames args c1 hm =>
    have h1 := h.makeFrames hm
    exact ⟨h1.conn,h1.settings,h1.streams⟩

end WndInv

/-- As long as no SETTINGS frame raises the window of a stream above the maximum, the windows of the
connection and of all streams stay at most the maximum. -/
theorem windows_within_maximum {maxFrameSz : Nat} {ops : List ConnOp} {c : H2Ctx}
    (hops : along connStep noOverflow (contextInit maxFrameSz) ops=true)
    (hrun : run connStep (contextInit maxFrameSz) ops=some c) : c.remWnd≤2^31-1 ∧ ∀s∈c.streams,s.remWnd≤2^31-1 := by
  have hinit : (contextInit maxFrameSz).UniqueIds ∧ WndInv (contextInit maxFrameSz) := by
    refine ⟨nodup_nil,?_,?_,?_⟩
    · simp [contextInit,defWndSize,maxWndSize]
    · simp [contextInit,defWndSize,maxWndSize]
    · simp [contextInit]
  have hi : c.UniqueIds ∧ WndInv c := by
    refine run_invariant_along connStep (P := fun c => c.UniqueIds ∧ WndInv c) ?_ hinit hops hrun
    intro c op c' ⟨hu,h⟩ ho hst
    exact ⟨uniqueIds_connStep hu hst,h.connStep hu ho hst⟩
  exact ⟨hi.2.conn,hi.2.streams⟩

/-- The window of a stream is raised to the maximum by WINDOW_UPDATE and lowered by SETTINGS. -/
theorem windows_within_maximum_raised : let ops : List ConnOp :=
      [.recv 100 {hdr:={type:=.headers, flags:=fEndHeaders, streamId:=1}},
        .recv 100 {hdr:={type:=.windowUpdate, streamId:=1}, wndIncr:=2^31-2^16},
        .settings .initWndSize 1000]
    ∃c : H2Ctx,run connStep (contextInit 16384) ops=some c ∧
      c.streams.map (·.remWnd)=[2^31-1-64535] ∧ ∀s∈c.streams,s.remWnd≤2^31-1 := by
  intro ops
  have hw : (run connStep (contextInit 16384) ops).map (fun c => c.streams.map (·.remWnd)) =
      some [2^31-1-64535] := by decide +kernel
  obtain ⟨c,hc,hs⟩ := Option.map_eq_some_iff.1 hw
  exact ⟨c,hc,hs,(windows_within_maximum (by decide +kernel) hc).2⟩

/-- A WINDOW_UPDATE frame raises the window of a stream to the maximum. -/
theorem settings_raise_window_above_maximum : (run connStep (contextInit 16384)
      [.recv 100 {hdr:={type:=.headers, flags:=fEndHeaders, streamId:=1}},
        .recv 100 {hdr:={type:=.windowUpdate, streamId:=1}, wndIncr:=2^31-2^16},
        .settings .initWndSize (2^16)]).map (fun c => c.streams.map (·.remWnd))=some [2^31] := by
  decide +kernel
end VetWaf.H2
