import VetWaf.H2.FlowControl
import VetWaf.H2.XmitTurn

namespace VetWaf.H2
open TfwStream H2Ctx List Run

def connBalance : List H2Event → Int
  | [] => 0
  | .wndIncr 0 incr::log => connBalance log+incr
  | .data _ length _ _ true::log => connBalance log-length
  | _ :: log => connBalance log

/-- What the history says about the window of a stream since the stream was created, beyond the
initial size of the windows. -/
def streamBalance (id : Nat) : List H2Event → Int
  | [] => 0
  | .created i::log => if i=id then 0 else streamBalance id log
  | .opened _ :: log => streamBalance id log
  | .wndIncr i incr::log => streamBalance id log+if i=id then incr else 0
  | .data i length _ _ sent::log => streamBalance id log-if i=id ∧ sent=true then length else 0

lemma connBalance_wndIncr {id incr : Nat} {log : List H2Event} (hid : id≠0) :
    connBalance (.wndIncr id incr::log)=connBalance log := by
  obtain ⟨k,rfl⟩ := Nat.exists_eq_succ_of_ne_zero hid
  rfl

structure Balanced (c : H2Ctx) : Prop where
  ids : c.UniqueIds
  nonzero : ∀s∈c.streams,s.id≠0
  conn : c.remWnd=defWndSize+connBalance c.log
  streams : ∀s∈c.streams,s.state ≠ .closed → s.remWnd=c.rsettings.wndSz+streamBalance s.id c.log

/-- A new SETTINGS_INITIAL_WINDOW_SIZE finds every stream that is not closed in a state in which it takes effect. -/
def keepsBalance (c : H2Ctx) : ConnOp → Bool
  | .settings .initWndSize val =>
    val == c.rsettings.wndSz || c.streams.all fun s =>
      s.state == .opened || s.state == .remHalfClosed || s.state == .closed
  | .makeFrames _ => c.streams.all fun s => !s.isActive || decide (Sendable s.xmit.state s)
  | _ => true

namespace Balanced
variable {c c' : H2Ctx} {drops : Nat → Prop} (h : Balanced c)
include h
lemma setStream {s t : TfwStream} (hs : s∈c.streams) (hid : t.id=s.id)
    (hw : t.remWnd=s.remWnd) (hst : s.state=.closed → t.state=.closed) : Balanced (c.setStream t) := by
  refine ⟨h.ids.setStream t,?_,h.conn,?_⟩
  · intro u hu
    obtain rfl | ⟨hu,-⟩ := mem_setStream hu
    · exact hid ▸ h.nonzero s hs
    · exact h.nonzero u hu
  · intro u hu ho
    obtain rfl | ⟨hu,-⟩ := mem_setStream hu
    · rw [hw,hid]
      exact h.streams s hs fun hc => ho (hst hc)
    · exact h.streams u hu ho

lemma streamClean (id : Nat) : Balanced (c.streamClean id) :=
  ⟨h.ids.streamClean id,fun s hs => h.nonzero s (mem_of_mem_filter hs),h.conn,
    fun s hs => h.streams s (mem_of_mem_filter hs)⟩

lemma change (hc : Change drops c c') : Balanced c' := by
  cases hc with
  | frame | queues => exact ⟨h.ids,h.nonzero,h.conn,h.streams⟩
  | opened id => exact ⟨h.ids,h.nonzero,h.conn,h.streams⟩
  | create id _ hid hcr =>
    have hi := h.ids.streamCreate hcr
    unfold streamCreate at hcr
    split_ifs at hcr with hfe
    cases hcr
    rw [findStream_isSome] at hfe
    refine ⟨hi,?_,h.conn,?_⟩
    · intro s hs
      obtain hs | hs := mem_append.1 hs
      · exact h.nonzero s hs
      · rw [mem_singleton.1 hs]
        exact hid
    · intro s hs ho
      obtain hs | hs := mem_append.1 hs
      · rw [streamBalance,if_neg fun heq => hfe ⟨s,hs,heq.symm⟩]
        exact h.streams s hs ho
      · rw [mem_singleton.1 hs]
        simp [streamBalance]
  | clean id => exact h.streamClean id
  | close id =>
    refine ⟨h.ids.setStreamState id .closed,?_,h.conn,?_⟩
    · intro s hs
      obtain ⟨t,ht,rfl⟩ := mem_map.1 hs
      split_ifs
      · exact h.nonzero t ht
      · exact h.nonzero t ht
    · intro s hs ho
      obtain ⟨t,ht,rfl⟩ := mem_map.1 hs
      split_ifs at ho ⊢
      · exact absurd rfl ho
      · exact h.streams t ht ho
  | fsm s f hs hf hcl =>
    have hct : Balanced f.ctx ∧ f.ctx.streams=c.streams := by
      rw [hf.ctx]
      exact ⟨⟨h.ids,h.nonzero,h.conn,h.streams⟩,rfl⟩
    refine hct.1.setStream (hct.2 ▸ hs) ?_ ?_ hcl
    · rw [hf.stream]
    · rw [hf.stream]
  | connWnd incr wnd hw =>
    unfold incrementWndSz at hw
    split_ifs at hw
    cases hw
    refine ⟨h.ids,h.nonzero,?_,?_⟩
    · have hco := h.conn
      simp only [connBalance]
      omega
    · intro s hs ho
      have hne : ¬0=s.id := fun h0 => h.nonzero s hs h0.symm
      simp [streamBalance,hne,h.streams s hs ho]
  | streamWnd s incr wnd _ hs hid hw hun =>
    unfold incrementWndSz at hw
    split_ifs at hw
    cases hw
    rw [streamTryUnblock_eq_some hun]
    refine ⟨h.ids.setStream _,?_,?_,?_⟩
    · intro u hu
      obtain rfl | ⟨hu,-⟩ := mem_setStream hu
      · rw [id_unblocked]
        exact hid
      · exact h.nonzero u hu
    · change c.remWnd=defWndSize+connBalance (.wndIncr s.id incr::c.log)
      rw [connBalance_wndIncr hid]
      exact h.conn
    · intro u hu ho
      obtain rfl | ⟨hu,hne⟩ := mem_setStream hu
      · rw [state_unblocked] at ho
        have hb := h.streams s hs ho
        have hl : streamBalance s.id (.wndIncr s.id incr::c.log)
            = streamBalance s.id c.log+incr := by simp [streamBalance]
        rw [id_unblocked,remWnd_unblocked]
        change s.remWnd+incr=c.rsettings.wndSz+streamBalance s.id (.wndIncr s.id incr::c.log)
        omega
      · rw [id_unblocked] at hne
        have hl : streamBalance u.id (.wndIncr s.id incr::c.log)=streamBalance u.id c.log := by
          simp [streamBalance,Ne.symm hne]
        exact (h.streams u hu ho).trans (by rw [← hl]; rfl)

lemma applyWndSzChange {val : Nat} (hop : keepsBalance c (.settings .initWndSize val)=true)
    (hc : c.applyWndSzChange (val-c.rsettings.wndSz)=some c') :
    Balanced {c' with rsettings:={c'.rsettings with wndSz:=val}} := by
  have hi := h.ids.applyWndSzChange hc
  rw [applyWndSzChange_eq_some h.ids hc] at hi ⊢
  refine ⟨hi,?_,h.conn,?_⟩
  · intro t ht
    obtain ⟨s,hs,rfl⟩ := mem_map.1 ht
    rw [id_adjusted]
    exact h.nonzero s hs
  · intro t ht ho
    obtain ⟨s,hs,rfl⟩ := mem_map.1 ht
    simp only [id_adjusted]
    unfold adjusted at ho ⊢
    by_cases hst : s.state=.opened ∨ s.state=.remHalfClosed
    · rw [if_pos hst,state_unblocked] at ho
      rw [if_pos hst,remWnd_unblocked]
      have hb := h.streams s hs ho
      simp only
      omega
    · rw [if_neg hst] at ho ⊢
      have hb := h.streams s hs ho
      simp only [keepsBalance,Bool.or_eq_true,beq_iff_eq,all_eq_true] at hop
      obtain rfl | ha := hop
      · exact hb
      · obtain hm | hcl := ha s hs
        · exact absurd hm hst
        · exact absurd hcl ho

end Balanced

/-- The windows during a turn, with the stream as it is. -/
structure TurnBalanced (x : Xmit) : Prop where
  conn : x.ctx.remWnd=defWndSize+connBalance x.ctx.log
  stream : x.stream.state ≠ .closed → x.stream.remWnd=x.ctx.rsettings.wndSz+streamBalance x.stream.id x.ctx.log
  others : ∀s∈x.ctx.streams,s.id≠x.stream.id → s.state ≠ .closed →
    s.remWnd=x.ctx.rsettings.wndSz+streamBalance s.id x.ctx.log

lemma TurnBalanced.accounted {x y : Xmit} {next : XmitNext} (h : TurnBalanced x)
    (he : XmitEffect x next y) (hxy : Xmit.Accounted x y) : TurnBalanced y := by
  have hid := he.id
  have hst := he.streams
  have hwn := he.rsettings
  have hc : y.stream.state ≠ .closed → x.stream.state ≠ .closed := fun ho hx => ho (he.closed hx)
  cases hxy with
  | same hw hl hstr =>
    refine ⟨?_,?_,?_⟩
    · rw [hw,hl]
      exact h.conn
    · intro ho
      rw [hstr,hwn,hid,hl]
      exact h.stream (hc ho)
    · rw [hst,hid,hwn,hl]
      exact h.others
  | data length hw hl hstr =>
    refine ⟨?_,?_,?_⟩
    · have hco := h.conn
      rw [hw,hl,connBalance]
      omega
    · intro ho
      have hb := h.stream (hc ho)
      rw [hstr,hwn,hid,hl]
      simp only [streamBalance,and_self,if_true]
      omega
    · rw [hst,hid,hwn,hl]
      intro s hs hne ho
      simp [streamBalance,Ne.symm hne,h.others s hs hne ho]

namespace Balanced
variable {c c' : H2Ctx}
def AllSendable (c : H2Ctx) : Prop := ∀s∈c.streams,s.isActive=true → Sendable s.xmit.state s

lemma makeTurn {args : MakeArgs} {a : XmitAnswers} {sndWnd sndWnd' id : Nat} {stop : Bool}
    (h : Balanced c ∧ AllSendable c) (hc : c.makeTurn args sndWnd id a=.ok (none,c',sndWnd',stop)) :
    Balanced c' ∧ AllSendable c' := by
  obtain ⟨hb,hse⟩ := h
  obtain ⟨s,x0,x,minToSend,fuel,hs,ha,rfl,rfl,hl,hc'⟩ := makeTurn_ok hc
  have hx0 : TurnBalanced x0 := ⟨hb.conn,hb.streams _ hs,fun s hs _ => hb.streams s hs⟩
  obtain ⟨n,state,z,⟨hzs,hz,hzst,hzi⟩,hf⟩ := Xmit.loop_exit
    (P := fun state y => Sendable state y.stream ∧ TurnBalanced y ∧
      y.ctx.streams=x0.ctx.streams ∧ y.stream.id=x0.stream.id)
    (R := fun state y => Sendable state y.stream ∧ TurnBalanced y ∧
      y.ctx.streams=x0.ctx.streams ∧ y.stream.id=x0.stream.id) (fun _ _ _ _ _ hx hv => by
      have he := Xmit.effect_visit hv
      obtain ⟨hs',hac⟩ := Xmit.sendable_visit hx.1 hv
      exact ⟨hs',hx.2.1.accounted he hac,he.streams.trans hx.2.2.1,he.id.trans hx.2.2.2⟩)
    (fun _ _ _ _ hx hv => by
      have he := Xmit.effect_visit hv
      obtain ⟨hs',hac⟩ := Xmit.sendable_exit hx.1 hv
      exact ⟨hs',hx.2.1.accounted he hac,he.streams.trans hx.2.2.1,he.id.trans hx.2.2.2⟩)
    ⟨hse _ hs ha,hx0,rfl,rfl⟩ hl
  obtain ⟨hq,hst,-⟩ := Xmit.finish_ok hf
  have hx : TurnBalanced x := hz.accounted (hq.effect .exit)
    (.same (by rw [hq.ctx]) (by rw [hq.ctx]) (by rw [hq.stream]))
  have hstr : x.ctx.streams=x0.ctx.streams := by rw [hq.ctx,hzst]
  have hid : x.stream.id=x0.stream.id := by rw [hq.stream,hzi]
  have hxs : Sendable x.stream.xmit.state x.stream := by
    rw [hst,hq.stream]
    exact hzs
  have hset : Balanced (x.ctx.setStream x.stream) ∧ AllSendable (x.ctx.setStream x.stream) := by
    refine ⟨⟨?_,?_,hx.conn,?_⟩,?_⟩
    · refine H2Ctx.UniqueIds.setStream ?_ _
      rw [H2Ctx.UniqueIds,hstr]
      exact hb.ids
    · intro u hu
      obtain rfl | ⟨hu,-⟩ := mem_setStream hu
      · exact hid ▸ hb.nonzero _ hs
      · exact hb.nonzero u (hstr ▸ hu)
    · intro u hu ho
      obtain rfl | ⟨hu,hne⟩ := mem_setStream hu
      · exact hx.stream ho
      · exact hx.others u hu hne ho
    · intro u hu ha'
      obtain rfl | ⟨hu,-⟩ := mem_setStream hu
      · exact hxs
      · exact hse u (hstr ▸ hu) ha'
  obtain rfl | ⟨-,rfl⟩ := hc'
  · exact hset
  · exact ⟨hset.1.streamClean _,fun u hu => hset.2 u (mem_of_mem_filter hu)⟩

lemma connStep {op : ConnOp} (h : Balanced c) (ho : keepsBalance c op=true)
    (hc : connStep c op=some c') : Balanced c' := by
  cases connEffect_connStep hc with
  | recv _ _ _ hcha | unlinkAndClose _ _ hcha => exact hcha.induction (fun _ _ hc hch => Balanced.change hc hch) h
  | initWndSize val c1 _ hc1 => exact h.applyWndSzChange ho hc1
  | maxFrameSize | dropResp | frameNow => exact ⟨h.ids,h.nonzero,h.conn,h.streams⟩
  | initForXmit s _ _ _ hs | initTLenForXmit s _ hs | sendFrame s _ _ _ _ hs => exact h.setStream hs rfl rfl id
  | sendResp s _ _ errorStream hs =>
    have he : Balanced {c with error:=errorStream} := ⟨h.ids,h.nonzero,h.conn,h.streams⟩
    exact he.setStream hs rfl rfl id
  | makeFrames args c1 hm =>
    have hse : AllSendable (c.withFrame args.hdr args.plen) := by
      intro s hs ha
      have hs' := all_eq_true.1 ho s hs
      simpa [ha] using hs'
    have h1 : Balanced c1 ∧ AllSendable c1 := by
      refine makeFrames_induction (P := fun c => Balanced c ∧ AllSendable c) ?_
        ⟨⟨h.ids,h.nonzero,h.conn,h.streams⟩,hse⟩ hm
      intro _ _ _ _ r _ _ _ hr hc ht
      obtain rfl : r=none := or_self_iff.1 hr
      exact makeTurn hc ht
    exact ⟨h1.1.ids,h1.1.nonzero,h1.1.conn,h1.1.streams⟩

end Balanced

/-- As long as a new SETTINGS_INITIAL_WINDOW_SIZE reaches every stream that is not closed and frames are made
only for streams that take them, the windows are what was granted less what was sent. -/
theorem windows_balanced {maxFrameSz : Nat} {ops : List ConnOp} {c : H2Ctx}
    (hops : along connStep keepsBalance (contextInit maxFrameSz) ops=true)
    (hrun : run connStep (contextInit maxFrameSz) ops=some c) : (∀s∈c.streams,s.state ≠ .closed →
        s.remWnd=c.rsettings.wndSz+streamBalance s.id c.log) ∧ c.remWnd=65535+connBalance c.log := by
  have hinit : Balanced (contextInit maxFrameSz) := ⟨nodup_nil,by simp [contextInit],rfl,by simp [contextInit]⟩
  have hi : Balanced c := run_invariant_along connStep (fun _ _ _ => Balanced.connStep) hinit hops hrun
  exact ⟨hi.streams,hi.conn⟩

/-- The long response leaves 35 bytes of the window of its stream. -/
theorem windows_balanced_longResponse : let ops := longResponse ++
      [.recv 100 {hdr:={type:=.windowUpdate, streamId:=1}, wndIncr:=5000}]
    ∃c : H2Ctx,run connStep (contextInit 16384) ops=some c ∧
      c.streams.map (·.remWnd)=[5035] ∧ ∀s∈c.streams,s.state ≠ .closed →
        s.remWnd=c.rsettings.wndSz+streamBalance s.id c.log := by
  intro ops
  have hw : (run connStep (contextInit 16384) ops).map (fun c => c.streams.map (·.remWnd)) =
      some [5035] := by decide +kernel
  obtain ⟨c,hc,hs⟩ := Option.map_eq_some_iff.1 hw
  exact ⟨c,hc,hs,(windows_balanced (by decide +kernel) hc).1⟩

/-- A PRIORITY frame creates stream 3, and the window of an idle stream does not follow the new
SETTINGS_INITIAL_WINDOW_SIZE. -/
theorem idle_window_not_adjusted : (run connStep (contextInit 16384)
      [.recv 100 {hdr:={type:=.priority, streamId:=3}},.settings .initWndSize 1000]).map
          (fun c => (c.rsettings.wndSz,c.streams.map fun s => (s.state,s.remWnd,streamBalance s.id c.log))) =
      some (1000,[(.idle,65535,0)]) := by
  decide +kernel
end VetWaf.H2
