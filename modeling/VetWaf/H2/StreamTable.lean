import VetWaf.H2.ConnChange
import VetWaf.H2.XmitRound

namespace VetWaf.H2
open TfwStream List

/-- The stream after `tfw_h2_stream_try_unblock` -/
def TfwStream.unblocked (s : TfwStream) : TfwStream :=
  if 0<s.remWnd then {s with xmit:={s.xmit with isBlocked:=false}} else s

def TfwStream.unblocks (s : TfwStream) : Bool := 0<s.remWnd ∧ s.xmit.skbHead≠0 ∧ s.xmit.isBlocked

variable (s : TfwStream) (delta : Int)
@[simp] lemma TfwStream.id_unblocked : s.unblocked.id=s.id := by
  unfold unblocked
  split_ifs <;> rfl

@[simp] lemma TfwStream.state_unblocked : s.unblocked.state=s.state := by
  unfold unblocked
  split_ifs <;> rfl

@[simp] lemma TfwStream.remWnd_unblocked : s.unblocked.remWnd=s.remWnd := by
  unfold unblocked
  split_ifs <;> rfl

@[simp] lemma TfwStream.skbHead_unblocked : s.unblocked.xmit.skbHead=s.xmit.skbHead := by
  unfold unblocked
  split_ifs <;> rfl

namespace H2Ctx

def UniqueIds (c : H2Ctx) : Prop := (c.streams.map (·.id)).Nodup

section
variable {c c' : H2Ctx}
section
variable (h : c.UniqueIds)
include h
lemma UniqueIds.setStream (s : TfwStream) : (c.setStream s).UniqueIds := by
  rw [UniqueIds,map_id_setStream]
  exact h

lemma UniqueIds.streamClean (id : Nat) : (c.streamClean id).UniqueIds := h.sublist (filter_sublist.map _)

lemma UniqueIds.setStreamState (id : Nat) (state : TfwStreamState) : (c.setStreamState id state).UniqueIds := by
  have hi : (c.setStreamState id state).streams.map (·.id)=c.streams.map (·.id) := by
    simp only [H2Ctx.setStreamState,map_map]
    apply map_congr_left
    intro t _
    simp only [Function.comp_apply]
    split_ifs <;> rfl
  rw [UniqueIds,hi]
  exact h

lemma UniqueIds.streamCreate {id : Nat} (hc : c.streamCreate id=some c') : c'.UniqueIds := by
  unfold H2Ctx.streamCreate at hc
  split_ifs at hc with hf
  cases hc
  rw [findStream_isSome] at hf
  simp only [UniqueIds,map_append,map_cons,map_nil]
  refine nodup_append.2 ⟨h,pairwise_singleton _ _,?_⟩
  intro a ha b hb
  obtain ⟨s,hs,rfl⟩ := mem_map.1 ha
  rw [mem_singleton.1 hb]
  exact fun hid => hf ⟨s,hs,hid⟩

end

variable {s t : TfwStream}
lemma streamTryUnblock_eq_some (h : c.streamTryUnblock s=some c') : c'={c.setStream s.unblocked with
      blockedStreams:=c.blockedStreams-if s.unblocks then 1 else 0} := by
  simp only [streamTryUnblock] at h
  unfold unblocked unblocks
  split_ifs at h with hw hq <;> simp only [Option.some.injEq] at h <;> subst h
  · simp [hw,hq,H2Ctx.setStream]
  · simp [hw,hq,H2Ctx.setStream]
  · simp [hw,H2Ctx.setStream]

lemma UniqueIds.change {drops : Nat → Prop} (h : c.UniqueIds) (hc : Change drops c c') : c'.UniqueIds := by
  cases hc with
  | frame | queues | opened | connWnd => exact h
  | create id _ _ hcr => exact h.streamCreate hcr
  | clean id => exact h.streamClean id
  | close id => exact h.setStreamState id .closed
  | fsm s f hs hf =>
    have hct : f.ctx.UniqueIds := by
      rw [hf.ctx]
      exact h
    exact hct.setStream f.stream
  | streamWnd s incr wnd _ hs hid hw hu =>
    rw [streamTryUnblock_eq_some hu]
    exact h.setStream _

lemma streams_setStream {pre rest : List TfwStream} (h : c.UniqueIds)
    (hc : c.streams=pre++s::rest) (hid : t.id=s.id) : (c.setStream t).streams=pre++t::rest := by
  rw [UniqueIds,hc,map_append,map_cons] at h
  obtain ⟨-,hr,hp⟩ := nodup_append.1 h
  have ho : ∀u∈pre++rest,u.id≠t.id := by
    intro u hu heq
    rw [hid] at heq
    obtain hu | hu := mem_append.1 hu
    · exact hp _ (mem_map_of_mem hu) _ (.head _) heq
    · exact (nodup_cons.1 hr).1 (heq ▸ mem_map_of_mem hu)
  have hk : ∀l : List TfwStream,(∀u∈l,u.id≠t.id) → l.map (fun u => if u.id=t.id then t else u)=l := by
    intro l hl
    conv_rhs => rw [← map_id l]
    apply map_congr_left
    intro u hu
    simp [hl u hu]
  rw [H2Ctx.setStream,hc]
  simp only [map_append,map_cons,hid,if_true]
  rw [← hid,hk pre fun u hu => ho u (mem_append_left _ hu),hk rest fun u hu => ho u (mem_append_right _ hu)]

lemma countP_setStream {p : TfwStream → Bool} (h : c.UniqueIds) (hs : s∈c.streams) (hid : t.id=s.id) :
    ((c.setStream t).streams.countP p : Int)=c.streams.countP p-(if p s then 1 else 0)+if p t then 1 else 0 := by
  obtain ⟨pre,rest,hc⟩ := append_of_mem hs
  rw [streams_setStream h hc hid,hc]
  simp only [countP_append,countP_cons]
  split_ifs <;> push_cast <;> omega

end
end H2Ctx

def TfwStream.adjusted (delta : Int) (s : TfwStream) : TfwStream :=
  if s.state=.opened ∨ s.state=.remHalfClosed then
    {s with remWnd:=s.remWnd+delta}.unblocked
  else s

def TfwStream.adjustUnblocks (delta : Int) (s : TfwStream) : Bool := (s.state=.opened ∨ s.state=.remHalfClosed) ∧
    ({s with remWnd:=s.remWnd+delta} : TfwStream).unblocks

@[simp] lemma TfwStream.state_adjusted (s : TfwStream) : (s.adjusted delta).state=s.state := by
  unfold adjusted
  split_ifs
  · exact state_unblocked _
  · rfl

@[simp] lemma TfwStream.skbHead_adjusted (s : TfwStream) : (s.adjusted delta).xmit.skbHead=s.xmit.skbHead := by
  unfold adjusted
  split_ifs
  · exact skbHead_unblocked _
  · rfl

@[simp] lemma TfwStream.id_adjusted (s : TfwStream) : (s.adjusted delta).id=s.id := by
  unfold adjusted
  split_ifs
  · exact id_unblocked _
  · rfl

namespace H2Ctx
variable {delta : Int}
lemma foldlM_adjustStreamWnd {pre rest : List TfwStream} {c c' : H2Ctx} (hu : c.UniqueIds) (hc : c.streams=pre++rest)
    (h : rest.foldlM (adjustStreamWnd delta) c=some c') : c'={c with
      streams:=pre++rest.map (·.adjusted delta)
      blockedStreams:=c.blockedStreams-rest.countP (·.adjustUnblocks delta)} := by
  induction rest generalizing c pre with
  | nil =>
    cases h
    simp [← hc]
  | cons s rest ih =>
    obtain ⟨c1,hf,hr⟩ := Option.bind_eq_some_iff.1 h
    have hc1 : c1={c with
        streams:=(pre++[s.adjusted delta])++rest
        blockedStreams:=c.blockedStreams-if s.adjustUnblocks delta then 1 else 0} := by
      unfold adjustStreamWnd at hf
      by_cases hst : s.state=.opened ∨ s.state=.remHalfClosed
      · rw [if_pos hst] at hf
        have hs := streams_setStream hu hc (({s with remWnd:=s.remWnd+delta} : TfwStream).id_unblocked)
        rw [streamTryUnblock_eq_some hf,adjusted,if_pos hst,append_assoc,singleton_append,← hs]
        simp [adjustUnblocks,hst,H2Ctx.setStream]
      · rw [if_neg hst] at hf
        cases hf
        simp [adjusted,adjustUnblocks,hst,← hc]
    have hu1 : c1.UniqueIds := by
      rw [hc1,UniqueIds]
      simp only [map_append,map_cons,map_nil,id_adjusted]
      rw [UniqueIds,hc] at hu
      simpa using hu
    have hs1 : c1.streams=(pre++[s.adjusted delta])++rest := by rw [hc1]
    rw [ih hu1 hs1 hr,hc1]
    simp only [append_assoc,singleton_append,map_cons,countP_cons]
    congr 1
    split_ifs <;> push_cast <;> omega

variable {c c' : H2Ctx}
lemma applyWndSzChange_eq_some (hu : c.UniqueIds) (h : c.applyWndSzChange delta=some c') : c'={c with
      streams:=c.streams.map (·.adjusted delta)
      blockedStreams:=c.blockedStreams-c.streams.countP (·.adjustUnblocks delta)} :=
  @foldlM_adjustStreamWnd delta [] c.streams c c' hu rfl h

lemma UniqueIds.applyWndSzChange (hu : c.UniqueIds) (h : c.applyWndSzChange delta=some c') : c'.UniqueIds := by
  have hi : (c.streams.map (·.adjusted delta)).map (·.id)=c.streams.map (·.id) := by
    rw [map_map]
    exact map_congr_left fun s _ => s.id_adjusted delta
  rw [applyWndSzChange_eq_some hu h,UniqueIds,hi]
  exact hu

lemma UniqueIds.makeTurn {args : MakeArgs} {a : XmitAnswers}
    {sndWnd sndWnd' id : Nat} {r : Option Err} {stop : Bool} (hu : c.UniqueIds)
    (h : c.makeTurn args sndWnd id a=.ok (r,c',sndWnd',stop)) : c'.UniqueIds := by
  obtain ⟨s,x0,x,_,_,-,-,rfl,-,hl,hc'⟩ := makeTurn_ok h
  have hx : x.ctx.UniqueIds := by
    refine Xmit.loop_induction (P := fun y => y.ctx.UniqueIds) ?_ hu hl
    intro y _ z hy he
    rw [UniqueIds,he.streams]
    exact hy
  obtain rfl | ⟨-,rfl⟩ := hc'
  · exact hx.setStream _
  · exact (hx.setStream _).streamClean _

end H2Ctx

lemma uniqueIds_connStep {c c' : H2Ctx} {op : ConnOp} (hu : c.UniqueIds)
    (h : connStep c op=some c') : c'.UniqueIds := by
  cases connEffect_connStep h with
  | recv _ _ _ hcha | unlinkAndClose _ _ hcha =>
    exact hcha.induction (fun _ _ hc hch => H2Ctx.UniqueIds.change hc hch) hu
  | initWndSize val c1 _ hc1 =>
    have hu1 : c1.UniqueIds := hu.applyWndSzChange hc1
    exact hu1
  | maxFrameSize | dropResp | frameNow => exact hu
  | initForXmit | initTLenForXmit | sendResp | sendFrame => exact H2Ctx.UniqueIds.setStream hu _
  | makeFrames args c1 hm =>
    have hu1 : c1.UniqueIds := H2Ctx.makeFrames_induction
        (fun _ _ _ _ _ _ _ _ _ hc ht => H2Ctx.UniqueIds.makeTurn hc ht) hu hm
    exact hu1
end VetWaf.H2
