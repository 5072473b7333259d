import VetWaf.H2.Stream

namespace VetWaf.H2
namespace H2Ctx
variable (c : H2Ctx) (send : Bool) (cur : Option Nat)
@[simp] lemma curHeaders_setCurHeaders : (c.setCurHeaders send cur).curHeaders send=cur := by cases send <;> rfl

@[simp] lemma curHeaders_setCurHeaders_not : (c.setCurHeaders send cur).curHeaders (!send)=c.curHeaders (!send) := by
  cases send <;> rfl

@[simp] lemma curHeaders_false_setCurHeaders_true :
    (c.setCurHeaders true cur).curHeaders false=c.curHeaders false := rfl

@[simp] lemma curHeaders_true_setCurHeaders_false : (c.setCurHeaders false cur).curHeaders true=c.curHeaders true := rfl
@[simp] lemma streams_setCurHeaders : (c.setCurHeaders send cur).streams=c.streams := by cases send <;> rfl

lemma curHeaders_resetStreamOnClose (id : Nat) : (c.resetStreamOnClose id).curHeaders send =
      if c.curHeaders send=some id then none else c.curHeaders send := by
  cases send <;> rfl

end H2Ctx

def TfwFrameType.isHeaders (type : TfwFrameType) : Bool := type == .headers || type == .continuation
def mayOpen (send : Bool) (state : TfwStreamState) : Prop := state=.opened ∨ state=halfClosed (!send)

/-- The headers in the middle of a request or response. -/
def reopens (s : TfwStream) (type : TfwFrameType) (flags : UInt8) : Bool :=
  s.state == .opened && type == .headers && hasFlag flags fEndHeaders && !hasFlag flags fEndStream

/-- What the FSM does before it resets the pointers of a stream that is reset. -/
structure Moves (type : TfwFrameType) (flags : UInt8) (send : Bool) (f g : Fsm) : Prop where
  id : g.stream.id=f.stream.id
  streams : g.ctx.streams=f.ctx.streams
  cur : g.ctx.curHeaders send = if g.res=.ok ∧ type.isHeaders then
      if hasFlag flags fEndHeaders then none else some f.stream.id
    else f.ctx.curHeaders send
  other : g.ctx.curHeaders (!send)=f.ctx.curHeaders (!send)
  place : type ≠ .rstStream → g.res ≠ .termStream → g.ctx.curHeaders send=some f.stream.id →
    (f.ctx.curHeaders send=some f.stream.id → mayOpen send f.stream.state) → mayOpen send g.stream.state
  placeOther : type ≠ .rstStream → g.res ≠ .termStream → mayOpen (!send) f.stream.state → mayOpen (!send) g.stream.state

section
variable {type : TfwFrameType} {flags : UInt8} {send : Bool} {f : Fsm}
lemma curHeaders_of_fsmCheck (h : fsmCheck type send f=true) :
    (type=.continuation ∨ type=.rstStream) ∧ f.ctx.curHeaders send=some f.stream.id ∨
      type ≠ .continuation ∧ f.ctx.curHeaders send=none := by
  unfold fsmCheck at h
  cases hc : f.ctx.curHeaders send with
  | some cur =>
    rw [hc] at h
    simp only [decide_eq_true_eq] at h
    exact .inl ⟨h.2,by rw [h.1]⟩
  | none =>
    rw [hc] at h
    simp only [decide_eq_true_eq] at h
    exact .inr ⟨h,rfl⟩

lemma moves_fsmOpened (hst : f.stream.state=.opened) (hr : f.res=.ok)
    (hch : fsmCheck type send f=true) (hre : reopens f.stream type flags=false) :
    Moves type flags send f (fsmOpened type flags send f) := by
  have hc := curHeaders_of_fsmCheck hch
  cases type with
  | continuation =>
    simp only [fsmOpened]
    constructor
    all_goals (split_ifs <;> simp_all [mayOpen,halfClosed,TfwFrameType.isHeaders])
  | headers =>
    simp only [fsmOpened]
    constructor
    all_goals (split_ifs <;> simp_all [mayOpen,halfClosed,TfwFrameType.isHeaders,reopens])
  | data =>
    simp only [fsmOpened]
    constructor
    all_goals (split_ifs <;> simp_all [mayOpen,halfClosed,TfwFrameType.isHeaders])
  | _ => constructor <;> simp_all [fsmOpened,mayOpen,TfwFrameType.isHeaders]

lemma moves_fsmHalfClosedHeaders (hst : f.stream.state=halfClosed (!send)) (hr : f.res=.ok)
    (ht : type.isHeaders=true) : Moves type flags send f (fsmHalfClosedHeaders flags send f) := by
  unfold fsmHalfClosedHeaders
  cases he : hasFlag flags fEndHeaders <;> cases hes : hasFlag flags fEndStream <;>
    cases send <;> constructor <;> simp_all [mayOpen,halfClosed]

lemma moves_fsmLocHalfClosed (hst : f.stream.state=.locHalfClosed) (hr : f.res=.ok)
    (hch : fsmCheck type send f=true) : Moves type flags send f (fsmLocHalfClosed type flags send f) := by
  have hc := curHeaders_of_fsmCheck hch
  unfold fsmLocHalfClosed
  cases send with
  | true => cases type <;> constructor <;> simp_all [mayOpen,halfClosed,TfwFrameType.isHeaders]
  | false =>
    by_cases ht : type=.headers ∨ type=.continuation
    · have hne : type ≠ .rstStream := by
        rintro rfl
        simp at ht
      simp only [Bool.not_false,if_true,hne,if_false,ht]
      exact moves_fsmHalfClosedHeaders hst hr (by simpa [TfwFrameType.isHeaders] using ht)
    · constructor <;> split_ifs <;> simp_all [mayOpen,halfClosed,TfwFrameType.isHeaders]

lemma moves_fsmRemHalfClosed (hst : f.stream.state=.remHalfClosed) (hr : f.res=.ok)
    (hch : fsmCheck type send f=true) : Moves type flags send f (fsmRemHalfClosed type flags send f) := by
  have hc := curHeaders_of_fsmCheck hch
  unfold fsmRemHalfClosed
  cases send with
  | false => cases type <;> constructor <;> simp_all [mayOpen,halfClosed,TfwFrameType.isHeaders]
  | true =>
    by_cases ht : type=.headers ∨ type=.continuation
    · simp only [if_true,ht]
      exact moves_fsmHalfClosedHeaders hst hr (by simpa [TfwFrameType.isHeaders] using ht)
    · constructor <;> split_ifs <;> simp_all [mayOpen,halfClosed,TfwFrameType.isHeaders]

lemma moves_fsmLocClosed (hst : f.stream.state=.locClosed) (hch : fsmCheck type send f=true) :
    Moves type flags send f (fsmLocClosed type send f) := by
  have hc := curHeaders_of_fsmCheck hch
  unfold fsmLocClosed
  constructor <;> split_ifs <;> simp_all [mayOpen,halfClosed,TfwFrameType.isHeaders]

lemma moves_fsmClosed (hst : f.stream.state=.closed) (hch : fsmCheck type send f=true) :
    Moves type flags send f (fsmClosed type send f) := by
  have hc := curHeaders_of_fsmCheck hch
  unfold fsmClosed
  constructor <;> split_ifs <;> simp_all [mayOpen,halfClosed,TfwFrameType.isHeaders]

lemma moves_fsmIdle {g : Fsm} (hst : f.stream.state=.idle) (hr : f.res=.ok)
    (hch : fsmCheck type send f=true) (hg : fsmIdle type flags send f=some g) : Moves type flags send f g := by
  have hc := curHeaders_of_fsmCheck hch
  unfold fsmIdle at hg
  cases send with
  | true => simp at hg
  | false =>
    by_cases ht : type=.headers
    · subst ht
      cases he : hasFlag flags fEndHeaders <;> cases hes : hasFlag flags fEndStream <;>
        simp [he,hes] at hg <;> subst hg <;> constructor <;> simp_all [mayOpen,halfClosed,TfwFrameType.isHeaders]
    · split_ifs at hg <;> cases hg <;> constructor <;> simp_all [mayOpen,halfClosed,TfwFrameType.isHeaders]

lemma moves_fsmSwitch {g : Fsm} (hr : f.res=.ok) (hc : fsmCheck type send f=true)
    (hre : reopens f.stream type flags=false) (hg : fsmSwitch type flags send f=some g) :
    Moves type flags send f g := by
  unfold fsmSwitch at hg
  cases hst : f.stream.state with
  | idle => exact moves_fsmIdle hst hr hc (by simpa [hst] using hg)
  | locReserved | remReserved => simp [hst] at hg
  | opened =>
    simp only [hst,Option.some.injEq] at hg
    exact hg ▸ moves_fsmOpened hst hr hc hre
  | locHalfClosed =>
    simp only [hst,Option.some.injEq] at hg
    exact hg ▸ moves_fsmLocHalfClosed hst hr hc
  | remHalfClosed =>
    simp only [hst,Option.some.injEq] at hg
    exact hg ▸ moves_fsmRemHalfClosed hst hr hc
  | locClosed =>
    simp only [hst,Option.some.injEq] at hg
    exact hg ▸ moves_fsmLocClosed hst hc
  | closed =>
    simp only [hst,Option.some.injEq] at hg
    exact hg ▸ moves_fsmClosed hst hc

lemma moves_termConn : Moves type flags send f f.termConn where
  id := rfl
  streams := rfl
  cur := by simp
  other := rfl
  place := fun _ _ hc hm => hm hc
  placeOther := fun _ _ hm => hm

end

section
variable {c : H2Ctx} {s : TfwStream} {type : TfwFrameType} {flags : UInt8} {send : Bool} {g : Fsm}
lemma streamFsm_eq_some (h : streamFsm c s type flags send=some g) : ∃m,g=fsmFinish type m ∧
      (fsmCheck type send ⟨c,s,.ok,none⟩=true ∧ fsmSwitch type flags send ⟨c,s,.ok,none⟩=some m ∨
        fsmCheck type send ⟨c,s,.ok,none⟩=false ∧ m=Fsm.termConn ⟨c,s,.ok,none⟩) := by
  simp only [streamFsm] at h
  split_ifs at h with hc
  · obtain ⟨m,hm,rfl⟩ := Option.map_eq_some_iff.1 h
    exact ⟨m,rfl,.inl ⟨hc,hm⟩⟩
  · cases h
    exact ⟨_,rfl,.inr ⟨by simpa using hc,rfl⟩⟩

variable (f : Fsm)
@[simp] lemma res_fsmFinish : (fsmFinish type f).res=f.res := by
  unfold fsmFinish
  split_ifs <;> rfl

@[simp] lemma stream_fsmFinish : (fsmFinish type f).stream=f.stream := by
  unfold fsmFinish
  split_ifs <;> rfl

@[simp] lemma streams_fsmFinish : (fsmFinish type f).ctx.streams=f.ctx.streams := by
  unfold fsmFinish
  split_ifs <;> rfl

lemma curHeaders_fsmFinish (dir : Bool) : (fsmFinish type f).ctx.curHeaders dir =
      if (type=.rstStream ∨ f.res=.termStream) ∧ f.ctx.curHeaders dir=some f.stream.id then none
      else f.ctx.curHeaders dir := by
  unfold fsmFinish
  by_cases hr : type=.rstStream ∨ f.res=.termStream
  · rw [if_pos hr]
    simp only [H2Ctx.curHeaders_resetStreamOnClose,hr,true_and]
  · rw [if_neg hr]
    simp only [hr,false_and,if_false]

/-- What a call of the FSM does, if it does not leave a block open that has ended. -/
structure Effect (c : H2Ctx) (s : TfwStream) (type : TfwFrameType) (flags : UInt8) (send : Bool)
    (g : Fsm) : Prop where
  id : g.stream.id=s.id
  streams : g.ctx.streams=c.streams
  cur : g.ctx.curHeaders send = if g.res=.ok ∧ type.isHeaders then
      if hasFlag flags fEndHeaders then none else some s.id
    else if (type=.rstStream ∨ g.res=.termStream) ∧ c.curHeaders send=some s.id then none
    else c.curHeaders send
  other : g.ctx.curHeaders (!send) = if (type=.rstStream ∨ g.res=.termStream) ∧ c.curHeaders (!send)=some s.id then none
    else c.curHeaders (!send)
  place : ∀dir,(c.curHeaders dir=some s.id → mayOpen dir s.state) →
    g.ctx.curHeaders dir=some s.id → mayOpen dir g.stream.state

lemma Effect.curHeaders_of_ne (h : Effect c s type flags send g) {dir : Bool} {id : Nat}
    (hne : id≠s.id) (hc : g.ctx.curHeaders dir=some id) : c.curHeaders dir=some id := by
  by_cases hd : dir=send
  · subst hd
    rw [h.cur] at hc
    split_ifs at hc
    · cases hc
      exact absurd rfl hne
    · exact hc
  · have hd' : dir = !send := by cases dir <;> cases send <;> simp_all
    subst hd'
    rw [h.other] at hc
    split_ifs at hc
    exact hc

lemma effect_streamFsm (hre : reopens s type flags=false)
    (h : streamFsm c s type flags send=some g) : Effect c s type flags send g := by
  obtain ⟨m,rfl,hm⟩ := streamFsm_eq_some h
  have hmo : Moves type flags send ⟨c,s,.ok,none⟩ m := by
    obtain ⟨hch,hs⟩ | ⟨-,rfl⟩ := hm
    · exact moves_fsmSwitch rfl hch hre hs
    · exact moves_termConn
  have hid : m.stream.id=s.id := hmo.id
  refine ⟨?_,?_,?_,?_,?_⟩
  · rw [stream_fsmFinish,hid]
  · rw [streams_fsmFinish,hmo.streams]
  · rw [curHeaders_fsmFinish,res_fsmFinish,hmo.cur,hid]
    by_cases hh : m.res=.ok ∧ type.isHeaders
    · have hn : ¬(type=.rstStream ∨ m.res=.termStream) := by
        rintro (rfl | ht)
        · simp [TfwFrameType.isHeaders] at hh
        · simp [hh.1] at ht
      simp only [if_pos hh,hn,false_and,if_false]
    · simp only [if_neg hh]
  · rw [curHeaders_fsmFinish,res_fsmFinish,hmo.other,hid]
  · intro dir hma hc
    rw [curHeaders_fsmFinish,hid] at hc
    rw [stream_fsmFinish]
    by_cases hr : type=.rstStream ∨ m.res=.termStream
    · exfalso
      simp only [hr,true_and] at hc
      split_ifs at hc with heq
      exact heq hc
    · simp only [hr,false_and,if_false] at hc
      obtain ⟨hrst,ht⟩ := not_or.1 hr
      by_cases hd : dir=send
      · subst hd
        exact hmo.place hrst ht hc hma
      · have hd' : dir = !send := by cases dir <;> cases send <;> simp_all
        subst hd'
        rw [hmo.other] at hc
        exact hmo.placeOther hrst ht (hma hc)

end

/-- What a call of the FSM may change at all. -/
structure FsmFrame (f g : Fsm) : Prop where
  ctx : g.ctx={f.ctx with
    curSendHeaders:=g.ctx.curSendHeaders, curRecvHeaders:=g.ctx.curRecvHeaders}
  stream : g.stream={f.stream with
    state:=g.stream.state, eosSent:=g.stream.eosSent, eosReceived:=g.stream.eosReceived}

section
variable {f g : Fsm} {type : TfwFrameType} {flags : UInt8} {send : Bool}
lemma frame_fsmIdle (h : fsmIdle type flags send f=some g) : FsmFrame f g := by
  unfold fsmIdle at h
  cases send <;> split_ifs at h <;> try split at h
  all_goals
    cases h
    exact ⟨rfl,rfl⟩

lemma frame_fsmOpened : FsmFrame f (fsmOpened type flags send f) := by
  simp only [fsmOpened]
  cases send <;> split_ifs <;> exact ⟨rfl,rfl⟩

lemma frame_fsmHalfClosedHeaders : FsmFrame f (fsmHalfClosedHeaders flags send f) := by
  unfold fsmHalfClosedHeaders
  cases send <;> split <;> exact ⟨rfl,rfl⟩

lemma frame_fsmLocHalfClosed : FsmFrame f (fsmLocHalfClosed type flags send f) := by
  unfold fsmLocHalfClosed
  split_ifs <;> first | exact frame_fsmHalfClosedHeaders | exact ⟨rfl,rfl⟩

lemma frame_fsmRemHalfClosed : FsmFrame f (fsmRemHalfClosed type flags send f) := by
  unfold fsmRemHalfClosed
  split_ifs <;> first | exact frame_fsmHalfClosedHeaders | exact ⟨rfl,rfl⟩

lemma frame_fsmLocClosed : FsmFrame f (fsmLocClosed type send f) := by
  unfold fsmLocClosed
  split_ifs <;> exact ⟨rfl,rfl⟩

lemma frame_fsmClosed : FsmFrame f (fsmClosed type send f) := by
  unfold fsmClosed
  split_ifs <;> exact ⟨rfl,rfl⟩

lemma FsmFrame.finish (h : FsmFrame f g) (type : TfwFrameType) : FsmFrame f (fsmFinish type g) := by
  unfold fsmFinish
  split_ifs
  · refine ⟨?_,h.stream⟩
    rw [h.ctx]
    rfl
  · exact h

lemma frame_fsmSwitch (h : fsmSwitch type flags send f=some g) : FsmFrame f g := by
  unfold fsmSwitch at h
  split at h
  · exact frame_fsmIdle h
  · cases h
  · cases h
  · cases h
    exact frame_fsmOpened
  · cases h
    exact frame_fsmLocHalfClosed
  · cases h
    exact frame_fsmRemHalfClosed
  · cases h
    exact frame_fsmLocClosed
  · cases h
    exact frame_fsmClosed

lemma frame_streamFsm {c : H2Ctx} {s : TfwStream} (h : streamFsm c s type flags send=some g) :
    FsmFrame ⟨c,s,.ok,none⟩ g := by
  obtain ⟨m,rfl,⟨-,hs⟩ | ⟨-,rfl⟩⟩ := streamFsm_eq_some h
  · exact (frame_fsmSwitch hs).finish type
  · exact FsmFrame.finish (g := Fsm.termConn _) ⟨rfl,rfl⟩ type

lemma state_fsmHalfClosedHeaders (hst : f.stream.state ≠ .idle) :
    (fsmHalfClosedHeaders flags send f).stream.state ≠ .idle := by
  unfold fsmHalfClosedHeaders
  split <;> simp [hst]

lemma state_fsmSwitch (h : fsmSwitch type flags send f=some g) (hst : f.stream.state ≠ .idle) :
    g.stream.state ≠ .idle ∧ (f.stream.state=.closed → g.stream.state=.closed) := by
  unfold fsmSwitch at h
  cases hs : f.stream.state <;> simp only [hs,Option.some.injEq,reduceCtorEq] at h
  case idle => exact absurd hs hst
  case opened =>
    subst h
    simp only [fsmOpened]
    cases send <;> split_ifs <;> simp_all [halfClosed]
  case locHalfClosed =>
    subst h
    have hh : (fsmHalfClosedHeaders flags false f).stream.state ≠ .idle := state_fsmHalfClosedHeaders hst
    simp only [fsmLocHalfClosed]
    split_ifs <;> simp_all
  case remHalfClosed =>
    subst h
    have hh : (fsmHalfClosedHeaders flags true f).stream.state ≠ .idle := state_fsmHalfClosedHeaders hst
    simp only [fsmRemHalfClosed]
    split_ifs <;> simp_all
  case locClosed =>
    subst h
    simp only [fsmLocClosed]
    split_ifs <;> simp_all
  case closed =>
    subst h
    simp only [fsmClosed]
    split_ifs <;> simp_all

lemma state_streamFsm {c : H2Ctx} {s : TfwStream} (h : streamFsm c s type flags send=some g) (hst : s.state ≠ .idle) :
    g.stream.state ≠ .idle ∧ (s.state=.closed → g.stream.state=.closed) := by
  obtain ⟨m,rfl,⟨-,hs⟩ | ⟨-,rfl⟩⟩ := streamFsm_eq_some h
  · rw [stream_fsmFinish]
    exact state_fsmSwitch hs hst
  · rw [stream_fsmFinish]
    exact ⟨hst,fun hc => hc⟩
end
end VetWaf.H2
