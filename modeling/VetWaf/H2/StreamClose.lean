import VetWaf.Lib.Run
import VetWaf.H2.StreamFsm

namespace VetWaf.H2
open TfwFrameType Run

structure StreamFrame where
  send : Bool
  type : TfwFrameType
  flags : UInt8
  deriving DecidableEq

def endStream (dir : Bool) (log : List StreamFrame) : Bool := log.any fun x =>
    x.send == dir && (x.type == .headers || x.type == .data) && hasFlag x.flags fEndStream

/-- The last HEADERS or CONTINUATION frame of the direction had no END_HEADERS. -/
def blockOpen (dir : Bool) : List StreamFrame → Bool
  | [] => false
  | x::log => if x.send=dir ∧ x.type.isHeaders then !hasFlag x.flags fEndHeaders else blockOpen dir log

structure StreamRun where
  ctx : H2Ctx
  stream : TfwStream
  log : List StreamFrame := []
  deriving DecidableEq

/-- A frame of the stream, with what is being received at that moment and the header blocks that
other streams have open. -/
structure FrameOp extends StreamFrame where
  recv : TfwH2Ctx
  curSend : Option Nat := none
  curRecv : Option Nat := none
  deriving DecidableEq

/-- The block of a direction, if other streams have `cur` open. -/
def blockOf (id : Nat) (own cur : Option Nat) : Option Nat :=
  if own=some id then own else if cur=some id then none else cur

def FrameOp.ctx (op : FrameOp) (c : H2Ctx) (id : Nat) : H2Ctx := {c with
    recv:=op.recv
    curSendHeaders:=blockOf id c.curSendHeaders op.curSend
    curRecvHeaders:=blockOf id c.curRecvHeaders op.curRecv}

def frameStep (x : StreamRun) (op : FrameOp) : Option StreamRun :=
  if op.type.isHeaders || op.type == .data then
    (streamFsm (op.ctx x.ctx x.stream.id) x.stream op.type op.flags op.send).bind fun f =>
      if f.res=.ok then
        some {ctx:=f.ctx, stream:=f.stream, log:=op.toStreamFrame::x.log}
      else none
  else none

/-- The CONTINUATION frame that ends a block with END_STREAM, after the other direction has ended. -/
def forgetsEnd (x : StreamRun) (op : FrameOp) : Bool :=
  op.type == .continuation && hasFlag op.flags fEndHeaders && !hasFlag op.flags fEndStream &&
    x.stream.state == halfClosed (!op.send) && eos x.stream op.send

lemma fsmSwitch_of_accepted {c : H2Ctx} {s : TfwStream} {type : TfwFrameType} {flags : UInt8}
    {send : Bool} {f : Fsm} (hty : type ≠ .rstStream) (h : streamFsm c s type flags send=some f) (hok : f.res=.ok) :
    fsmCheck type send ⟨c,s,.ok,none⟩=true ∧ fsmSwitch type flags send ⟨c,s,.ok,none⟩=some f := by
  obtain ⟨m,rfl,⟨hc,hs⟩ | ⟨-,rfl⟩⟩ := streamFsm_eq_some h
  · refine ⟨hc,?_⟩
    rw [res_fsmFinish] at hok
    have hf : fsmFinish type m=m := by
      unfold fsmFinish
      rw [if_neg]
      rintro (hr | ht)
      · exact hty hr
      · rw [hok] at ht
        cases ht
    rw [hf,hs]
  · simp at hok

lemma curHeaders_frameOp (op : FrameOp) (c : H2Ctx) (id : Nat) (dir : Bool) :
    (op.ctx c id).curHeaders dir=some id ↔ c.curHeaders dir=some id := by
  have hb : ∀own cur : Option Nat,blockOf id own cur=some id ↔ own=some id := by
    intro own cur
    unfold blockOf
    split_ifs with h1 h2
    · simp [h1]
    · simp [h1]
    · simp [h1,h2]
  cases dir with
  | true => exact hb _ _
  | false => exact hb _ _

def afterEnd (send : Bool) : TfwStreamState → TfwStreamState
  | .idle | .opened => halfClosed send
  | _ => .closed

def endsDirection (s : TfwStream) (type : TfwFrameType) (flags : UInt8) (send : Bool) : Bool :=
  match type with
  | .data => hasFlag flags fEndStream
  | .headers => hasFlag flags fEndHeaders && hasFlag flags fEndStream
  | .continuation =>
    hasFlag flags fEndHeaders &&
      if s.state=.opened then eos s send else hasFlag flags fEndStream
  | _ => false

/-- What an accepted HEADERS, CONTINUATION or DATA frame does. -/
structure Accepted (c : H2Ctx) (s : TfwStream) (type : TfwFrameType) (flags : UInt8) (send : Bool)
    (f : Fsm) : Prop where
  id : f.stream.id=s.id
  start : s.state=.idle ∧ send=false ∧ type=.headers ∨ s.state=.opened ∨ s.state=halfClosed (!send)
  state : f.stream.state = if endsDirection s type flags send then afterEnd send s.state
    else if s.state=.idle then .opened
    else s.state
  eosOther : eos f.stream (!send)=eos s (!send)
  eosKept : eos s send=true → eos f.stream send=true
  eosSet : type=.headers → hasFlag flags fEndHeaders=false → hasFlag flags fEndStream=true → eos f.stream send=true
  curOther : f.ctx.curHeaders (!send)=c.curHeaders (!send)
  curSet : type.isHeaders=true → hasFlag flags fEndHeaders=false → f.ctx.curHeaders send=some s.id
  curKept : type.isHeaders=false → f.ctx.curHeaders send=c.curHeaders send

@[simp] lemma eos_setState (s : TfwStream) (state : TfwStreamState) (send : Bool) :
    eos {s with state:=state} send=eos s send := rfl

section
variable {c : H2Ctx} {s : TfwStream} {type : TfwFrameType} {flags : UInt8} {send : Bool} {f : Fsm}
lemma accepted_fsmOpened (hst : s.state=.opened) (ht : type.isHeaders=true ∨ type=.data)
    (hf : fsmOpened type flags send ⟨c,s,.ok,none⟩=f) (hok : f.res=.ok) : Accepted c s type flags send f := by
  subst hf
  cases type <;> simp [isHeaders] at ht
  all_goals
    simp only [fsmOpened,reduceCtorEq,if_false,if_true] at hok ⊢
    split_ifs at hok ⊢
  all_goals
    cases send <;> constructor <;> simp_all [endsDirection,afterEnd,isHeaders,Fsm.setEos,eos]

lemma accepted_fsmHalfClosedHeaders (hst : s.state=halfClosed (!send)) (ht : type.isHeaders=true)
    (hf : fsmHalfClosedHeaders flags send ⟨c,s,.ok,none⟩=f) : Accepted c s type flags send f := by
  have hne : s.state ≠ .opened ∧ s.state ≠ .idle := by
    rw [hst]
    cases send <;> simp [halfClosed]
  subst hf
  unfold fsmHalfClosedHeaders
  cases type <;> simp [isHeaders] at ht
  all_goals
    cases send <;> split <;> constructor <;> simp_all [endsDirection,afterEnd,halfClosed,isHeaders,Fsm.setEos,eos]

lemma accepted_fsmIdle (hst : s.state=.idle) (ht : type.isHeaders=true ∨ type=.data)
    (hf : fsmIdle type flags send ⟨c,s,.ok,none⟩=some f) (hok : f.res=.ok)
    (hch : fsmCheck type send ⟨c,s,.ok,none⟩=true) : Accepted c s type flags send f := by
  have hc := curHeaders_of_fsmCheck hch
  unfold fsmIdle at hf
  cases send <;> cases type <;> simp [isHeaders] at ht hf
  case false.headers =>
    split at hf <;> cases hf <;> constructor <;> simp_all [endsDirection,afterEnd,halfClosed,isHeaders,Fsm.setEos,eos]
  all_goals
    subst hf
    simp at hok

lemma accepted_halfClosedData (hst : s.state=halfClosed (!send))
    (hf : (if hasFlag flags fEndStream then Fsm.setState ⟨c,s,.ok,none⟩ .closed
      else ⟨c,s,.ok,none⟩)=f) : Accepted c s .data flags send f := by
  have hne : s.state ≠ .opened ∧ s.state ≠ .idle := by
    rw [hst]
    cases send <;> simp [halfClosed]
  subst hf
  split_ifs <;> cases send <;> constructor <;> simp_all [endsDirection,afterEnd,halfClosed,isHeaders]

lemma accepted_of_fsmSwitch (ht : type.isHeaders=true ∨ type=.data) (hc : fsmCheck type send ⟨c,s,.ok,none⟩=true)
    (hf : fsmSwitch type flags send ⟨c,s,.ok,none⟩=some f) (hok : f.res=.ok) : Accepted c s type flags send f := by
  unfold fsmSwitch at hf
  cases hst : s.state with
  | idle => exact accepted_fsmIdle hst ht (by simpa [hst] using hf) hok hc
  | locReserved | remReserved => simp [hst] at hf
  | opened => exact accepted_fsmOpened hst ht (by simpa [hst] using hf) hok
  | locHalfClosed =>
    simp only [hst,Option.some.injEq] at hf
    cases send with
    | true =>
      subst hf
      cases type <;> simp [isHeaders,fsmLocHalfClosed] at ht hok
    | false =>
      cases type <;> simp [isHeaders] at ht
      case data => exact accepted_halfClosedData hst (by simpa [fsmLocHalfClosed] using hf)
      all_goals
        exact accepted_fsmHalfClosedHeaders hst rfl (by simpa [fsmLocHalfClosed] using hf)
  | remHalfClosed =>
    simp only [hst,Option.some.injEq] at hf
    cases send with
    | false =>
      subst hf
      cases type <;> simp [isHeaders,fsmRemHalfClosed] at ht hok
    | true =>
      cases type <;> simp [isHeaders] at ht
      case data => exact accepted_halfClosedData hst (by simpa [fsmRemHalfClosed] using hf)
      all_goals
        exact accepted_fsmHalfClosedHeaders hst rfl (by simpa [fsmRemHalfClosed] using hf)
  | locClosed =>
    simp only [hst,Option.some.injEq] at hf
    subst hf
    cases send <;> cases type <;> simp [isHeaders,fsmLocClosed] at ht hok
  | closed =>
    simp only [hst,Option.some.injEq] at hf
    subst hf
    cases send <;> cases type <;> simp [isHeaders,fsmClosed] at ht hok

end

/-- If END_STREAM was seen in a direction that has not ended, it was on a header block that is still
open. -/
structure CloseInv (x : StreamRun) : Prop where
  idle : x.stream.state=.idle → x.log=[]
  pending : ∀dir,mayOpen dir x.stream.state → endStream dir x.log=true →
    eos x.stream dir=true ∧ blockOpen dir x.log=true
  place : x.stream.state=.idle ∨ x.stream.state=.closed ∨ ∃dir,mayOpen dir x.stream.state
  cur : x.stream.state ≠ .closed → ∀dir,blockOpen dir x.log=true → x.ctx.curHeaders dir=some x.stream.id

variable (x : StreamFrame)
section
variable (log : List StreamFrame)
include log
lemma endStream_cons_not : endStream (!x.send) (x::log)=endStream (!x.send) log := by
  cases h : x.send <;> simp [endStream,h]

lemma blockOpen_cons_not : blockOpen (!x.send) (x::log)=blockOpen (!x.send) log := by
  cases h : x.send <;> simp [blockOpen,h]

lemma blockOpen_cons_self : blockOpen x.send (x::log) =
      if x.type.isHeaders then !hasFlag x.flags fEndHeaders else blockOpen x.send log := by
  simp [blockOpen]

lemma endStream_cons_self : endStream x.send (x::log) =
      ((x.type == .headers || x.type == .data) && hasFlag x.flags fEndStream || endStream x.send log) := by
  simp [endStream]

end

lemma halfClosed_ne_not (send : Bool) : halfClosed send≠halfClosed (!send) := by cases send <;> simp [halfClosed]

section
variable {x : StreamRun} {op : FrameOp} {f : Fsm}
variable {c : H2Ctx} {s : TfwStream} {type : TfwFrameType} {flags : UInt8} {send : Bool}
section
variable (ha : Accepted c s type flags send f)
include ha
lemma Accepted.mayOpen_self (hm : mayOpen send f.stream.state) :
    endsDirection s type flags send=false ∧ (s.state=.idle ∨ mayOpen send s.state) := by
  have hs := ha.state
  have hne := halfClosed_ne_not send
  rcases ha.start with ⟨hst,-,-⟩ | hst | hst <;> cases he : endsDirection s type flags send <;> cases send <;>
    simp_all [mayOpen,afterEnd,halfClosed]

lemma Accepted.mayOpen_other (hm : mayOpen (!send) f.stream.state) : s.state=.idle ∨ mayOpen (!send) s.state := by
  have hs := ha.state
  rcases ha.start with ⟨hst,-,-⟩ | hst | hst <;> cases he : endsDirection s type flags send <;> cases send <;>
    simp_all [mayOpen,afterEnd,halfClosed]

lemma Accepted.state_ne_idle : f.stream.state ≠ .idle := by
  rw [ha.state]
  split_ifs with he hi
  · cases hst : s.state <;> cases send <;> simp [afterEnd,halfClosed]
  · simp
  · exact hi

lemma Accepted.place : f.stream.state=.idle ∨ f.stream.state=.closed ∨ ∃dir,mayOpen dir f.stream.state := by
  have hs := ha.state
  rcases ha.start with ⟨hst,-,-⟩ | hst | hst <;> cases he : endsDirection s type flags send <;> cases send <;>
    simp_all [mayOpen,afterEnd,halfClosed]

end

lemma Accepted.pending_self (h : CloseInv x) (ht : op.type.isHeaders=true ∨ op.type=.data)
    (ha : Accepted (op.ctx x.ctx x.stream.id) x.stream op.type op.flags op.send f)
    (hch : fsmCheck op.type op.send ⟨op.ctx x.ctx x.stream.id,x.stream,.ok,none⟩=true) (ho : forgetsEnd x op=false)
    (hq : ∀dir,x.stream.state=.idle ∨ mayOpen dir x.stream.state →
      (op.ctx x.ctx x.stream.id).curHeaders dir=none → endStream dir x.log=false)
    (hm : mayOpen op.send f.stream.state) (he : endStream op.send (op.toStreamFrame::x.log)=true) :
    eos f.stream op.send=true ∧ blockOpen op.send (op.toStreamFrame::x.log)=true := by
  obtain ⟨hed,hm'⟩ := ha.mayOpen_self hm
  have hb := blockOpen_cons_self op.toStreamFrame x.log
  rw [endStream_cons_self] at he
  rw [hb]
  obtain ⟨hc,-⟩ | ⟨hc,hn⟩ := curHeaders_of_fsmCheck hch
  · have hc : op.type=.continuation := by
      obtain hc | hr := hc
      · exact hc
      · simp [hr,isHeaders] at ht
    have hold : endStream op.send x.log=true := by simpa [hc] using he
    obtain hi | hm' := hm'
    · rw [h.idle hi] at hold
      cases hold
    · obtain ⟨heo,-⟩ := h.pending _ hm' hold
      refine ⟨ha.eosKept heo,?_⟩
      obtain hst | hst := hm'
      · simpa [hc,isHeaders,endsDirection,hst,heo] using hed
      · have hne : x.stream.state ≠ .opened := by
          rw [hst]
          cases op.send <;> simp [halfClosed]
        simp_all [isHeaders,endsDirection,forgetsEnd]
  · have hold := hq op.send hm' hn
    simp only [hold,Bool.or_false,Bool.and_eq_true,Bool.or_eq_true,beq_iff_eq] at he
    obtain ⟨hh | hd,hf⟩ := he
    · have heh : hasFlag op.flags fEndHeaders=false := by simpa [endsDirection,hh,hf] using hed
      exact ⟨ha.eosSet hh heh hf,by simp [hh,isHeaders,heh]⟩
    · simp [endsDirection,hd,hf] at hed

lemma Accepted.closeInv (h : CloseInv x) (ht : op.type.isHeaders=true ∨ op.type=.data)
    (ha : Accepted (op.ctx x.ctx x.stream.id) x.stream op.type op.flags op.send f)
    (hch : fsmCheck op.type op.send ⟨op.ctx x.ctx x.stream.id,x.stream,.ok,none⟩=true)
    (hop : forgetsEnd x op=false) : CloseInv {ctx:=f.ctx, stream:=f.stream, log:=op.toStreamFrame::x.log} := by
  have hown := curHeaders_frameOp op x.ctx x.stream.id
  have hl : x.stream.state ≠ .closed := by
    rcases ha.start with ⟨hst,-,-⟩ | hst | hst <;> rw [hst]
    · simp
    · simp
    · cases op.send <;> simp [halfClosed]
  -- nothing is pending without an open block
  have hq : ∀dir,x.stream.state=.idle ∨ mayOpen dir x.stream.state →
      (op.ctx x.ctx x.stream.id).curHeaders dir=none → endStream dir x.log=false := by
    intro dir hm hn
    obtain hi | hm := hm
    · rw [h.idle hi]
      rfl
    · by_contra he
      obtain ⟨-,ho⟩ := h.pending dir hm (by simpa using he)
      have hc := (hown dir).2 (h.cur hl dir ho)
      rw [hn] at hc
      cases hc
  constructor
  · intro hi
    exact absurd hi ha.state_ne_idle
  · intro dir hm he
    by_cases hd : dir=op.send
    · subst hd
      exact ha.pending_self h ht hch hop hq hm he
    · have hd' : dir = !op.send := by cases dir <;> cases hs : op.send <;> simp_all
      subst hd'
      have he' : endStream (!op.send) x.log=true := by
        rw [← endStream_cons_not]
        exact he
      obtain hi | hm' := ha.mayOpen_other hm
      · rw [h.idle hi] at he'
        cases he'
      · obtain ⟨heo,ho⟩ := h.pending _ hm' he'
        refine ⟨ha.eosOther.trans heo,?_⟩
        exact (blockOpen_cons_not op.toStreamFrame x.log).trans ho
  · exact ha.place
  · intro hne dir ho
    change f.ctx.curHeaders dir=some f.stream.id
    rw [ha.id]
    by_cases hd : dir=op.send
    · subst hd
      have ho' := (blockOpen_cons_self op.toStreamFrame x.log).symm.trans ho
      split_ifs at ho' with ht
      · exact ha.curSet ht (by simpa using ho')
      · rw [ha.curKept (by simpa using ht)]
        exact (hown _).2 (h.cur hl _ ho')
    · have hd' : dir = !op.send := by cases dir <;> cases hs : op.send <;> simp_all
      subst hd'
      have ho' := (blockOpen_cons_not op.toStreamFrame x.log).symm.trans ho
      rw [ha.curOther]
      exact (hown _).2 (h.cur hl _ ho')

end

lemma closeInv_step (x : StreamRun) (op : FrameOp) (x' : StreamRun) (h : CloseInv x)
    (ho : (!forgetsEnd x op)=true) (hst : frameStep x op=some x') : CloseInv x' := by
  unfold frameStep at hst
  split_ifs at hst with ht
  obtain ⟨f,hf,hr⟩ := Option.bind_eq_some_iff.1 hst
  split_ifs at hr with hok
  cases hr
  have ht' : op.type.isHeaders=true ∨ op.type=.data := by simpa using ht
  have hrs : op.type ≠ .rstStream := by
    intro hrs
    simp [hrs,isHeaders] at ht'
  obtain ⟨hc,hs⟩ := fsmSwitch_of_accepted hrs hf hok
  have ha := accepted_of_fsmSwitch ht' hc hs hok
  exact ha.closeInv h ht' hc (by simpa using ho)

/-- As long as no block with END_STREAM ends with a CONTINUATION frame after the end of the other direction, a
stream with END_STREAM sent and received is closed once it has no open header block. -/
theorem stream_closed_after_both_ends {x x' : StreamRun} {ops : List FrameOp}
    (hx : x.stream.state=.idle) (hlog : x.log=[]) (hops : along frameStep (fun x op => !forgetsEnd x op) x ops=true)
    (hrun : run frameStep x ops=some x') (hsent : endStream true x'.log=true)
    (hrecv : endStream false x'.log=true) (hopen : ∀dir,blockOpen dir x'.log=false) : x'.stream.state=.closed := by
  have hinit : CloseInv x := by
    constructor
    · intro _
      exact hlog
    · intro dir hm
      rw [hx] at hm
      cases dir <;> simp [mayOpen,halfClosed] at hm
    · exact .inl hx
    · intro _ dir hb
      rw [hlog] at hb
      cases hb
  have hi := run_invariant_along frameStep closeInv_step hinit hops hrun
  obtain hil | hc | ⟨dir,hm⟩ := hi.place
  · rw [hi.idle hil] at hsent
    cases hsent
  · exact hc
  · have he : endStream dir x'.log=true := by
      cases dir with
      | true => exact hsent
      | false => exact hrecv
    have hb := (hi.pending dir hm he).2
    rw [hopen dir] at hb
    cases hb

/-- A request in two frames and a response with headers and data. -/
theorem stream_closed_after_both_ends_response : let recv : TfwH2Ctx := {maxFrameSz:=16384, plen:=5}
    let x : StreamRun := {ctx:={recv:=recv}, stream:={id:=1}}
    let ops : List FrameOp :=
      [{send:=false, type:=.headers, flags:=fEndStream, recv:=recv},
        {send:=false, type:=.continuation, flags:=fEndHeaders, recv:=recv},
        {send:=true, type:=.headers, flags:=fEndHeaders, recv:=recv},
        {send:=true, type:=.data, flags:=fEndStream, recv:=recv}]
    (∃x',run frameStep x ops=some x' ∧ x'.stream.state=.closed) := by
  intro recv x ops
  have hl : (run frameStep x ops).map (fun x' => (endStream true x'.log,
      endStream false x'.log,blockOpen true x'.log,blockOpen false x'.log)) =
      some (true,true,false,false) := by decide +kernel
  obtain ⟨x',hx',heq⟩ := Option.map_eq_some_iff.1 hl
  simp only [Prod.mk.injEq] at heq
  obtain ⟨hs,hr,ho,ho'⟩ := heq
  exact ⟨x',hx',@stream_closed_after_both_ends x x' ops rfl rfl (by decide +kernel)
    hx' hs hr (Bool.forall_bool.2 ⟨ho',ho⟩)⟩

/-- The response is sent before the end of the request, whose trailers then come in two frames. -/
theorem stream_not_closed_after_trailers : let recv : TfwH2Ctx := {maxFrameSz:=16384, plen:=5}
    let x : StreamRun := {ctx:={recv:=recv}, stream:={id:=1}}
    let ops : List FrameOp :=
      [{send:=false, type:=.headers, flags:=fEndHeaders, recv:=recv},
        {send:=true, type:=.headers, flags:=fEndHeaders ||| fEndStream, recv:=recv},
        {send:=false, type:=.headers, flags:=fEndStream, recv:=recv},
        {send:=false, type:=.continuation, flags:=fEndHeaders, recv:=recv}]
    (run frameStep x ops).map (fun x' => (endStream true x'.log && endStream false x'.log,
        blockOpen true x'.log || blockOpen false x'.log,x'.stream.state))=some (true,false,.locHalfClosed) := by
  decide +kernel
end VetWaf.H2
