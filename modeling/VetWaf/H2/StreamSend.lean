import VetWaf.H2.StreamFsm

namespace VetWaf.H2
open Option
namespace Fsm

def withRecv (r : TfwH2Ctx) (f : Fsm) : Fsm := {f with ctx:={f.ctx with recv:=r}}

variable (r : TfwH2Ctx) (f : Fsm) (send : Bool)
@[simp] lemma setState_withRecv (state : TfwStreamState) :
    (f.withRecv r).setState state=(f.setState state).withRecv r := rfl

@[simp] lemma setEos_withRecv : (f.withRecv r).setEos send=(f.setEos send).withRecv r := by
  cases send with
  | true => rfl
  | false => rfl

@[simp] lemma openHeaders_withRecv : (f.withRecv r).openHeaders send=(f.openHeaders send).withRecv r := by
  cases send with
  | true => rfl
  | false => rfl

@[simp] lemma closeHeaders_withRecv : (f.withRecv r).closeHeaders send=(f.closeHeaders send).withRecv r := by
  cases send with
  | true => rfl
  | false => rfl

@[simp] lemma termConn_withRecv : (f.withRecv r).termConn=f.termConn.withRecv r := rfl
@[simp] lemma ignore_withRecv : (f.withRecv r).ignore=f.ignore.withRecv r := rfl
@[simp] lemma stream_withRecv : (f.withRecv r).stream=f.stream := rfl

def outcome (f : Fsm) : TfwStreamFsmRes×Option TfwH2Err×TfwStream×Option Nat×Option Nat :=
  (f.res,f.err,f.stream,f.ctx.curSendHeaders,f.ctx.curRecvHeaders)

@[simp] lemma outcome_withRecv : (f.withRecv r).outcome=f.outcome := rfl

end Fsm

section
variable (r : TfwH2Ctx) (f : Fsm) (type : TfwFrameType) (flags : UInt8)
lemma fsmCheck_withRecv (send : Bool) : fsmCheck type send (f.withRecv r)=fsmCheck type send f := by
  cases send with
  | true => rfl
  | false => rfl

lemma fsmFinish_withRecv : fsmFinish type (f.withRecv r)=(fsmFinish type f).withRecv r := by
  unfold fsmFinish
  split_ifs with h1 h2 h2
  · rfl
  · exact absurd h1 h2
  · exact absurd h2 h1
  · rfl

section
variable (send : Bool)
include send
lemma fsmHalfClosedHeaders_withRecv : fsmHalfClosedHeaders flags send (f.withRecv r) =
      (fsmHalfClosedHeaders flags send f).withRecv r := by
  unfold fsmHalfClosedHeaders
  split <;> simp

lemma fsmLocHalfClosed_withRecv : fsmLocHalfClosed type flags send (f.withRecv r) =
      (fsmLocHalfClosed type flags send f).withRecv r := by
  unfold fsmLocHalfClosed
  split_ifs <;> simp [fsmHalfClosedHeaders_withRecv]

lemma fsmRemHalfClosed_withRecv : fsmRemHalfClosed type flags send (f.withRecv r) =
      (fsmRemHalfClosed type flags send f).withRecv r := by
  unfold fsmRemHalfClosed
  split_ifs <;> first | rfl | simp [fsmHalfClosedHeaders_withRecv]

lemma fsmLocClosed_withRecv : fsmLocClosed type send (f.withRecv r)=(fsmLocClosed type send f).withRecv r := by
  unfold fsmLocClosed
  split_ifs <;> simp

lemma fsmClosed_withRecv : fsmClosed type send (f.withRecv r)=(fsmClosed type send f).withRecv r := by
  unfold fsmClosed
  split_ifs <;> simp

lemma fsmIdle_withRecv : fsmIdle type flags send (f.withRecv r) = (fsmIdle type flags send f).map (Fsm.withRecv r) := by
  unfold fsmIdle
  split_ifs <;> first | rfl | (split <;> simp)

end

/-- The frames that an open stream refuses as empty. -/
def refusesEmpty (r : TfwH2Ctx) : Bool := r.plen == 0 && ((type == .continuation && !hasFlag flags fEndHeaders) ||
      (type == .data && !r.hdr.has fEndStream))

lemma fsmOpened_of_refusesEmpty {send : Bool} (hch : fsmCheck type send f=true)
    (h : refusesEmpty type flags f.ctx.recv=true) : fsmOpened type flags send f=f.termConn := by
  simp only [refusesEmpty,Bool.and_eq_true,Bool.or_eq_true,beq_iff_eq,Bool.not_eq_true'] at h
  obtain ⟨hp,⟨rfl,he⟩ | ⟨rfl,hes⟩⟩ := h
  · have hc : (f.ctx.curHeaders send).isSome := by
      cases hc : f.ctx.curHeaders send with
      | some cur => rfl
      | none => simp [fsmCheck,hc] at hch
    simp [fsmOpened,hc,he,hp]
  · simp [fsmOpened,hp,hes]

lemma fsmOpened_withRecv (send : Bool) (h : refusesEmpty type flags f.ctx.recv=false)
    (hr : refusesEmpty type flags r=false) :
    fsmOpened type flags send (f.withRecv r)=(fsmOpened type flags send f).withRecv r := by
  cases type with
  | continuation =>
    have hp : ¬hasFlag flags fEndHeaders → f.ctx.recv.plen≠0 ∧ r.plen≠0 := by
      intro he
      simp_all [refusesEmpty]
    by_cases he : hasFlag flags fEndHeaders
    · simp only [fsmOpened,he,not_true_eq_false,false_and,and_false,if_false,if_true,
        reduceCtorEq,Fsm.closeHeaders_withRecv,Fsm.stream_withRecv]
      split_ifs <;> simp
    · obtain ⟨h1,h2⟩ := hp he
      have h2' : (f.withRecv r).ctx.recv.plen≠0 := h2
      simp [fsmOpened,he,h1,h2']
  | data =>
    have hd : ¬(f.ctx.recv.plen=0 ∧ ¬f.ctx.recv.hdr.has fEndStream) := by simp_all [refusesEmpty]
    have hd' : ¬((f.withRecv r).ctx.recv.plen=0 ∧ ¬(f.withRecv r).ctx.recv.hdr.has fEndStream) := by
      change ¬(r.plen=0 ∧ ¬r.hdr.has fEndStream)
      simp_all [refusesEmpty]
    simp only [fsmOpened,reduceCtorEq,if_false,if_true,if_neg hd,if_neg hd']
    split_ifs <;> simp
  | headers =>
    simp only [fsmOpened,reduceCtorEq,if_false,if_true]
    split_ifs <;> simp
  | _ => simp [fsmOpened]

lemma res_fsmOpened (send : Bool) (h : refusesEmpty type flags f.ctx.recv=false) :
    (fsmOpened type flags send f).res=f.res := by
  cases type with
  | continuation =>
    have hp : ¬(hasFlag flags fEndHeaders=false ∧ f.ctx.recv.plen=0) := by
      intro he
      simp [refusesEmpty,he.1,he.2] at h
    simp only [fsmOpened,reduceCtorEq,if_false,if_true,Bool.not_eq_true]
    rw [if_neg fun he => hp he.2]
    split_ifs <;> simp
  | data =>
    have hd : ¬(f.ctx.recv.plen=0 ∧ ¬f.ctx.recv.hdr.has fEndStream) := by simp_all [refusesEmpty]
    simp only [fsmOpened,reduceCtorEq,if_false,if_true,if_neg hd]
    split_ifs <;> simp
  | headers =>
    simp only [fsmOpened,reduceCtorEq,if_false,if_true]
    split_ifs <;> simp
  | _ => simp [fsmOpened]

lemma fsmSwitch_withRecv (send : Bool) (h : f.stream.state=.opened →
      refusesEmpty type flags f.ctx.recv=false ∧ refusesEmpty type flags r=false) :
    fsmSwitch type flags send (f.withRecv r)=(fsmSwitch type flags send f).map (Fsm.withRecv r) := by
  unfold fsmSwitch
  rw [Fsm.stream_withRecv]
  cases hst : f.stream.state with
  | idle => exact fsmIdle_withRecv r f type flags send
  | locReserved | remReserved => rfl
  | opened =>
    obtain ⟨hf,hr⟩ := h hst
    exact congrArg some (fsmOpened_withRecv r f type flags send hf hr)
  | locHalfClosed => exact congrArg some (fsmLocHalfClosed_withRecv r f type flags send)
  | remHalfClosed => exact congrArg some (fsmRemHalfClosed_withRecv r f type flags send)
  | locClosed => exact congrArg some (fsmLocClosed_withRecv r f type send)
  | closed => exact congrArg some (fsmClosed_withRecv r f type send)

def switchOutcome (send : Bool) := (fsmSwitch type flags send f).map fun g => (fsmFinish type g).outcome

lemma switchOutcome_withRecv (send : Bool) (hc : fsmCheck type send f=true) (h : f.stream.state=.opened →
      refusesEmpty type flags r=refusesEmpty type flags f.ctx.recv) :
    switchOutcome (f.withRecv r) type flags send=switchOutcome f type flags send := by
  by_cases hb : f.stream.state=.opened ∧ refusesEmpty type flags f.ctx.recv=true
  · obtain ⟨hst,he⟩ := hb
    have hr : refusesEmpty type flags (f.withRecv r).ctx.recv=true := (h hst).trans he
    have hc' : fsmCheck type send (f.withRecv r)=true := by rwa [fsmCheck_withRecv]
    simp only [switchOutcome,fsmSwitch,Fsm.stream_withRecv,hst,map_some]
    rw [fsmOpened_of_refusesEmpty f type flags hc he,
      fsmOpened_of_refusesEmpty _ type flags hc' hr,Fsm.termConn_withRecv,fsmFinish_withRecv,Fsm.outcome_withRecv]
  · rw [switchOutcome,fsmSwitch_withRecv r f type flags send,map_map,switchOutcome]
    · congr 1
      funext g
      simp [fsmFinish_withRecv]
    · intro hst
      have he : refusesEmpty type flags f.ctx.recv=false := by simpa [hst] using hb
      exact ⟨he,(h hst).trans he⟩

lemma switchOutcome_opened {send : Bool} (hst : f.stream.state=.opened)
    (hr : f.res=.ok) (hc : fsmCheck type send f=true) : (switchOutcome f type flags send).map Prod.fst =
      some (if refusesEmpty type flags f.ctx.recv then .termConn else .ok) := by
  simp only [switchOutcome,fsmSwitch,hst,map_some,Fsm.outcome,res_fsmFinish]
  cases he : refusesEmpty type flags f.ctx.recv with
  | true =>
    rw [fsmOpened_of_refusesEmpty f type flags hc he]
    rfl
  | false =>
    rw [res_fsmOpened f type flags send he,hr]
    rfl

end

/-- Sending a frame depends on the frame being received exactly when one of the two frames being
received makes an open stream refuse the frame as empty and the other does not. -/
theorem streamFsm_send_independent_iff (c : H2Ctx) (r : TfwH2Ctx) (s : TfwStream)
    (type : TfwFrameType) (flags : UInt8) : (streamFsm {c with recv:=r} s type flags true).map Fsm.outcome =
        (streamFsm c s type flags true).map Fsm.outcome ↔
      ¬(s.state=.opened ∧ fsmCheck type true {ctx:=c, stream:=s}=true ∧
        refusesEmpty type flags r≠refusesEmpty type flags c.recv) := by
  set f : Fsm := {ctx:=c, stream:=s}
  by_cases hch : fsmCheck type true f=true
  · have hc' : fsmCheck type true (f.withRecv r)=true := by rwa [fsmCheck_withRecv]
    have hlf : (streamFsm {c with recv:=r} s type flags true).map Fsm.outcome =
        switchOutcome (f.withRecv r) type flags true := by
      change Option.map _ (if fsmCheck type true (f.withRecv r) then _ else _)=_
      rw [if_pos hc',map_map]
      rfl
    have hri : (streamFsm c s type flags true).map Fsm.outcome=switchOutcome f type flags true := by
      change Option.map _ (if fsmCheck type true f then _ else _)=_
      rw [if_pos hch,map_map]
      rfl
    rw [hlf,hri]
    constructor
    · intro heq hd
      obtain ⟨hst,-,hne⟩ := hd
      have hl := switchOutcome_opened (f.withRecv r) type flags hst rfl hc'
      rw [heq,switchOutcome_opened f type flags hst rfl hch] at hl
      change some (if refusesEmpty type flags c.recv then _ else _) =
        some (if refusesEmpty type flags r then _ else _) at hl
      cases hr : refusesEmpty type flags r <;> cases hc : refusesEmpty type flags c.recv <;> simp_all
    · intro h
      apply switchOutcome_withRecv r f type flags true hch
      intro hst
      by_contra hne
      exact h ⟨hst,hch,hne⟩
  · -- neither of the two gets past the checks
    have hc' : ¬fsmCheck type true (f.withRecv r)=true := by rwa [fsmCheck_withRecv]
    have heq : (streamFsm {c with recv:=r} s type flags true).map Fsm.outcome =
        (streamFsm c s type flags true).map Fsm.outcome := by
      change Option.map _ (if fsmCheck type true (f.withRecv r) then _ else _) =
        Option.map _ (if fsmCheck type true f then _ else _)
      rw [if_neg hch,if_neg hc']
      change some (fsmFinish type (f.termConn.withRecv r)).outcome=_
      rw [fsmFinish_withRecv,Fsm.outcome_withRecv]
      rfl
    simp [heq,hch]

/-- The last DATA frame of an open stream is accepted while a frame with a payload is being received
and is an error of the connection between two frames. -/
theorem streamFsm_send_data_depends_on_recv : let c : H2Ctx := {recv:={maxFrameSz:=16384, plen:=4}}
    let s : TfwStream := {id:=1, state:=.opened}
    ((streamFsm c s .data fEndStream true).map fun f => (f.res,f.stream.state))=some (.ok,.locHalfClosed) ∧
      ((streamFsm {c with recv:={maxFrameSz:=16384}} s .data fEndStream true).map fun f => (f.res,f.stream.state)) =
        some (.termConn,.opened) := by
  decide +kernel
end VetWaf.H2
