import VetWaf.H2.Frame

namespace VetWaf.H2
open List

inductive TfwStreamState where
  | idle
  | locReserved
  | remReserved
  | opened
  | locHalfClosed
  | remHalfClosed
  | locClosed
  | closed
  deriving DecidableEq

inductive TfwStreamXmitState where
  | encodeHeaders
  | releaseResponse
  | makeHeadersFrames
  | makeContinuationFrames
  | makeDataFrames
  | makeTrailerFrames
  | makeTrailerContinuationFrames
  | sendFrames
  | makeFramesFinish
  deriving DecidableEq

structure TfwHttpXmit where
  resp : Bool := false
  skbHead : Nat := 0
  postponed : Nat := 0
  hLen : Nat := 0
  frameLength : Nat := 0
  bLen : Nat := 0
  tLen : Nat := 0
  isBlocked : Bool := false
  state : TfwStreamXmitState := .encodeHeaders
  deriving DecidableEq

/-- The flags of the field `state` of the source are fields of their own. -/
structure TfwStream where
  id : Nat
  state : TfwStreamState := .idle
  eosSent : Bool := false
  eosReceived : Bool := false
  remWnd : Int := 0
  xmit : TfwHttpXmit := {}
  deriving DecidableEq

structure TfwStreamQueue where
  list : List Nat := []
  num : Nat := 0
  deriving DecidableEq

inductive TfwH2Err where
  | noError
  | proto
  | internal
  | flow
  | settingsTimeout
  | closed
  | size
  | refused
  | cancel
  | compression
  | connect
  | enhanceYourCalm
  | inadequateSecurity
  | http11Required
  deriving DecidableEq

def defWndSize : Nat := 2^16-1
def maxWndSize : Nat := 2^31-1
def frameDefLength : Nat := 16384

structure TfwSettings where
  wndSz : Nat := defWndSize
  maxFrameSz : Nat := frameDefLength
  deriving DecidableEq

/-- What the history of a connection keeps. -/
inductive H2Event where
  | created (id : Nat)
  | opened (id : Nat)
  | wndIncr (id incr : Nat)
  | data (id length : Nat) (connWnd streamWnd : Int) (sent : Bool)
  deriving DecidableEq

/-- The fields of `TfwH2Ctx` that the streams use. -/
structure H2Ctx where
  recv : TfwH2Ctx
  streams : List TfwStream := []
  idleStreams : TfwStreamQueue := {}
  closedStreams : TfwStreamQueue := {}
  curSendHeaders : Option Nat := none
  curRecvHeaders : Option Nat := none
  rsettings : TfwSettings := {}
  remWnd : Int := defWndSize
  blockedStreams : Int := 0
  error : Option Nat := none
  log : List H2Event := []
  deriving DecidableEq

namespace H2Ctx

def findStream (c : H2Ctx) (id : Nat) : Option TfwStream := c.streams.find? (·.id == id)
def setStream (c : H2Ctx) (s : TfwStream) : H2Ctx := {c with streams:=c.streams.map fun t => if t.id=s.id then s else t}

/-- `cur_send_headers` or `cur_recv_headers` -/
def curHeaders (c : H2Ctx) (send : Bool) : Option Nat := if send then c.curSendHeaders else c.curRecvHeaders

def setCurHeaders (c : H2Ctx) (send : Bool) (cur : Option Nat) : H2Ctx :=
  if send then {c with curSendHeaders:=cur} else {c with curRecvHeaders:=cur}

def resetStreamOnClose (c : H2Ctx) (id : Nat) : H2Ctx := {c with
    curSendHeaders:=if c.curSendHeaders=some id then none else c.curSendHeaders
    curRecvHeaders:=if c.curRecvHeaders=some id then none else c.curRecvHeaders}

/-- `tfw_h2_stream_create`: an id that is in use is refused. -/
def streamCreate (c : H2Ctx) (id : Nat) : Option H2Ctx :=
  if (c.findStream id).isSome then none
  else
    some {c with
        streams:=c.streams++[{id:=id, remWnd:=c.rsettings.wndSz}]
        log:=.created id::c.log}

def streamClean (c : H2Ctx) (id : Nat) : H2Ctx :=
  let c := c.resetStreamOnClose id
  {c with streams:=c.streams.filter (·.id != id)}

variable {c : H2Ctx} {id : Nat} {s : TfwStream}
lemma findStream_eq_some (h : c.findStream id=some s) : s∈c.streams ∧ s.id=id :=
  ⟨mem_of_find?_eq_some h,by simpa using find?_some h⟩

lemma findStream_isSome : (c.findStream id).isSome ↔ ∃s∈c.streams,s.id=id := by simp [findStream,find?_isSome]

lemma mem_setStream {t : TfwStream} (h : t∈(c.setStream s).streams) : t=s ∨ t∈c.streams ∧ t.id≠s.id := by
  obtain ⟨t',ht',rfl⟩ := mem_map.1 h
  split_ifs with hid
  · exact .inl rfl
  · exact .inr ⟨ht',hid⟩

lemma map_id_setStream (c : H2Ctx) (s : TfwStream) : (c.setStream s).streams.map (·.id)=c.streams.map (·.id) := by
  simp only [setStream,map_map]
  apply map_congr_left
  intro t _
  simp only [Function.comp_apply]
  split_ifs with hid
  · exact hid.symm
  · rfl

end H2Ctx

def hasFlag (flags flag : UInt8) : Bool := flags &&& flag != 0

/-- What `tfw_h2_stream_fsm` has changed and returns. -/
structure Fsm where
  ctx : H2Ctx
  stream : TfwStream
  res : TfwStreamFsmRes := .ok
  err : Option TfwH2Err := none
  deriving DecidableEq

namespace Fsm

def setState (f : Fsm) (state : TfwStreamState) : Fsm := {f with stream:={f.stream with state:=state}}

def setEos (f : Fsm) (send : Bool) : Fsm :=
  if send then {f with stream:={f.stream with eosSent:=true}}
  else {f with stream:={f.stream with eosReceived:=true}}

def openHeaders (f : Fsm) (send : Bool) : Fsm := {f with ctx:=f.ctx.setCurHeaders send (some f.stream.id)}
def closeHeaders (f : Fsm) (send : Bool) : Fsm := {f with ctx:=f.ctx.setCurHeaders send none}
def termConn (f : Fsm) : Fsm := {f with res:=.termConn, err:=some .proto}
def ignore (f : Fsm) : Fsm := {f with res:=.ignore}

section
variable (f : Fsm) (send : Bool) (state : TfwStreamState)
@[simp] lemma res_setState : (f.setState state).res=f.res := rfl
@[simp] lemma ctx_setState : (f.setState state).ctx=f.ctx := rfl
@[simp] lemma stream_setState : (f.setState state).stream={f.stream with state:=state} := rfl
@[simp] lemma res_setEos : (f.setEos send).res=f.res := by cases send <;> rfl
@[simp] lemma ctx_setEos : (f.setEos send).ctx=f.ctx := by cases send <;> rfl
@[simp] lemma id_setEos : (f.setEos send).stream.id=f.stream.id := by cases send <;> rfl
@[simp] lemma state_setEos : (f.setEos send).stream.state=f.stream.state := by cases send <;> rfl
@[simp] lemma res_openHeaders : (f.openHeaders send).res=f.res := rfl
@[simp] lemma stream_openHeaders : (f.openHeaders send).stream=f.stream := rfl
@[simp] lemma ctx_openHeaders : (f.openHeaders send).ctx=f.ctx.setCurHeaders send (some f.stream.id) := rfl
@[simp] lemma res_closeHeaders : (f.closeHeaders send).res=f.res := rfl
@[simp] lemma stream_closeHeaders : (f.closeHeaders send).stream=f.stream := rfl
@[simp] lemma ctx_closeHeaders : (f.closeHeaders send).ctx=f.ctx.setCurHeaders send none := rfl
@[simp] lemma res_termConn : f.termConn.res=.termConn := rfl
@[simp] lemma stream_termConn : f.termConn.stream=f.stream := rfl
@[simp] lemma ctx_termConn : f.termConn.ctx=f.ctx := rfl
@[simp] lemma res_ignore : f.ignore.res=.ignore := rfl
@[simp] lemma stream_ignore : f.ignore.stream=f.stream := rfl
@[simp] lemma ctx_ignore : f.ignore.ctx=f.ctx := rfl

end
end Fsm

def eos (s : TfwStream) (send : Bool) : Bool := if send then s.eosSent else s.eosReceived
def halfClosed (send : Bool) : TfwStreamState := if send then .locHalfClosed else .remHalfClosed

section
variable (type : TfwFrameType) (flags : UInt8) (send : Bool) (f : Fsm)

/-- `none` is a failed `BUG_ON`. -/
def fsmIdle : Option Fsm :=
  if send then none
  else if type=.rstStream then some f.termConn
  else if type=.headers then
    match hasFlag flags fEndHeaders, hasFlag flags fEndStream with
    | true, true => some (f.setState .remHalfClosed)
    | true, false => some (f.setState .opened)
    | false, true => some (((f.openHeaders false).setEos false).setState .opened)
    | false, false => some ((f.setState .opened).openHeaders false)
  else if type ≠ .priority then some f.termConn
  else some f

def fsmOpened : Fsm :=
  if type=.rstStream then f.setState (if send then .locClosed else .closed)
  else if type=.continuation then
    -- an empty frame that does not end the block; for `send`, too, this reads the frame received
    if (f.ctx.curHeaders send).isSome ∧ ¬hasFlag flags fEndHeaders ∧ f.ctx.recv.plen=0 then
      f.termConn
    else if hasFlag flags fEndHeaders then
      let f := f.closeHeaders send
      if eos f.stream send then f.setState (halfClosed send) else f
    else f.openHeaders send
  else if type=.headers then
    if hasFlag flags fEndHeaders ∧ hasFlag flags fEndStream then
      let f := f.closeHeaders send
      let f := if send then f else f.setEos false
      f.setState (halfClosed send)
    else if hasFlag flags fEndStream then (f.openHeaders send).setEos send
    else f.openHeaders send
  else if type=.data then
    if f.ctx.recv.plen=0 ∧ ¬f.ctx.recv.hdr.has fEndStream then f.termConn
    else if hasFlag flags fEndStream then f.setState (halfClosed send)
    else f
  else f

/-- HEADERS, CONTINUATION and DATA in the direction that a half-closed stream still has. -/
def fsmHalfClosedHeaders : Fsm :=
  match hasFlag flags fEndHeaders, hasFlag flags fEndStream with
  | true, true => (f.closeHeaders send).setState .closed
  | true, false => f.closeHeaders send
  | false, true => (f.openHeaders send).setEos send
  | false, false => f.openHeaders send

def fsmLocHalfClosed : Fsm :=
  if !send then
    if type=.rstStream then f.setState .closed
    else if type=.headers ∨ type=.continuation then fsmHalfClosedHeaders flags false f
    else if type=.data then
      if hasFlag flags fEndStream then f.setState .closed else f
    else f
  else if type=.rstStream then f.setState .locClosed
  else if type ≠ .priority ∧ type ≠ .windowUpdate then f.ignore
  else f

def fsmRemHalfClosed : Fsm :=
  if send then
    if type=.headers ∨ type=.continuation then fsmHalfClosedHeaders flags true f
    else if type=.data then
      if hasFlag flags fEndStream then f.setState .closed else f
    else if type=.rstStream then f.setState .closed
    else f
  else if type=.rstStream then f.setState .closed
  else if type ≠ .priority ∧ type ≠ .windowUpdate then
    {f.setState .closed with res:=.termStream, err:=some .closed}
  else f

def fsmLocClosed : Fsm :=
  if send then f.ignore
  else if type=.rstStream then f.setState .closed
  else if type ≠ .windowUpdate then f.ignore
  else f

def fsmClosed : Fsm :=
  if send then f.ignore
  else if type ≠ .priority then f.termConn
  else f

/-- `TFW_H2_FSM_STREAM_CHECK` and `TFW_H2_FSM_TYPE_CHECK` -/
def fsmCheck : Bool :=
  match f.ctx.curHeaders send with
  | some cur => f.stream.id=cur ∧ (type=.continuation ∨ type=.rstStream)
  | none => type ≠ .continuation

def fsmSwitch : Option Fsm :=
  match f.stream.state with
  | .idle => fsmIdle type flags send f
  | .locReserved | .remReserved => none
  | .opened => some (fsmOpened type flags send f)
  | .locHalfClosed => some (fsmLocHalfClosed type flags send f)
  | .remHalfClosed => some (fsmRemHalfClosed type flags send f)
  | .locClosed => some (fsmLocClosed type send f)
  | .closed => some (fsmClosed type send f)

def fsmFinish : Fsm :=
  if type=.rstStream ∨ f.res=.termStream then
    {f with ctx:=f.ctx.resetStreamOnClose f.stream.id}
  else f

end

/-- `tfw_h2_stream_fsm` for a stream that exists -/
def streamFsm (c : H2Ctx) (s : TfwStream) (type : TfwFrameType) (flags : UInt8) (send : Bool) : Option Fsm :=
  let f : Fsm := {ctx:=c, stream:=s}
  if fsmCheck type send f then (fsmSwitch type flags send f).map (fsmFinish type)
  else some (fsmFinish type f.termConn)
end VetWaf.H2
