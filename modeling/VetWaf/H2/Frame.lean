import VetWaf.Base
import VetWaf.Lib.Word

namespace VetWaf.H2

inductive TfwFrameType where
  | data
  | headers
  | priority
  | rstStream
  | settings
  | pushPromise
  | ping
  | goaway
  | windowUpdate
  | continuation
  | undefined
  deriving DecidableEq

def TfwFrameType.ofByte (b : UInt8) : TfwFrameType :=
  match b.toNat with
  | 0 => .data
  | 1 => .headers
  | 2 => .priority
  | 3 => .rstStream
  | 4 => .settings
  | 5 => .pushPromise
  | 6 => .ping
  | 7 => .goaway
  | 8 => .windowUpdate
  | 9 => .continuation
  | _ => .undefined

def fAck : UInt8 := 0x01
def fEndStream : UInt8 := 0x01
def fEndHeaders : UInt8 := 0x04
def fPadded : UInt8 := 0x08
def fPriority : UInt8 := 0x20

structure TfwFrameHdr where
  length : Int := 0
  streamId : Nat := 0
  type : TfwFrameType := .data
  flags : UInt8 := 0
  deriving DecidableEq

def TfwFrameHdr.has (h : TfwFrameHdr) (flag : UInt8) : Bool := h.flags &&& flag != 0

structure TfwFramePri where
  streamId : Nat := 0
  weight : Nat := 0
  exclusive : Bool := false
  deriving DecidableEq

def frameHeaderSize : Nat := 9
def framePrioritySize : Nat := 5
def frameWndUpdateSize : Nat := 4
def frameRstStreamSize : Nat := 4
def framePingSize : Nat := 8
def frameGoawaySize : Nat := 8
def frameSettingsEntrySize : Nat := 6

def framePrefaceCliMagic : Bytes := [0x50,0x52,0x49,0x20,0x2a,0x20,0x48,0x54,0x54,0x50,0x2f,0x32,0x2e,0x30,0x0d,0x0a,
    0x0d,0x0a,0x53,0x4d,0x0d,0x0a,0x0d,0x0a]

def unpackFrameHeader (buf : Bytes) : TfwFrameHdr where
  length := (ntoh (buf.take 4) >>> 8 : Nat)
  type := .ofByte (buf.getD 3 0)
  flags := buf.getD 4 0
  streamId := ntoh ((buf.drop 5).take 4)%2^31

def unpackPriority (buf : Bytes) : TfwFramePri where
  streamId := ntoh (buf.take 4)%2^31
  exclusive := buf.getD 0 0 &&& 0x80 != 0
  weight := (buf.getD 4 0).toNat+1

inductive FrameState where
  | recvFrameHeader
  | recvCliStartSeq
  | recvFirstSettings
  | recvFramePriority
  | recvFrameWndUpdate
  | recvFramePing
  | recvFrameRstStream
  | recvFrameSettings
  | recvFrameGoaway
  | recvFramePadded
  | recvHeaderPri
  | ignoreFrameData
  | recvHeader
  | recvCont
  | recvData
  | recvAppDataPost
  deriving DecidableEq

/-- `APP_FRAME`: the states from `__HTTP2_RECV_FRAME_APP` on. -/
def FrameState.app : FrameState → Bool
  | .recvHeader | .recvCont | .recvData | .recvAppDataPost => true
  | _ => false

/-- Result codes that close the connection. -/
inductive Err where
  | bad
  | blockWithFin
  | blockWithRst
  | sys (errno : Nat)
  deriving DecidableEq

inductive Rc where
  | ok
  | postpone
  | drop
  deriving DecidableEq

inductive Stop where
  | code (err : Err)
  | bug
  | fuel
  deriving DecidableEq

def eperm : Stop := .code (.sys 1)
def eio : Stop := .code (.sys 5)
def enomem : Stop := .code (.sys 12)
def einval : Stop := .code (.sys 22)
def epipe : Stop := .code (.sys 32)

inductive TfwStreamFsmRes where
  | ok
  | termConn
  | termStream
  | ignore
  deriving DecidableEq

/-- What the stream table, the frame limits, the sending side, the allocator and the HTTP layer answer while one frame
is received. -/
structure Answers where
  ctrlFrameLimit : Bool := true
  found : Bool := true
  idle : Bool := false
  maxStreams : Bool := false
  created : Bool := true
  flowControl : Option Err := none
  curRecvHeaders : Bool := false
  streamFsm : TfwStreamFsmRes := .ok
  rstIgnored : Bool := false
  closed : Bool := false
  wndExceeded : Bool := false
  sendSettingsInit : Option Err := none
  sendSettingsAck : Option Err := none
  sendPing : Option Err := none
  sendRst : Option Err := none
  split : Nat → Bool := fun _ => true
  chop : Nat → Option Err := fun _ => none
  msgProcess : Nat → Except Err Rc := fun _ => .ok .ok

/-- The fields of `TfwH2Ctx` that the receiving FSM uses. -/
structure TfwH2Ctx where
  maxFrameSz : Nat
  lstreamId : Nat := 0
  curStream : Option Nat := none
  priority : TfwFramePri := {}
  hdr : TfwFrameHdr := {}
  plen : Nat := 0
  state : FrameState := .recvFrameHeader
  toRead : Nat := 0
  rlen : Nat := 0
  rbuf : Bytes := []
  padlen : Nat := 0
  dataOff : Nat := 0
  deriving DecidableEq

def check (r : Option Err) (c : TfwH2Ctx) : Except Stop TfwH2Ctx :=
  match r with
  | none => .ok c
  | some err => .error (.code err)

namespace TfwH2Ctx

def setToRead (c : TfwH2Ctx) : TfwH2Ctx := {c with toRead:=c.hdr.length.toNat, hdr:={c.hdr with length:=0}}

def setToReadVerify (c : TfwH2Ctx) (nextState : FrameState) : TfwH2Ctx :=
  if c.hdr.length≠0 then {c.setToRead with state:=nextState}
  else {c with state:=.ignoreFrameData}

def verifyFrameSize (c : TfwH2Ctx) : Except Stop TfwH2Ctx := if c.hdr.length<0 then .error einval else .ok c

/-- A part of the payload of `size` bytes is read next. -/
def recvPart (size : Nat) (st : FrameState) (c : TfwH2Ctx) : Except Stop TfwH2Ctx := do
  let c ← verifyFrameSize
    {c with
      toRead:=size
      hdr:={c.hdr with length:=c.hdr.length-size}
      plen:=Word.sub 32 c.plen size}
  return {c with state:=st}

def recvPriority : TfwH2Ctx → Except Stop TfwH2Ctx := recvPart framePrioritySize .recvHeaderPri
def recvPadded : TfwH2Ctx → Except Stop TfwH2Ctx := recvPart 1 .recvFramePadded

def currentStreamSendRst (e : Answers) (c : TfwH2Ctx) : Except Stop TfwH2Ctx :=
  if c.curStream.isNone then .error .bug else check e.sendRst {c with curStream:=none}

def streamRecvProcess (e : Answers) (c : TfwH2Ctx) (k : TfwH2Ctx → Except Stop TfwH2Ctx) : Except Stop TfwH2Ctx :=
  if c.curStream.isNone then .error .bug
  else
    match e.streamFsm with
    | .ok => k c
    | .termConn => .error (.code .bad)
    | .termStream => currentStreamSendRst e (c.setToReadVerify .ignoreFrameData)
    | .ignore => .ok (c.setToReadVerify .ignoreFrameData)

def checkCurrentStreamIsClosed (e : Answers) (c : TfwH2Ctx) : TfwH2Ctx :=
  if e.closed then {c with curStream:=none} else c

def currentStreamStateProcess (e : Answers) (c : TfwH2Ctx) : Except Stop TfwH2Ctx :=
  streamRecvProcess e c fun c => .ok (c.checkCurrentStreamIsClosed e)

def headersPriProcess (c : TfwH2Ctx) : Except Stop TfwH2Ctx :=
  if !c.hdr.has fPriority then .error .bug
  else
    .ok <| setToReadVerify {c with priority:=unpackPriority c.rbuf, dataOff:=c.dataOff+framePrioritySize}
      .recvHeader

def headersProcess (e : Answers) (c : TfwH2Ctx) : Except Stop TfwH2Ctx :=
  let c := {c with lstreamId:=c.hdr.streamId}
  if c.priority.streamId=c.hdr.streamId then
    let c := {c with state:=.ignoreFrameData}
    if c.curStream.isNone then check e.sendRst c else currentStreamSendRst e c
  else if c.curStream.isNone then
    if e.created then currentStreamStateProcess e {c with curStream:=some c.hdr.streamId}
    else .error enomem
  else
    currentStreamStateProcess e c

def wndUpdateProcess (e : Answers) (c : TfwH2Ctx) : Except Stop TfwH2Ctx :=
  if ntoh (c.rbuf.take 4)%2^31≠0 ∧ ¬e.wndExceeded then .ok c
  else if c.curStream.isNone then .error epipe
  else if e.rstIgnored then .error eperm
  else currentStreamSendRst e c

def priorityProcess (e : Answers) (c : TfwH2Ctx) : Except Stop TfwH2Ctx :=
  let c := {c with priority:=unpackPriority c.rbuf}
  if c.priority.streamId≠c.hdr.streamId then .ok c
  else if c.curStream.isNone then .error .bug
  else if e.idle then .error (.code .bad)
  else if e.rstIgnored then .error eperm
  else currentStreamSendRst e c

def rstStreamProcess (c : TfwH2Ctx) : Except Stop TfwH2Ctx :=
  if c.curStream.isNone then .error .bug else .ok {c with curStream:=none}

def checkSettingsEntry (id val : Nat) : Bool :=
  match id with
  | 2 => val≤1
  | 4 => val≤2^31-1
  | 5 => 16384≤val && val≤2^24-1
  | _ => true

def nextSettingsEntry (c : TfwH2Ctx) : TfwH2Ctx :=
  if c.hdr.length≠0 then
    {c with
      toRead:=frameSettingsEntrySize
      hdr:={c.hdr with length:=c.hdr.length-frameSettingsEntrySize}}
  else {c with toRead:=0}

def settingsProcess (c : TfwH2Ctx) : Except Stop TfwH2Ctx :=
  if checkSettingsEntry (ntoh (c.rbuf.take 2)) (ntoh ((c.rbuf.drop 2).take 4)) then
    .ok c.nextSettingsEntry
  else .error einval

def goawayProcess (c : TfwH2Ctx) : Except Stop TfwH2Ctx := .ok c.setToRead

def firstSettingsVerify (c : TfwH2Ctx) : Except Stop TfwH2Ctx :=
  if c.toRead≠0 then .error .bug
  else
    let c := {c with hdr:=unpackFrameHeader c.rbuf}
    if c.hdr.type ≠ .settings ∨ c.hdr.has fAck ∨ c.hdr.streamId≠0 ∨
        c.hdr.length%(frameSettingsEntrySize : Int)≠0 then .error einval
    else .ok c.nextSettingsEntry

def currentStreamIdVerify (c : TfwH2Ctx) : Bool :=
  c.curStream.isSome || (c.lstreamId<c.hdr.streamId && c.hdr.streamId%2 == 1)

def framePadProcess (c : TfwH2Ctx) : Except Stop TfwH2Ctx := do
  let padlen := (c.rbuf.getD 0 0).toNat
  let c ← verifyFrameSize
    {c with
      dataOff:=c.dataOff+1
      padlen:=padlen
      hdr:={c.hdr with length:=c.hdr.length-padlen}}
  if c.hdr.length=0 then
    return {c with state:=.ignoreFrameData, toRead:=0}
  else
    match c.hdr.type with
    | .data => return {c.setToRead with state:=.recvData}
    | .headers =>
      if c.hdr.has fPriority then recvPriority c
      else return {c.setToRead with state:=.recvHeader}
    | _ => .error .bug
end TfwH2Ctx
end VetWaf.H2
