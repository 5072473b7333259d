import VetWaf.H2.Frame

namespace VetWaf.H2
open TfwH2Ctx
namespace TfwH2Ctx

def findStream (e : Answers) (c : TfwH2Ctx) : TfwH2Ctx :=
  {c with curStream:=if e.found then some c.hdr.streamId else none}

def appPayload (c : TfwH2Ctx) : TfwH2Ctx := {c with dataOff:=frameHeaderSize, plen:=c.hdr.length.toNat}

/-- The whole payload is read next, in state `st`. -/
def recvAll (st : FrameState) (c : TfwH2Ctx) : TfwH2Ctx := {c.setToRead with state:=st}

/-- The tail of the stream-related cases. -/
def recvOnStream (e : Answers) (st : FrameState) (c : TfwH2Ctx) : Except Stop TfwH2Ctx :=
  streamRecvProcess e c fun c => .ok (c.recvAll st)

def dataTypeProcess (e : Answers) (c : TfwH2Ctx) : Except Stop TfwH2Ctx :=
  if c.hdr.streamId=0 ∨ c.hdr.streamId > c.lstreamId ∨ !e.found then .error einval
  else do
    let c ← check e.flowControl (c.findStream e)
    let c := c.appPayload
    if c.hdr.has fPadded then recvPadded c else return c.recvAll .recvData

def headersTypeProcess (e : Answers) (c : TfwH2Ctx) : Except Stop TfwH2Ctx :=
  let c := c.findStream e
  if c.hdr.streamId=0 ∨ !c.currentStreamIdVerify then .error einval
  else if c.curStream.isNone ∧ e.maxStreams then
    check e.sendRst (c.setToReadVerify .ignoreFrameData)
  else
    let c := c.appPayload
    if c.hdr.has fPadded then recvPadded c
    else if c.hdr.has fPriority then recvPriority c
    else .ok (c.recvAll .recvHeader)

def priorityTypeProcess (e : Answers) (c : TfwH2Ctx) : Except Stop TfwH2Ctx :=
  let c := c.findStream e
  if c.hdr.streamId=0 ∨ c.hdr.length≠framePrioritySize then .error einval
  else if c.curStream.isSome then recvOnStream e .recvFramePriority c
  else if c.hdr.streamId > c.lstreamId then
    if e.maxStreams then .error einval
    else if !e.created then .error enomem
    else recvOnStream e .recvFramePriority {c with curStream:=some c.hdr.streamId}
  else .ok (c.recvAll .ignoreFrameData)

def wndUpdateTypeProcess (e : Answers) (c : TfwH2Ctx) : Except Stop TfwH2Ctx :=
  if c.hdr.length≠frameWndUpdateSize ∨ c.hdr.streamId > c.lstreamId then .error einval
  else if c.hdr.streamId≠0 then
    let c := c.findStream e
    if c.curStream.isSome then recvOnStream e .recvFrameWndUpdate c
    else .ok (c.recvAll .ignoreFrameData)
  else .ok (c.recvAll .recvFrameWndUpdate)

def settingsTypeProcess (c : TfwH2Ctx) : Except Stop TfwH2Ctx :=
  if c.hdr.streamId≠0 ∨ c.hdr.length%(frameSettingsEntrySize : Int)≠0 ∨
      (c.hdr.has fAck ∧ c.hdr.length > 0) then .error einval
  else if c.hdr.length≠0 then .ok {c.nextSettingsEntry with state:=.recvFrameSettings}
  else .ok {c with toRead:=0}

def pingTypeProcess (c : TfwH2Ctx) : Except Stop TfwH2Ctx :=
  if c.hdr.streamId≠0 ∨ c.hdr.length≠framePingSize then .error einval
  else .ok (c.recvAll .recvFramePing)

def rstStreamTypeProcess (e : Answers) (c : TfwH2Ctx) : Except Stop TfwH2Ctx :=
  let c := c.findStream e
  if c.hdr.streamId=0 ∨ c.hdr.length≠frameRstStreamSize ∨ c.hdr.streamId > c.lstreamId then
    .error einval
  else if c.curStream.isSome then recvOnStream e .recvFrameRstStream c
  else .ok (c.recvAll .ignoreFrameData)

def goawayTypeProcess (c : TfwH2Ctx) : Except Stop TfwH2Ctx :=
  if c.hdr.streamId≠0 ∨ c.hdr.length<frameGoawaySize then .error einval
  else
    .ok {c with
      state:=.recvFrameGoaway
      toRead:=frameGoawaySize
      hdr:={c.hdr with length:=c.hdr.length-frameGoawaySize}}

def continuationTypeProcess (e : Answers) (c : TfwH2Ctx) : Except Stop TfwH2Ctx :=
  if c.hdr.streamId=0 ∨ c.hdr.streamId > c.lstreamId ∨ !e.found then .error einval
  else .ok ((c.findStream e).appPayload.recvAll .recvCont)

def unknownTypeProcess (e : Answers) (c : TfwH2Ctx) : Except Stop TfwH2Ctx :=
  if e.curRecvHeaders then .error einval else .ok (c.recvAll .ignoreFrameData)

def frameTypeProcess (e : Answers) (c : TfwH2Ctx) : Except Stop TfwH2Ctx :=
  if c.hdr.length > c.maxFrameSz then .error einval
  else if !e.ctrlFrameLimit then .error (.code .blockWithRst)
  else
    match c.hdr.type with
    | .data => dataTypeProcess e c
    | .headers => headersTypeProcess e c
    | .priority => priorityTypeProcess e c
    | .windowUpdate => wndUpdateTypeProcess e c
    | .settings => settingsTypeProcess c
    | .pushPromise => .error einval
    | .ping => pingTypeProcess c
    | .rstStream => rstStreamTypeProcess e c
    | .goaway => goawayTypeProcess c
    | .continuation => continuationTypeProcess e c
    | .undefined => unknownTypeProcess e c

end TfwH2Ctx

/-- The end of one visit to a state of the FSM. -/
inductive Visit where
  | stop (err : Stop)
  | done (r : Rc) (c : TfwH2Ctx) (p : Bytes)
  | go (st : FrameState) (c : TfwH2Ctx) (p : Bytes)
  deriving DecidableEq

namespace Visit

/-- `FRAME_FSM_EXIT` in a state whose saved constant is `st`. -/
def exit (st : FrameState) (r : Rc) (c : TfwH2Ctx) (p : Bytes) : Visit := .done r {c with rlen:=0, state:=st} p

/-- `FRAME_FSM_MOVE`. -/
def move (st : FrameState) (c : TfwH2Ctx) (p : Bytes) : Visit :=
  if p=[] then exit st .postpone c p else .go st {c with rlen:=0} p

def next (c : TfwH2Ctx) (p : Bytes) : Visit := move c.state c p

def after (r : Except Stop TfwH2Ctx) (k : TfwH2Ctx → Visit) : Visit :=
  match r with
  | .error err => .stop err
  | .ok c => k c

/-- `FRAME_FSM_READ_LAMBDA` in state `st`. -/
def read (st : FrameState) (n : Nat) (lambda : Bytes → TfwH2Ctx → Except Stop TfwH2Ctx)
    (c : TfwH2Ctx) (p : Bytes) (k : TfwH2Ctx → Bytes → Visit) : Visit :=
  let m := min (n-c.rlen) p.length
  after (lambda (p.take m) c) fun c =>
    let c := {c with rlen:=c.rlen+m}
    if c.rlen<n then .done .postpone {c with state:=st} (p.drop m) else k c (p.drop m)

/-- `FRAME_FSM_READ_SRVC`: the bytes are collected in `rbuf`. -/
def readSrvc (st : FrameState) (n : Nat) (c : TfwH2Ctx) (p : Bytes) (k : TfwH2Ctx → Bytes → Visit) : Visit :=
  if n > frameHeaderSize then .stop .bug
  else read st n (fun bs c => .ok {c with rbuf:=c.rbuf.take c.rlen++bs}) c p k

def readPyld (c : TfwH2Ctx) (p : Bytes) (k : TfwH2Ctx → Bytes → Visit) : Visit :=
  let m := min (c.toRead-c.rlen) p.length
  k {c with rlen:=c.rlen+m, toRead:=c.toRead-(c.rlen+m)} (p.drop m)

def recvCliStartSeq (e : Answers) (c : TfwH2Ctx) (p : Bytes) : Visit :=
  read .recvCliStartSeq framePrefaceCliMagic.length (fun bs c =>
      if bs=(framePrefaceCliMagic.drop c.rlen).take bs.length then .ok c else .error (.code .bad))
    c p fun c p => after (check e.sendSettingsInit c) fun c => move .recvFirstSettings c p

def recvFirstSettings (c : TfwH2Ctx) (p : Bytes) : Visit := readSrvc .recvFirstSettings frameHeaderSize c p fun c p =>
    after c.firstSettingsVerify fun c =>
      if c.toRead≠0 then move .recvFrameSettings c p else exit .recvFirstSettings .ok c p

def recvFrameHeader (e : Answers) (c : TfwH2Ctx) (p : Bytes) : Visit :=
  readSrvc .recvFrameHeader frameHeaderSize c p fun c p =>
    after (TfwH2Ctx.frameTypeProcess e {c with hdr:=unpackFrameHeader c.rbuf}) fun c =>
      if c.toRead≠0 then next c p
      else if c.state ≠ .ignoreFrameData ∧ (c.hdr.type=.headers ∨ c.hdr.type=.continuation ∨ c.hdr.type=.data) then
        -- these frames may have an empty payload
        .go c.state {c with rlen:=0} p
      else exit .recvFrameHeader .ok c p

/-- A state that collects a part of the payload and then enters the state `process` has set, if
there is anything to read in it. -/
def recvService (st : FrameState) (process : TfwH2Ctx → Except Stop TfwH2Ctx) (c : TfwH2Ctx) (p : Bytes) : Visit :=
  readSrvc st c.toRead c p fun c p => after (process c) fun c => if c.toRead≠0 then next c p else exit st .ok c p

def recvFramePadded : TfwH2Ctx → Bytes → Visit := recvService .recvFramePadded framePadProcess
def recvHeaderPri : TfwH2Ctx → Bytes → Visit := recvService .recvHeaderPri headersPriProcess

def recvControl (st : FrameState) (process : TfwH2Ctx → Except Stop TfwH2Ctx) (c : TfwH2Ctx) (p : Bytes) : Visit :=
  readSrvc st c.toRead c p fun c p => after (process c) fun c => exit st .ok c p

def recvFramePriority (e : Answers) : TfwH2Ctx → Bytes → Visit := recvControl .recvFramePriority (priorityProcess e)
def recvFrameWndUpdate (e : Answers) : TfwH2Ctx → Bytes → Visit := recvControl .recvFrameWndUpdate (wndUpdateProcess e)

def recvFramePing (e : Answers) : TfwH2Ctx → Bytes → Visit :=
  recvControl .recvFramePing fun c => if c.hdr.has fAck then .ok c else check e.sendPing c

def recvFrameRstStream : TfwH2Ctx → Bytes → Visit := recvControl .recvFrameRstStream rstStreamProcess

def recvFrameSettings (e : Answers) (c : TfwH2Ctx) (p : Bytes) : Visit :=
  readSrvc .recvFrameSettings c.toRead c p fun c p =>
    after c.settingsProcess fun c =>
      if c.toRead≠0 then move .recvFrameSettings c p
      else after (check e.sendSettingsAck c) fun c => exit .recvFrameSettings .ok c p

def recvFrameGoaway (c : TfwH2Ctx) (p : Bytes) : Visit := readSrvc .recvFrameGoaway c.toRead c p fun c p =>
    after c.goawayProcess fun c => if c.toRead≠0 then move .ignoreFrameData c p else exit .recvFrameGoaway .ok c p

/-- The first application data of a frame, in state `st`. -/
def recvApp (st : FrameState) (process : TfwH2Ctx → Except Stop TfwH2Ctx) (c : TfwH2Ctx) (p : Bytes) : Visit :=
  readPyld c p fun c p =>
    after (process c) fun c =>
      let ignored := c.state=.ignoreFrameData
      if c.toRead≠0 then
        if ignored then move .ignoreFrameData c p else move .recvAppDataPost c p
      else exit (if ignored then .ignoreFrameData else st) .ok c p

def recvData (e : Answers) : TfwH2Ctx → Bytes → Visit := recvApp .recvData (currentStreamStateProcess e)
def recvHeader (e : Answers) : TfwH2Ctx → Bytes → Visit := recvApp .recvHeader (headersProcess e)
def recvCont (e : Answers) : TfwH2Ctx → Bytes → Visit := recvApp .recvCont (currentStreamStateProcess e)

def recvAppDataPost (c : TfwH2Ctx) (p : Bytes) : Visit := readPyld c p fun c p =>
    exit .recvAppDataPost (if c.toRead≠0 then .postpone else .ok) c p

def ignoreFrameData (c : TfwH2Ctx) (p : Bytes) : Visit :=
  read .ignoreFrameData c.toRead (fun _ c => .ok c) c p fun c p => exit .ignoreFrameData .ok c p

end Visit

def visit (e : Answers) : FrameState → TfwH2Ctx → Bytes → Visit
  | .recvFrameHeader => Visit.recvFrameHeader e
  | .recvCliStartSeq => Visit.recvCliStartSeq e
  | .recvFirstSettings => Visit.recvFirstSettings
  | .recvFramePriority => Visit.recvFramePriority e
  | .recvFrameWndUpdate => Visit.recvFrameWndUpdate e
  | .recvFramePing => Visit.recvFramePing e
  | .recvFrameRstStream => Visit.recvFrameRstStream
  | .recvFrameSettings => Visit.recvFrameSettings e
  | .recvFrameGoaway => Visit.recvFrameGoaway
  | .recvFramePadded => Visit.recvFramePadded
  | .recvHeaderPri => Visit.recvHeaderPri
  | .ignoreFrameData => Visit.ignoreFrameData
  | .recvHeader => Visit.recvHeader e
  | .recvCont => Visit.recvCont e
  | .recvData => Visit.recvData e
  | .recvAppDataPost => Visit.recvAppDataPost

/-- The FSM from state `st` on, for at most `fuel` visits. -/
def fsm (e : Answers) : Nat → FrameState → TfwH2Ctx → Bytes → Except Stop (Rc×TfwH2Ctx×Bytes)
  | 0, _, _, _ => .error .fuel
  | fuel+1, st, c, p =>
    match visit e st c p with
    | .stop err => .error err
    | .done r c p => .ok (r,c,p)
    | .go st c p => fsm e fuel st c p

/-- Every visit that does not end the FSM reads a byte. -/
def frameRecv (e : Answers) (c : TfwH2Ctx) (buf : Bytes) : Except Stop (Rc×TfwH2Ctx×Bytes) :=
  fsm e (buf.length+1) c.state c buf
end VetWaf.H2
