import VetWaf.H2.StreamRecv

namespace VetWaf.H2

def tlsMaxPayloadSize : Nat := 2^14

/-- What a call of `tfw_h2_stream_xmit_process` relies on. -/
structure XmitAnswers where
  exclusive : Bool := false
  prepareResp : Except Err (Nat×Nat×Nat) := .ok (0,0,0)
  writeSz : Except Err Nat := .ok 0
  getRoom : Nat → Option Err := fun _ => none
  entail : Nat → Except Err Nat := fun _ => .ok 0
  entailSplit : Nat → Option Err := fun _ => none
  sendPostponed : Nat → Except Err Nat := fun _ => .ok 0

/-- The variables of `tfw_h2_stream_xmit_process`. -/
structure Xmit where
  ctx : H2Ctx
  stream : TfwStream
  sndWnd : Nat
  stop : Bool := false
  isTrailerCont : Bool := false
  deriving DecidableEq

inductive XmitNext where
  | jmp (state : TfwStreamXmitState)
  | exit
  | ret (err : Err)
  deriving DecidableEq

/-- `(unsigned int)` of a window -/
def wndToU32 (window : Int) : Nat := (window%2^32).toNat

def calcMinToSend (tlsMaxOverhead : Nat) (c : H2Ctx) (mssNow : Nat) : Nat :=
  min (min 512 (if tlsMaxOverhead < mssNow then mssNow-tlsMaxOverhead else 1))
    (if 2≤c.rsettings.wndSz then c.rsettings.wndSz >>> 1 else 1)

def calcFrameLength (c : H2Ctx) (s : TfwStream) (type : TfwFrameType) (len maxLen : Nat) : Nat :=
  let length := min (min c.rsettings.maxFrameSz (len%2^32)) maxLen
  if type=.data then min (min length (wndToU32 c.remWnd)) (wndToU32 s.remWnd) else length

def calcFrameFlags (s : TfwStream) (type : TfwFrameType) (trailers : Bool) : UInt8 :=
  (if s.xmit.bLen=0 ∧ s.xmit.tLen=0 ∧ (type=.headers ∨ type=.data) ∧ !s.eosSent then
      fEndStream else 0) |||
    (if s.xmit.bLen=0 ∧ s.xmit.tLen≠0 ∧ type=.headers ∧ trailers then fEndStream else 0) |||
    (if s.xmit.hLen=0 ∧ type ≠ .data ∧ !trailers then fEndHeaders else 0) |||
    (if s.xmit.tLen=0 ∧ type ≠ .data ∧ trailers then fEndHeaders else 0)

namespace Xmit

def setXmit (x : Xmit) (xmit : TfwHttpXmit) : Xmit := {x with stream:={x.stream with xmit:=xmit}}

def purgeSendQueue (x : Xmit) : Xmit :=
  let m := x.stream.xmit
  x.setXmit {m with
      skbHead:=m.skbHead-(m.hLen+m.bLen+m.tLen+m.frameLength)
      hLen:=0
      bLen:=0
      tLen:=0
      frameLength:=0}

def charge (x : Xmit) (type : TfwFrameType) (length : Nat) : Xmit×Bool :=
  let m := x.stream.xmit
  if type=.data then
    ({x with
        ctx:={x.ctx with remWnd:=x.ctx.remWnd-length}
        stream :=
          {x.stream with
            remWnd:=x.stream.remWnd-length
            xmit:={m with bLen:=m.bLen-length}}},false)
  else if m.hLen≠0 then (x.setXmit {m with hLen:=m.hLen-length},false)
  else if m.tLen≠0 then (x.setXmit {m with tLen:=m.tLen-length},true)
  else (x,false)

def note (x : Xmit) (before : Xmit) (type : TfwFrameType) (length : Nat) (sent : Bool) : Xmit :=
  if type=.data then
    {x with
      ctx :=
        {x.ctx with
          log:=.data x.stream.id length before.ctx.remWnd before.stream.remWnd sent :: x.ctx.log}}
  else x

def insertFrameHeader (a : XmitAnswers) (n : Nat) (x : Xmit) (type : TfwFrameType) (length : Nat) :
    Except Stop (Option Err×Xmit) :=
  match (if type=.continuation ∨ type=.data then a.getRoom n else none) with
  | some err => .ok (some err,x)
  | none =>
    let y := (x.charge type length).1
    let flags := calcFrameFlags y.stream type (x.charge type length).2
    let m := y.stream.xmit
    let y := y.setXmit
      {m with
        frameLength:=m.frameLength+length+frameHeaderSize
        skbHead:=m.skbHead+frameHeaderSize}
    match streamFsm y.ctx y.stream type flags true with
    | none => .error .bug
    | some f =>
      let y := {y with ctx:=f.ctx, stream:=f.stream}
      match f.res with
      | .ok => .ok (none,y.note x type length true)
      | .ignore | .termStream =>
        -- the frames before this one are sent, this one is dropped
        let r := if x.stream.xmit.frameLength≠0 then a.entailSplit n else none
        .ok (r,(y.note x type length false).purgeSendQueue)
      | .termConn => .ok (some (.sys 32),y.note x type length false)

def adjustBlockedStreams (x : Xmit) (len : Nat) (type : TfwFrameType) : Except Stop (XmitNext×Xmit) :=
  if x.stream.xmit.isBlocked then .error .bug
  else
    let blocked : Bool := type=.data ∧ x.stream.remWnd≤len
    let y := x.setXmit {x.stream.xmit with isBlocked:=blocked}
    .ok (.exit,{y with
        ctx:={y.ctx with blockedStreams:=y.ctx.blockedStreams+(if blocked then 1 else 0)}
        stop:=true})

/-- `CALC_FRAME_LENGTH_AND_SET_FRAME_TYPE` and the making of the frame. -/
def makeFrame (a : XmitAnswers) (tlsMaxOverhead minToSend n : Nat) (x : Xmit) (type : TfwFrameType)
    (len : Nat) (sz : Except Err Nat) : Except Stop (XmitNext×Xmit) :=
  if x.sndWnd≤frameHeaderSize+tlsMaxOverhead then .ok (.exit,{x with stop:=true})
  else
    let maxLen := min tlsMaxPayloadSize (x.sndWnd-tlsMaxOverhead)-frameHeaderSize
    let minLen := min minToSend (len%2^32)
    let length := calcFrameLength x.ctx x.stream type len maxLen
    if length < minLen then x.adjustBlockedStreams minLen type
    else
      match sz with
      | .error err => .ok (.ret err,x)
      | .ok sz => do
        let m := x.stream.xmit
        let (r,x) ←
          (x.setXmit {m with hLen:=m.hLen+sz, skbHead:=m.skbHead+sz}).insertFrameHeader a n
            type length
        match r with
        | some err => .ok (.ret err,x)
        | none => .ok (.jmp .sendFrames,{x with sndWnd:=x.sndWnd-(length+frameHeaderSize)})

/-- `tfw_h2_entail_stream_skb`, with `len` bytes taken -/
def entail (x : Xmit) (len : Nat) : Xmit :=
  let m := x.stream.xmit
  x.setXmit {m with frameLength:=m.frameLength-len, skbHead:=m.skbHead-len}

/-- `tfw_h2_stream_send_postponed` for the postponed frames -/
def sendPostponed (a : XmitAnswers) (n : Nat) (x : Xmit) : Except Err Xmit :=
  match a.sendPostponed n with
  | .error err => .error err
  | .ok wnd => .ok {x.setXmit {x.stream.xmit with postponed:=0} with sndWnd:=x.sndWnd-wnd}

def sendFrames (a : XmitAnswers) (n : Nat) (x : Xmit) : XmitNext×Xmit :=
  match (if x.stream.xmit.frameLength≠0 then a.entail n else .ok 0) with
  | .error err => (.ret err,x)
  | .ok len =>
    -- only whole buffers are taken
    let x := x.entail (min len x.stream.xmit.frameLength)
    let m := x.stream.xmit
    if m.hLen≠0 then (.jmp .makeContinuationFrames,x)
    else
      match (if m.postponed≠0 ∧ m.frameLength=0 ∧ x.ctx.curSendHeaders.isNone then
          x.sendPostponed a n else .ok x) with
      | .error err => (.ret err,x)
      | .ok x =>
        if m.bLen≠0 then (.jmp .makeDataFrames,x)
        else if m.tLen≠0 then
          (.jmp (if x.isTrailerCont then .makeTrailerContinuationFrames else .makeTrailerFrames),x)
        else (.jmp .makeFramesFinish,x)

def makeFramesFinish (a : XmitAnswers) (n : Nat) (x : Xmit) : Except Stop (XmitNext×Xmit) :=
  let m := x.stream.xmit
  if m.resp then .error .bug
  else
    match (if m.skbHead≠0 then a.sendPostponed n else .ok 0) with
    | .error err => .ok (.ret err,x)
    | .ok wnd =>
      let c := x.ctx
      let c := if c.error=some x.stream.id then {c with error:=none} else c
      let c := if a.exclusive then c else c.streamAddClosed x.stream.id
      .ok (.exit,{x.setXmit {m with skbHead:=0} with ctx:=c, sndWnd:=x.sndWnd-wnd})

def visit (a : XmitAnswers) (tlsMaxOverhead minToSend n : Nat) (x : Xmit) :
    TfwStreamXmitState → Except Stop (XmitNext×Xmit)
  | .encodeHeaders =>
    if !x.stream.xmit.resp then .error .bug
    else
      match a.prepareResp with
      | .error err => .ok (.ret err,x.setXmit {x.stream.xmit with resp:=false})
      | .ok (hLen,bLen,tLen) =>
        .ok (.jmp .releaseResponse,x.setXmit {x.stream.xmit with
              skbHead:=hLen+bLen+tLen
              hLen:=hLen
              bLen:=bLen
              tLen:=tLen})
  | .releaseResponse =>
    if !x.stream.xmit.resp then .error .bug
    else .ok (.jmp .makeHeadersFrames,x.setXmit {x.stream.xmit with resp:=false})
  | .makeHeadersFrames => makeFrame a tlsMaxOverhead minToSend n x .headers x.stream.xmit.hLen a.writeSz
  | .makeContinuationFrames => makeFrame a tlsMaxOverhead minToSend n x .continuation x.stream.xmit.hLen (.ok 0)
  | .makeDataFrames =>
    if x.ctx.remWnd≤0 ∨ x.stream.remWnd≤0 then x.adjustBlockedStreams 0 .data
    else makeFrame a tlsMaxOverhead minToSend n x .data x.stream.xmit.bLen (.ok 0)
  | .makeTrailerFrames =>
    makeFrame a tlsMaxOverhead minToSend n {x with isTrailerCont:=true} .headers x.stream.xmit.tLen (.ok 0)
  | .makeTrailerContinuationFrames =>
    makeFrame a tlsMaxOverhead minToSend n {x with isTrailerCont:=true} .continuation x.stream.xmit.tLen (.ok 0)
  | .sendFrames => .ok (x.sendFrames a n)
  | .makeFramesFinish => x.makeFramesFinish a n

/-- The end of `tfw_h2_stream_xmit_process`, after `T_FSM_FINISH` in state `state` -/
def finish (a : XmitAnswers) (n : Nat) (state : TfwStreamXmitState) (x : Xmit) : Option Err×Xmit :=
  let x := x.setXmit {x.stream.xmit with state:=state}
  if x.stream.xmit.frameLength=0 then (none,x)
  else
    match a.entailSplit n with
    | some err => (some err,x)
    | none =>
      let x := x.entail x.stream.xmit.frameLength
      if x.stream.xmit.postponed≠0 ∧ x.ctx.curSendHeaders.isNone then
        match x.sendPostponed a n with
        | .error err => (some err,x)
        | .ok x => (none,x)
      else (none,x)

def loop (a : XmitAnswers) (tlsMaxOverhead minToSend : Nat) :
    Nat → TfwStreamXmitState → Xmit → Except Stop (Option Err×Xmit)
  | 0, _, _ => .error .fuel
  | n+1, state, x =>
    match x.visit a tlsMaxOverhead minToSend n state with
    | .error stop => .error stop
    | .ok (.jmp state,x) => loop a tlsMaxOverhead minToSend n state x
    | .ok (.exit,x) => .ok (x.finish a n state)
    | .ok (.ret err,x) => .ok (some err,x)

end Xmit

def TfwStream.isActive (s : TfwStream) : Bool := s.xmit.skbHead != 0 && !s.xmit.isBlocked

/-- What a round of `tfw_h2_make_frames` is given. -/
structure MakeArgs where
  mssNow : Nat
  tlsMaxOverhead : Nat
  sndWnd : Nat
  hdr : TfwFrameHdr := {}
  plen : Nat := 0
  turns : List (Nat×XmitAnswers)

namespace H2Ctx

/-- The stream of a turn, and whether the round stops after it. -/
def turnStream (c : H2Ctx) (id : Nat) : Nat×Bool :=
  match c.curSendHeaders with
  | some id => (id,false)
  | none =>
    match c.error with
    | some err => if (c.findStream err).any (·.isActive) then (err,true) else (id,false)
    | none => (id,false)

/-- One turn of the loop of `tfw_h2_make_frames`. -/
def makeTurn (c : H2Ctx) (args : MakeArgs) (sndWnd : Nat) (id : Nat) (a : XmitAnswers) :
    Except Stop (Option Err×H2Ctx×Nat×Bool) :=
  match c.findStream (c.turnStream id).1 with
  | none => .error .bug
  | some s =>
    if !s.isActive then .error .bug
    else do
      let (r,x) ←
        ({ctx:=c, stream:=s, sndWnd:=sndWnd, stop:=(c.turnStream id).2} : Xmit).loop a
          args.tlsMaxOverhead (calcMinToSend args.tlsMaxOverhead c args.mssNow) (2*sndWnd+5)
          s.xmit.state
      let c := x.ctx.setStream x.stream
      let c := if x.stream.xmit.skbHead=0 ∧ a.exclusive then c.streamClean s.id else c
      return (r,c,x.sndWnd,x.stop)

def makeTurns (args : MakeArgs) : List (Nat×XmitAnswers) → Nat → H2Ctx → Except Stop (Option Err×H2Ctx)
  | [], _, c => .ok (none,c)
  | (id,a)::turns, sndWnd, c => do
    let (r,c,sndWnd,stop) ← c.makeTurn args sndWnd id a
    if stop || r.isSome then return (r,c) else makeTurns args turns sndWnd c

def makeFrames (c : H2Ctx) (args : MakeArgs) : Except Stop (Option Err×H2Ctx) :=
  makeTurns args args.turns args.sndWnd (c.withFrame args.hdr args.plen)
end H2Ctx
end VetWaf.H2
