import VetWaf.H2.IdleQueue

namespace VetWaf.H2

def tfwMaxClosedStreams : Nat := 5

/-- A frame; `bare` if nothing is left of its payload behind the padding and the priority block. -/
structure RecvFrame where
  hdr : TfwFrameHdr
  plen : Nat := 0
  priority : TfwFramePri := {}
  wndIncr : Nat := 0
  bare : Bool := false
  deriving DecidableEq

/-- `tfw_h2_frame_pad_process` and `tfw_h2_headers_pri_process` ignore the rest of the frame. -/
def RecvFrame.skipped (fr : RecvFrame) : Bool :=
  fr.bare && (fr.hdr.has fPadded || (fr.hdr.type == .headers && fr.hdr.has fPriority))

namespace H2Ctx

def lstreamId (c : H2Ctx) : Nat := c.recv.lstreamId
def setLstreamId (c : H2Ctx) (id : Nat) : H2Ctx := {c with recv:={c.recv with lstreamId:=id}}
def withFrame (c : H2Ctx) (hdr : TfwFrameHdr) (plen : Nat) : H2Ctx := {c with recv:={c.recv with hdr:=hdr, plen:=plen}}
def findNotClosedStream (c : H2Ctx) (id : Nat) : Option TfwStream := (c.findStream id).filter (·.state != .closed)

/-- `tfw_h2_stream_unlink_nolock`, without the request -/
def streamUnlink (c : H2Ctx) (id : Nat) : H2Ctx := c.delFromQueueNolock id

def currentStreamRemove (c : H2Ctx) (id : Nat) : H2Ctx := (c.streamUnlink id).streamClean id
def currentStreamSendRst (c : H2Ctx) (id : Nat) : H2Ctx := (c.streamUnlink id).streamAddClosed id

/-- The loop of `tfw_h2_closed_streams_shrink`. -/
def closedStreamsShrinkLoop (maxStreams : Nat) : Nat → H2Ctx → H2Ctx
  | 0, c => c
  | n+1, c =>
    if c.closedStreams.num≤tfwMaxClosedStreams ∧ (c.streams.length < maxStreams ∨ c.closedStreams.num=0) then c
    else
      match c.closedStreams.list with
      | [] => c
      | id::_ => closedStreamsShrinkLoop maxStreams n ((c.streamUnlink id).streamClean id)

def closedStreamsShrink (c : H2Ctx) (maxStreams : Nat) : H2Ctx :=
  closedStreamsShrinkLoop maxStreams c.closedStreams.list.length c

def streamRecvProcess (c : H2Ctx) (id : Nat) (fr : RecvFrame) : Option (H2Ctx×Bool) := do
  let s ← c.findStream id
  let f ← streamFsm (c.withFrame fr.hdr fr.plen) s fr.hdr.type fr.hdr.flags false
  let c := f.ctx.setStream f.stream
  match f.res with
  | .termConn => none
  | .termStream => some (c.currentStreamSendRst id,false)
  | .ignore => some (c,false)
  | .ok => some (c,true)

def checkCurrentStreamIsClosed (c : H2Ctx) (id : Nat) : H2Ctx :=
  if (c.findStream id).any (·.state == .closed) then c.currentStreamRemove id else c

def noteOpened (c : H2Ctx) (s : TfwStream) : H2Ctx := if s.state=.idle then {c with log:=.opened s.id::c.log} else c

def currentStreamStateProcess (c : H2Ctx) (id : Nat) (fr : RecvFrame) : Option H2Ctx := do
  let s ← c.findStream id
  let (c,go) ← c.streamRecvProcess id fr
  if go then some ((c.noteOpened s).checkCurrentStreamIsClosed id) else some c

/-- `tfw_h2_headers_process`, with the stream that was found for the frame -/
def headersProcess (c : H2Ctx) (cur : Option TfwStream) (fr : RecvFrame) : Option H2Ctx :=
  let id := fr.hdr.streamId
  let c := c.setLstreamId id
  if fr.priority.streamId=id then
    if cur.isNone then some c else some (c.currentStreamSendRst id)
  else
    match cur with
    | none => (c.streamCreate id).bind fun c => c.currentStreamStateProcess id fr
    | some s =>
      let c := if s.state=.idle ∧ !s.eosSent ∧ !s.eosReceived then c.streamRemoveIdle id else c
      c.currentStreamStateProcess id fr

def currentStreamIdVerify (c : H2Ctx) (cur : Option TfwStream) (id : Nat) : Bool :=
  cur.isSome || (c.lstreamId < id && id%2 == 1)

/-- The state `HTTP2_RECV_HEADER`, if it is reached -/
def recvHeader (c : H2Ctx) (cur : Option TfwStream) (fr : RecvFrame) : Option H2Ctx :=
  if fr.skipped then some c else c.headersProcess cur fr

def recvHeaders (c : H2Ctx) (maxStreams : Nat) (fr : RecvFrame) : Option H2Ctx :=
  let id := fr.hdr.streamId
  let cur := c.findNotClosedStream id
  if id=0 ∨ !c.currentStreamIdVerify cur id then none
  else
    let c := c.removeIdleStreams id
    if cur.isNone then
      let c := c.closedStreamsShrink maxStreams
      -- the stream is refused with RST_STREAM
      if c.streams.length=maxStreams then some c else c.recvHeader cur fr
    else c.recvHeader cur fr

def streamError (c : H2Ctx) (id : Nat) : Option H2Ctx := do
  let s ← c.findStream id
  let f ← streamFsm c s .rstStream 0 true
  if f.res=.ok then some ((f.ctx.setStream f.stream).currentStreamSendRst id) else none

def priorityProcess (c : H2Ctx) (fr : RecvFrame) : Option H2Ctx := do
  let s ← c.findStream fr.hdr.streamId
  if fr.priority.streamId≠fr.hdr.streamId then some c
  else if s.state=.idle ∧ !s.eosSent ∧ !s.eosReceived then none
  else c.streamError fr.hdr.streamId

def recvPriorityFor (c : H2Ctx) (fr : RecvFrame) : Option H2Ctx := do
  let (c,go) ← c.streamRecvProcess fr.hdr.streamId fr
  if go then c.priorityProcess fr else some c

def recvPriority (c : H2Ctx) (maxStreams : Nat) (fr : RecvFrame) : Option H2Ctx :=
  let id := fr.hdr.streamId
  if id=0 then none
  else if (c.findStream id).isSome then c.recvPriorityFor fr
  else if c.lstreamId < id then
    let c := c.closedStreamsShrink maxStreams
    if c.streams.length=maxStreams then none
    else (c.streamCreate id).bind fun c => (c.streamAddIdle id).recvPriorityFor fr
  else some c

/-- `tfw_h2_stream_try_unblock`; the scheduler is left out. -/
def streamTryUnblock (c : H2Ctx) (s : TfwStream) : Option H2Ctx :=
  if 0<s.remWnd then
    let c := c.setStream {s with xmit:={s.xmit with isBlocked:=false}}
    if s.xmit.skbHead≠0 ∧ s.xmit.isBlocked then
      if c.blockedStreams-1<0 then none
      else some {c with blockedStreams:=c.blockedStreams-1}
    else some c
  else some (c.setStream s)

def incrementWndSz (window : Int) (incr : Nat) : Option Int :=
  if window+incr > maxWndSize then none else some (window+incr)

def wndUpdateProcess (c : H2Ctx) (cur : Option TfwStream) (incr : Nat) : Option H2Ctx :=
  let incr := incr%2^31
  match cur with
  | none =>
    if incr=0 then none
    else (incrementWndSz c.remWnd incr).map fun wnd => {c with remWnd:=wnd, log:=.wndIncr 0 incr::c.log}
  | some s =>
    if incr=0 then c.streamError s.id
    else
      match incrementWndSz s.remWnd incr with
      | none => c.streamError s.id
      | some wnd =>
        {c with log:=.wndIncr s.id incr::c.log}.streamTryUnblock {s with remWnd:=wnd}

def recvWndUpdate (c : H2Ctx) (fr : RecvFrame) : Option H2Ctx :=
  let id := fr.hdr.streamId
  if c.lstreamId < id then none
  else if id=0 then c.wndUpdateProcess none fr.wndIncr
  else if (c.findNotClosedStream id).isNone then some c
  else
    (c.streamRecvProcess id fr).bind fun (c,go) =>
      if go then (c.findStream id).bind fun s => c.wndUpdateProcess (some s) fr.wndIncr else some c

def recvRstStream (c : H2Ctx) (fr : RecvFrame) : Option H2Ctx :=
  let id := fr.hdr.streamId
  if id=0 ∨ c.lstreamId < id then none
  else if (c.findNotClosedStream id).isNone then some c
  else
    (c.streamRecvProcess id fr).map fun (c,go) => if go then c.currentStreamRemove id else c

def recvData (c : H2Ctx) (fr : RecvFrame) : Option H2Ctx :=
  let id := fr.hdr.streamId
  if id=0 ∨ c.lstreamId < id ∨ (c.findNotClosedStream id).isNone then none
  else if fr.hdr.type=.data ∧ fr.skipped then some c
  else c.currentStreamStateProcess id fr

/-- The context is ready for the next frame. -/
def reinit (c : H2Ctx) : H2Ctx := {c with recv:={maxFrameSz:=c.recv.maxFrameSz, lstreamId:=c.recv.lstreamId}}

/-- A frame is received; `none` ends the connection. -/
def recvFrame (c : H2Ctx) (maxStreams : Nat) (fr : RecvFrame) : Option H2Ctx :=
  let c' :=
    match fr.hdr.type with
    | .data | .continuation => c.recvData fr
    | .headers => c.recvHeaders maxStreams fr
    | .priority => c.recvPriority maxStreams fr
    | .rstStream => c.recvRstStream fr
    | .windowUpdate => c.recvWndUpdate fr
    | .pushPromise => none
    | .settings | .ping | .goaway => some c
    | .undefined => if c.curRecvHeaders.isSome then none else some c
  c'.map reinit
end H2Ctx
end VetWaf.H2
