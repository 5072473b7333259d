import VetWaf.H2.Xmit

namespace VetWaf.H2

/-- The settings of the client that sending depends on. -/
inductive SettingsId where
  | initWndSize
  | maxFrameSize
  deriving DecidableEq

/-- The identifier in the frame -/
def SettingsId.code : SettingsId → Nat
  | .initWndSize => 4
  | .maxFrameSize => 5

namespace H2Ctx

/-- One turn of the loop of `tfw_h2_apply_wnd_sz_change` -/
def adjustStreamWnd (delta : Int) (c : H2Ctx) (s : TfwStream) : Option H2Ctx :=
  if s.state=.opened ∨ s.state=.remHalfClosed then
    c.streamTryUnblock {s with remWnd:=s.remWnd+delta}
  else some c

def applyWndSzChange (c : H2Ctx) (delta : Int) : Option H2Ctx := c.streams.foldlM (adjustStreamWnd delta) c

/-- `tfw_h2_apply_settings_entry`, for a value that passed the check when it was received -/
def applySettingsEntry (c : H2Ctx) (id : SettingsId) (val : Nat) : Option H2Ctx :=
  match id with
  | .initWndSize =>
    (c.applyWndSzChange (val-c.rsettings.wndSz)).map fun c => {c with rsettings:={c.rsettings with wndSz:=val}}
  | .maxFrameSize => some {c with rsettings:={c.rsettings with maxFrameSz:=val}}

/-- `tfw_h2_stream_init_for_xmit` for the stream of a response -/
def streamInitForXmit (c : H2Ctx) (s : TfwStream) (state : TfwStreamXmitState) (hLen bLen : Nat) : H2Ctx := c.setStream
    {s with
      xmit :=
        {s.xmit with
          resp:=false
          skbHead:=0
          hLen:=hLen
          bLen:=bLen
          tLen:=0
          state:=state
          frameLength:=0
          isBlocked:=false}}

def onSendResp (c : H2Ctx) (s : TfwStream) (len : Nat) (error : Bool) : Option H2Ctx :=
  if s.state=.closed then some c
  else if s.xmit.skbHead≠0 ∨ s.xmit.resp then none
  else
    let c := if error then {c with error:=some s.id} else c
    let m := s.xmit
    some (c.setStream {s with xmit:={m with resp:=true, skbHead:=m.hLen+m.bLen+m.tLen+len}})

/-- `tfw_h2_on_send_dflt`: a frame of `len` bytes waits for the end of a header block. -/
def onSendDflt (c : H2Ctx) (len : Nat) : H2Ctx :=
  match c.curSendHeaders.bind c.findStream with
  | some s => c.setStream {s with xmit:={s.xmit with postponed:=s.xmit.postponed+len}}
  | none => c

def onSendRstStream (c : H2Ctx) (id len : Nat) : H2Ctx :=
  match (c.findNotClosedStream id).filter (·.xmit.skbHead != 0) with
  | some s => c.setStream {s with xmit:={s.xmit with skbHead:=s.xmit.skbHead+len}}
  | none => c.onSendDflt len

def reqUnlinkAndCloseStream (c : H2Ctx) (id : Nat) : H2Ctx := (c.setStreamState id .closed).streamAddClosed id

end H2Ctx

inductive ConnOp where
  | recv (maxStreams : Nat) (fr : RecvFrame)
  | settings (id : SettingsId) (val : Nat)
  | initForXmit (id : Nat) (state : TfwStreamXmitState) (hLen bLen : Nat)
  | initTLenForXmit (id tLen : Nat)
  | sendResp (id len : Nat) (error : Bool)
  /-- An RST_STREAM frame for the stream `rst`, or another frame of the connection -/
  | sendFrame (rst : Option Nat) (len : Nat)
  | makeFrames (args : MakeArgs)
  | unlinkAndClose (id : Nat)

def reqStream (c : H2Ctx) (id : Nat) : Option TfwStream := (c.findStream id).filter (·.state != .idle)

/-- One step; `none` ends the connection. -/
def connStep (c : H2Ctx) : ConnOp → Option H2Ctx
  | .recv maxStreams fr => c.recvFrame maxStreams fr
  | .settings id val => if TfwH2Ctx.checkSettingsEntry id.code val then c.applySettingsEntry id val else none
  | .initForXmit id state hLen bLen =>
    if state=.encodeHeaders ∨ state=.releaseResponse then
      (reqStream c id).map fun s => c.streamInitForXmit s state hLen bLen
    else none
  | .initTLenForXmit id tLen =>
    ((reqStream c id).filter (·.xmit.skbHead == 0)).map fun s => c.setStream {s with xmit:={s.xmit with tLen:=tLen}}
  | .sendResp id len error => (reqStream c id).bind fun s => c.onSendResp s len error
  | .sendFrame none len => some (c.onSendDflt len)
  | .sendFrame (some id) len => some (c.onSendRstStream id len)
  | .makeFrames args =>
    match c.makeFrames args with
    | .ok (none,c) => some c.reinit
    | _ => none
  | .unlinkAndClose id => (reqStream c id).map fun _ => c.reqUnlinkAndCloseStream id

/-- A new connection: `tfw_h2_context_init` -/
def contextInit (maxFrameSz : Nat) : H2Ctx := {recv:={maxFrameSz:=maxFrameSz}}
end VetWaf.H2
