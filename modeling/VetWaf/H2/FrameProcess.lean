import VetWaf.H2.FrameRecv

namespace VetWaf.H2

/-- `ss_skb_process` with `tfw_h2_frame_recv` as the actor, from the fragment at hand on. -/
def ssSkbProcess (e : Answers) (c : TfwH2Ctx) : List Bytes → Except Stop (Rc×TfwH2Ctx×Nat)
  | [] => .ok (.postpone,c,0)
  | buf::frags => do
    let (r,c,p) ← frameRecv e c buf
    let processed := buf.length-p.length
    if r=.postpone then
      let (r,c,n) ← ssSkbProcess e c frags
      return (r,c,processed+n)
    else return (r,c,processed)

/-- `ss_skb_split`: the fragments after the first `n` bytes. -/
def skbRest : Nat → List Bytes → List Bytes
  | _, [] => []
  | n, f::fs => if f.length≤n then skbRest (n-f.length) fs else f.drop n::fs

namespace TfwH2Ctx

def contextReinit (c : TfwH2Ctx) (postponed : Bool) : TfwH2Ctx :=
  if !c.state.app || (!postponed && c.padlen == 0) then
    {maxFrameSz:=c.maxFrameSz, lstreamId:=c.lstreamId}
  else if !postponed && c.padlen != 0 then
    {c with state:=.ignoreFrameData, toRead:=c.padlen, padlen:=0}
  else c

def allowedEmptyFrame (c : TfwH2Ctx) : Bool := c.plen == 0 && ((c.hdr.type == .data && c.hdr.has fEndStream) ||
      (c.hdr.type == .continuation && c.hdr.has fEndHeaders) || c.hdr.type == .headers)

end TfwH2Ctx

/-- Buffers that hold nothing but the first `off` bytes are taken off the queue. -/
def chopHead : List Bytes → Nat → List Bytes×Nat
  | [], off => ([],off)
  | skb::skbs, off => if skb.length≤off then chopHead skbs (off-skb.length) else (skb::skbs,off)

/-- A connection with the field `skb_head` of its context. -/
structure Conn where
  ctx : TfwH2Ctx
  skbHead : List Bytes := []
  passed : List Bytes := []
  received : List Bytes := []
  cur : Bytes := []
  deriving DecidableEq

namespace Conn

def purge (c : Conn) : Conn := {c with ctx:={c.ctx with dataOff:=0}, skbHead:=[]}

def msgProcess (e : Answers) (c : Conn) (pskb : Bytes) : Except Stop (Rc×Conn) :=
  match e.msgProcess c.cur.length with
  | .error err => .error (.code err)
  | .ok r => .ok (r,{c.purge with passed:=c.passed++[pskb]})

/-- What `tfw_h2_frame_process` does with the data of the buffer at hand. -/
def passData (e : Answers) (r : Rc) (c : Conn) : Except Stop (Option Rc×Conn) :=
  if c.ctx.curStream.isNone then .ok (some r,c.purge)
  else if c.ctx.state.app ∧ c.ctx.plen≠0 then
    match chopHead c.skbHead c.ctx.dataOff with
    | ([],off) => .ok (none,{c with ctx:={c.ctx with dataOff:=off}, skbHead:=[]})
    | (pskb::_,off) => do
      let _ ← check (e.chop c.cur.length) c.ctx
      let (r,c) ← c.msgProcess e (pskb.drop off)
      return (some r,c)
  else if c.ctx.allowedEmptyFrame then do
    let (r,c) ← c.msgProcess e (c.skbHead.getLastD [])
    return (some r,c)
  else .ok (some r,c.purge)

def reinit (c : Conn) (postponed : Bool) : Conn :=
  let h := c.ctx.contextReinit postponed
  if h.state=.recvFrameHeader then
    {c with ctx:=h, skbHead:=[], received:=c.received++[c.cur], cur:=[]}
  else {c with ctx:=h}

end Conn

/-- The error codes of `ss_skb_process` as `tfw_h2_frame_process` returns them. -/
def closeCode : Stop → Stop
  | .code (.sys _) => .code .bad
  | stop => stop

/-- The processing of one frame, or of the part of it that the buffer has. -/
def frameRound (e : Answers) (c : Conn) (skb : List Bytes) : Except Stop (Rc×Conn×Option (List Bytes)) :=
  let data := skb.flatten
  if data=[] then .error (closeCode eio)
  else
    match ssSkbProcess e c.ctx skb with
    | .error stop => .error (closeCode stop)
    | .ok (r,h,parsed) =>
      -- the buffer is queued before it is processed and cut at the end of the frame
      let c :=
        {c with
          ctx:=h
          skbHead:=c.skbHead++[data.take parsed]
          cur:=c.cur++data.take parsed}
      if r=.drop then .error (.code .bad)
      else if r=.postpone ∧ !h.state.app then .ok (.ok,c,none)
      else if parsed<data.length ∧ !e.split c.cur.length then .error enomem
      else do
        let rest := if parsed<data.length then some (skbRest parsed skb) else none
        let (r',c) ← c.passData e r
        match r' with
        | none => return (.ok,c,none)
        | some r' => return (r',c.reinit (r=.postpone),rest)

def frameProcess (env : Nat → Answers) : Nat → Conn → List Bytes → Except Stop (Rc×Conn)
  | 0, _, _ => .error .fuel
  | fuel+1, c, skb =>
    match frameRound (env c.received.length) c skb with
    | .error stop => .error stop
    | .ok (r,c,none) => .ok (r,c)
    | .ok (_,c,some rest) => frameProcess env fuel c rest

/-- The buffers of a connection are processed one by one, until one of them closes it. -/
def receive (env : Nat → Answers) (c : Conn) : List (List Bytes) → Except Stop Conn
  | [] => .ok c
  | skb::skbs => do
    let (_,c) ← frameProcess env (skb.flatten.length+1) c skb
    receive env c skbs
end VetWaf.H2
