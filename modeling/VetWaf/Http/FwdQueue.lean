import Mathlib
import VetWaf.Lib.ListCursor

namespace VetWaf.Http.FwdQueue
open ListCursor

structure Req where
  id : Nat
  /-- `TFW_HTTP_B_UPGRADE_WEBSOCKET` -/
  upgrade : Bool
  /-- `TFW_HTTP_B_HMONITOR`. -/
  hmonitor : Bool
  deriving DecidableEq

/-- The return codes that the forwarding code tells apart. -/
inductive Rc where
  | ok
  | ebusy
  | ebadf
  | other
  deriving DecidableEq

inductive BugOn where
  | nipEnlist
  | fwdUnsentCurr
  | fwdUnsentDrained
  | treatnipUnlisted
  | treatnipCurr
  | resendUnlinked
  | resendCurr
  | reenableQsize
  | reenableLast
  | reenableCurr
  | fwdRepairUnrestricted
  | shrinkCurr
  deriving DecidableEq

structure Env where
  /-- The client, or its stream, is gone. -/
  dropped : Req → Bool
  /-- `time_after(jiffies - req->jrxtstamp, srv->sg->max_jqage)` -/
  overdue : Req → Bool
  /-- `req->retries++ >= srv->sg->max_refwd` -/
  exhausted : Req → Bool
  send : Req → Rc

structure HttpErr where
  req : Req
  status : Nat
  reason : String
  deriving DecidableEq

/-- `fwd_queue`, `nip_queue` and what is kept about them. -/
structure FwdQ where
  fwdQueue : List Req
  qsize : Nat
  nipQueue : List Req
  /-- `TFW_CONN_B_HASNIP` -/
  hasnip : Bool
  deriving DecidableEq

/-- The server connection, and what its socket did with the requests since the last connect. -/
structure SrvConn where
  q : FwdQ
  lastMsgSent : Option Req
  currMsgSent : Option Req
  /-- `TFW_CONN_B_UNSCHED` -/
  unsched : Bool
  /-- `TFW_CONN_B_RESEND`: the connection is restricted. -/
  resend : Bool
  /-- `TFW_CONN_B_QFORWD` -/
  qforwd : Bool
  live : Bool
  /-- The requests with a response that is being received, `req->pair`. -/
  paired : List Req
  /-- Accepted by `tfw_connection_send` and not yet written to the socket. -/
  pending : List Req
  /-- Written to the socket. -/
  onWire : List Req
  /-- `tfw_http_req_fwd_send` returned `-EBADF`. -/
  ebadf : Bool
  /-- The requests that `tfw_http_resp_pair` chose. -/
  chosen : List Req
  /-- Every request that `tfw_connection_send` ever accepted. -/
  handed : List Req
  /-- The error queues, `eq`. -/
  eq : List HttpErr
  /-- The requests taken out to be rescheduled, `reschq`. -/
  reschq : List Req

def SrvConn.init : SrvConn where
  q := ⟨[],0,[],false⟩
  lastMsgSent := none
  currMsgSent := none
  unsched := false
  resend := false
  qforwd := false
  live := false
  paired := []
  pending := []
  onWire := []
  ebadf := false
  chosen := []
  handed := []
  eq := []
  reschq := []

namespace FwdQ
variable (q : FwdQ) (r : Req)
def nipReset : FwdQ := if q.nipQueue=[] then {q with hasnip:=false} else q
def nipDelist : FwdQ := if r∈q.nipQueue then nipReset {q with nipQueue:=q.nipQueue.erase r} else q

def delist : FwdQ :=
  let q := q.nipDelist r
  {q with fwdQueue:=q.fwdQueue.erase r, qsize:=q.qsize-1}

def nipEnlist : Except BugOn FwdQ :=
  if r∈q.nipQueue then .error .nipEnlist
  else .ok {q with nipQueue:=q.nipQueue++[r], hasnip:=true}

def enlist (nip : Req → Bool) : Except BugOn FwdQ :=
  let q := {q with fwdQueue:=q.fwdQueue++[r], qsize:=q.qsize+1}
  if nip r then q.nipEnlist r else .ok q

def nipAdjust (nip : Req → Bool) : FwdQ := nipReset {q with nipQueue:=q.nipQueue.filter fun r => nip r}

end FwdQ

namespace SrvConn
section
variable (nip : Req → Bool) (c : SrvConn)
def onHold : Bool := c.lastMsgSent.any nip || c.unsched
def drained : Bool := c.q.fwdQueue.isEmpty || (c.lastMsgSent.isSome && c.lastMsgSent == c.q.fwdQueue.getLast?)
def needFwd : Bool := !c.onHold nip && !c.drained

end

section
variable (env : Env) (c : SrvConn) (r : Req)
def fwdqReset : SrvConn := {c with
    reschq:=c.reschq++c.q.fwdQueue
    q:=⟨[],0,[],false⟩
    currMsgSent:=none
    lastMsgSent:=none}

/-- `tfw_http_req_err` of a request that is in no queue. -/
def queueErr (status : Nat) (reason : String) : SrvConn :=
  if r.hmonitor then c else {c with eq:=c.eq++[⟨r,status,reason⟩]}

def reqErr (status : Nat) (reason : String) : SrvConn := queueErr {c with q:=c.q.delist r} r status reason

def evictDropped : Option SrvConn :=
  if r.hmonitor then none else if env.dropped r then some {c with q:=c.q.delist r} else none

def evictTimeout : Option SrvConn := if env.overdue r then some (c.reqErr r 504 "request evicted: timed out") else none

def evictRetries : Option SrvConn :=
  if env.exhausted r then
    some (c.reqErr r 504 "request evicted: the number of retries exceeded")
  else none

def evictStaleReq : Option SrvConn := (c.evictDropped env r).or (c.evictTimeout env r)
def evict : Option SrvConn := (c.evictDropped env r).or ((c.evictTimeout env r).or (c.evictRetries env r))

end

section
variable (nip : Req → Bool) (env : Env) (c : SrvConn) (r : Req)
def sendError : SrvConn :=
  if r.hmonitor then {c with q:=c.q.delist r}
  else c.reqErr r 500 "request dropped: forwarding error"

def fwdSend : Rc×SrvConn :=
  if r.upgrade && c.unsched then (.ebadf,{c with ebadf:=true})
  else
    let c := {c with unsched:=r.upgrade || c.unsched}
    match env.send r with
    | .ok => (.ok,{c with pending:=c.pending++[r], handed:=c.handed++[r]})
    | .ebadf => (.ebadf,{c with ebadf:=true})
    | .ebusy => (.ebusy,c)
    | .other => (.other,c.sendError r)

def fwdSingle : Rc×SrvConn :=
  match c.evictStaleReq env r with
  | some c => (.other,c)
  | none =>
    match c.fwdSend env r with
    | (.ok,c) => (.ok,{c with currMsgSent:=some r, lastMsgSent:=some r})
    | res => res

/-- The loop of `tfw_http_conn_fwd_unsent` over the requests not sent yet. -/
def fwdUnsentLoop (c : SrvConn) : List Req → Rc×SrvConn
  | [] => (.ok,c)
  | r::rs =>
    match c.fwdSingle env r with
    | (.ebusy,c) => (if c.lastMsgSent=none then .ebusy else .ok,c)
    | (.ebadf,c) => (.ok,c)
    | (.other,c) => fwdUnsentLoop c rs
    | (.ok,c) => if nip r then (.ok,c) else fwdUnsentLoop {c with q:=c.q.nipDelist r} rs

def fwdUnsent : Except BugOn (Rc×SrvConn) :=
  if c.currMsgSent≠c.lastMsgSent then .error .fwdUnsentCurr
  else if c.drained then .error .fwdUnsentDrained
  else .ok (c.fwdUnsentLoop nip env (after c.lastMsgSent c.q.fwdQueue))

def reqFwd (resched : Bool) : Except BugOn (Bool×SrvConn) := do
  let q ← c.q.enlist r nip
  let c := {c with q}
  let (rc,c) ← if c.onHold nip then pure (.other,c) else c.fwdUnsent nip env
  if rc ≠ .ok ∧ resched then pure (false,{c with q:=c.q.delist r}) else pure (true,c)

/-- `tfw_http_req_fwd_resched`, up to the rescheduling of `reschq`. -/
def reqFwdResched : Except BugOn SrvConn := do
  let q ← c.q.enlist r nip
  let c := {c with q}
  if c.onHold nip then pure c
  else
    let (rc,c) ← c.fwdUnsent nip env
    if rc=.ok then pure c else pure c.fwdqReset

end

section
variable (retryNip : Bool) (nip : Req → Bool) (c : SrvConn)

/-- `tfw_http_conn_treatnip`, under `TFW_SRV_RETRY_NIP` or without it. -/
def treatnip : Except BugOn SrvConn :=
  match c.lastMsgSent with
  | none => .ok c
  | some r =>
    if c.onHold nip && !retryNip then
      if r∉c.q.nipQueue then .error .treatnipUnlisted
      else if c.currMsgSent.isSome then .error .treatnipCurr
      else
        .ok <| {c with lastMsgSent:=prev r c.q.fwdQueue}.reqErr r 504
          "request dropped: non-idempotent requests aren't re-forwarded or re-scheduled"
    else .ok c

/-- The loop of `tfw_http_conn_resend` over the requests sent before. -/
def resendLoop (env : Env) (first : Bool) (c : SrvConn) (resent : Option Req) : List Req → Rc×Option Req×SrvConn
  | [] => (.ok,resent,c)
  | r::rs =>
    match c.evict env r with
    | some c => resendLoop env first c resent rs
    | none =>
      match c.fwdSend env r with
      | (.ebadf,c) => (.ebadf,resent,c)
      | (.ebusy,c) => (.ebusy,resent,{c with lastMsgSent:=resent})
      | (.other,c) => resendLoop env first c resent rs
      | (.ok,c) =>
        let c := {c with currMsgSent:=some r}
        if first then (.ok,some r,c) else resendLoop env first c (some r) rs

/-- `tfw_http_conn_resend` -/
def resendSent (env : Env) (first : Bool) : Except BugOn (Rc×SrvConn) :=
  match c.lastMsgSent with
  | none => .ok (.ok,c)
  | some l =>
    if l∉c.q.fwdQueue then .error .resendUnlinked
    else if c.currMsgSent.isSome && (first || c.currMsgSent != c.q.fwdQueue.head?) then
      .error .resendCurr
    else
      match c.resendLoop env first none (upTo l c.q.fwdQueue) with
      | (.ok,resent,c) =>
        if !first || resent.isNone then
          .ok (.ok,{c with currMsgSent:=resent, lastMsgSent:=resent})
        else .ok (.ok,c)
      | (rc,_,c) => .ok (rc,c)

def clearRestricted : SrvConn := {c with qforwd:=false, resend:=false}

def reenableIfDone : Except BugOn (Bool×SrvConn) :=
  if c.q.fwdQueue≠[] then .ok (false,c)
  else if c.q.qsize≠0 then .error .reenableQsize
  else if c.lastMsgSent.isSome then .error .reenableLast
  else if c.currMsgSent.isSome then .error .reenableCurr
  else .ok (true,c.clearRestricted)

/-- `tfw_http_conn_fwd_unsent` where `tfw_http_conn_need_fwd` holds. -/
def fwdNeeded (env : Env) : Except BugOn (Rc×SrvConn) := if c.needFwd nip then c.fwdUnsent nip env else .ok (.ok,c)

def endRepair (rc : Rc) : Except BugOn (Rc×SrvConn) := do
  let (_,c) ← c.reenableIfDone
  pure (rc,c)

def fwdRepair (env env' : Env) : Except BugOn (Rc×SrvConn) :=
  if !c.resend then .error .fwdRepairUnrestricted
  else do
    let (done,c) ← c.reenableIfDone
    if done then pure (.ok,c)
    else if c.qforwd then
      let (rc,c) ← c.fwdNeeded nip env'
      c.endRepair rc
    else
      let (rc,c) ← c.resendSent env false
      if rc=.ebadf then pure (.ok,c)
      else
        let (rc,c) ← fwdNeeded nip {c with qforwd:=true} env'
        c.endRepair rc

/-- The requests of `rs` that are dropped or overdue are evicted. -/
def evictAll (env : Env) : SrvConn → List Req → SrvConn
  | c, [] => c
  | c, r::rs => evictAll env ((c.evictStaleReq env r).getD c) rs

/-- The part of `tfw_http_conn_shrink_fwdq` for the requests sent before. -/
def shrinkSent (env : Env) : SrvConn :=
  match c.lastMsgSent with
  | none => c
  | some l =>
    let c := c.evictAll env (before l c.q.fwdQueue)
    match c.evictStaleReq env l with
    | some c' => {c' with lastMsgSent:=prev l c.q.fwdQueue}
    | none => c

def shrinkFwdq (env : Env) : Except BugOn SrvConn :=
  if c.q.fwdQueue=[] then .ok c
  else if c.currMsgSent.isSome then .error .shrinkCurr
  else
    let c := c.shrinkSent env
    .ok (c.evictAll env (after c.lastMsgSent c.q.fwdQueue))

/-- `tfw_http_conn_shrink_fwdq_resched`, up to the rescheduling. -/
def shrinkFwdqResched : SrvConn := if c.q.fwdQueue=[] then c else c.fwdqReset

/-- `tfw_http_conn_repair` of a connection that is not live. -/
def repairDead (needResched : Bool) (env : Env) : Except BugOn SrvConn :=
  let c := {c with currMsgSent:=none}
  if needResched then .ok c.shrinkFwdqResched else c.shrinkFwdq env

/-- The part of `tfw_http_conn_repair` after all requests sent before are gone. -/
def repairUnsent (env : Env) : Except BugOn (Rc×SrvConn) := do
  let (rc,c) ←
    if c.q.fwdQueue=[] then pure (.ok,c) else fwdUnsent nip env {c with qforwd:=true}
  c.endRepair rc

/-- What `tfw_http_popreq` and `tfw_http_conn_repair` do in the end. -/
def resetOnError (rc : Rc) : SrvConn := if rc=.ok then c else c.clearRestricted.fwdqReset

/-- `tfw_http_conn_repair` of a live connection after `tfw_http_conn_treatnip`, up to the
rescheduling. -/
def repairSent (env env' : Env) : Except BugOn SrvConn := do
  let (rc,c) ← c.resendSent env true
  if rc=.ebadf then pure c
  else if rc=.ok ∧ c.lastMsgSent=none then
    let (rc,c) ← c.repairUnsent nip env'
    pure (c.resetOnError rc)
  else pure (c.resetOnError rc)

/-- `tfw_http_conn_repair` of a live connection. -/
def repairLive (env env' : Env) : Except BugOn SrvConn :=
  let c := {c with currMsgSent:=none}
  if c.q.fwdQueue=[] then .ok c
  else do
    let c ← c.treatnip retryNip nip
    c.repairSent nip env env'

end

section
variable (retryNip : Bool) (nip : Req → Bool) (env : Env) (c : SrvConn)

/-- One round of `tfw_http_fwdq_resched`. -/
def fwdqResched : Option (Option Req×SrvConn) :=
  match c.reschq with
  | [] => none
  | r::reschq =>
    let c := {c with reschq}
    some <|
      if !r.hmonitor && env.dropped r then (none,c)
      else if env.overdue r then (none,c.queueErr r 504 "request evicted: timed out")
      else if nip r && !retryNip then
        (none,c.queueErr r 504
          "request dropped: non-idempotent requests aren't re-forwarded or re-scheduled")
      else if env.exhausted r then
        (none,c.queueErr r 504 "request evicted: the number of retries exceeded")
      else (some r,c)

end

section
variable (retryNip : Bool) (nip : Req → Bool) (c : SrvConn)
def connInit : SrvConn := if c.q.fwdQueue=[] then c else {c with currMsgSent:=none, resend:=true}
def newSocket : SrvConn := {c with pending:=[], onWire:=[], chosen:=[], ebadf:=false, live:=true}

def connectComplete (env env' : Env) : Except BugOn SrvConn := do
  let c := c.newSocket.connInit
  let c ← if c.resend then c.repairLive retryNip nip env env' else pure c
  pure {c with unsched:=false}

/-- `tfw_srv_conn_release`, once a lost connection has no users. -/
def release (removed : Bool) : SrvConn :=
  let c := if removed then c.shrinkFwdqResched else c
  {c.clearRestricted with live:=false, paired:=[], pending:=[]}

end

section
variable (nip : Req → Bool) (c : SrvConn)

/-- The search of `tfw_http_resp_pair` for a request without a response. -/
def pairScan : List Req → Option Req
  | [] => none
  | r::rs =>
    if r∉c.paired then some r
    else if c.currMsgSent=some r then none
    else pairScan rs

def respPair : Option Req := if c.currMsgSent.isNone then none else c.pairScan c.q.fwdQueue

def respond : SrvConn :=
  match c.respPair with
  | none => c
  | some r => {c with paired:=c.paired++[r], chosen:=c.chosen++[r]}

/-- `tfw_http_popreq` before anything is forwarded. -/
def unlinkAnswered (r : Req) : SrvConn := {c with
    lastMsgSent:=if c.lastMsgSent=some r then none else c.lastMsgSent
    currMsgSent:=if c.currMsgSent=some r then none else c.currMsgSent
    q:=(c.q.delist r).nipAdjust nip
    paired:=c.paired.erase r}

/-- `tfw_http_popreq` of a received response to `r`, up to the rescheduling. -/
def popreq (fwdUnsent : Bool) (env env' : Env) (r : Req) : Except BugOn SrvConn :=
  let c := c.unlinkAnswered nip r
  if !fwdUnsent then .ok c
  else do
    let (rc,c) ← if c.resend then c.fwdRepair nip env env' else c.fwdNeeded nip env'
    pure (c.resetOnError rc)

/-- `tfw_http_on_tcp_entail_req` for a request that is no longer valid. -/
def cancel (r : Req) : SrvConn := {c with
    lastMsgSent:=if c.lastMsgSent=some r then prev r c.q.fwdQueue else c.lastMsgSent
    currMsgSent:=if c.currMsgSent=some r then prev r c.q.fwdQueue else c.currMsgSent
    q:=c.q.delist r}

/-- The socket writes the first request handed to it, or cancels one that is no longer valid. -/
def entail (valid : Bool) : SrvConn :=
  match c.pending with
  | [] => c
  | r::ps =>
    if valid then {c with pending:=ps, onWire:=c.onWire++[r]}
    else {c.cancel r with pending:=ps}
end
end SrvConn
end VetWaf.Http.FwdQueue
