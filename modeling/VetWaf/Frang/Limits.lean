import VetWaf.Lib.Word

namespace VetWaf.Frang
open Function Word

def frangFreq : Nat := 8

/-- The counters of `FrangRates` -/
inductive FrangCounter where
  | connNew
  | req
  | tlsSessNew
  | tlsSessIncomplete
  deriving DecidableEq

structure FrangRates where
  ts : Nat := 0
  count : FrangCounter → Nat := fun _ => 0

structure FrangAcc where
  connCurr : Nat := 0
  history : Nat → FrangRates := fun _ => {}

/-- The limits of `FrangGlobCfg`, where 0 is no limit. -/
structure FrangGlobCfg where
  connRate : Nat := 0
  connBurst : Nat := 0
  connMax : Nat := 0
  reqRate : Nat := 0
  reqBurst : Nat := 0
  tlsNewConnRate : Nat := 0
  tlsNewConnBurst : Nat := 0
  tlsIncompleteConnRate : Nat := 0
  connRateTf : Nat
  reqRateTf : Nat
  connRateTf_pos : 0<connRateTf := by decide
  reqRateTf_pos : 0<reqRateTf := by decide

inductive FrangRc where
  | ok
  | block
  | blockWithRst
  deriving DecidableEq

/-- `TTLS_HS_CB_*`, and any other state -/
inductive HsCb where
  | finishedNew
  | finishedResumed
  | incomplete
  | unknown
  deriving DecidableEq

/-- `time_before` for `unsigned long` -/
def timeBefore (a b : Nat) : Bool := 2^63≤Word.sub 64 a b

def frangTimeInFrame (tcur tprev : Nat) : Bool := timeBefore tcur (add 64 tprev frangFreq)

/-- The quotient is returned as `unsigned int`. -/
def frangTimeQuantum (jiffies tframe : Nat) : Nat := trunc 32 (jiffies/tframe)

/-- `(jiffies * FRANG_FREQ) / HZ` -/
def frangTlsQuantum (hz jiffies : Nat) : Nat := trunc 64 (jiffies*frangFreq)/hz

namespace FrangAcc
variable (ra : FrangAcc)
def initSlot (ts : Nat) : FrangAcc :=
  let i := ts%frangFreq
  if (ra.history i).ts≠ts then {ra with history:=update ra.history i {ts}} else ra

def inc (ts : Nat) (counter : FrangCounter) : FrangAcc :=
  let i := ts%frangFreq
  let slot := ra.history i
  {ra with
    history:=update ra.history i
      {slot with
        count:=update slot.count counter (add 32 (slot.count counter) 1)}}

def sumInFrame (ts : Nat) (counter : FrangCounter) : Nat := ((List.range frangFreq).map fun j =>
    if frangTimeInFrame ts (ra.history j).ts then (ra.history j).count counter else 0).sum

def frangAccHistoryInit (ts : Nat) : FrangAcc :=
  let ra := (ra.initSlot ts).inc ts .connNew
  {ra with connCurr:=add 32 ra.connCurr 1}

end FrangAcc

def exceeds (limit value : Nat) : Bool := limit≠0 && limit<value

def frangConnLimit (conf : FrangGlobCfg) (jiffies : Nat) (ra : FrangAcc) : FrangRc×FrangAcc :=
  let ts := frangTimeQuantum jiffies conf.connRateTf
  let ra := ra.frangAccHistoryInit ts
  if exceeds conf.connMax ra.connCurr then (.block,ra)
  else if exceeds conf.connBurst ((ra.history (ts%frangFreq)).count .connNew) then (.block,ra)
  else if exceeds conf.connRate (trunc 32 (ra.sumInFrame ts .connNew)) then (.block,ra)
  else (.ok,ra)

def frangReqLimit (reqBurst reqRate tf jiffies : Nat) (ra : FrangAcc) : FrangRc×FrangAcc :=
  let ts := frangTimeQuantum jiffies tf
  if reqBurst=0 ∧ reqRate=0 then (.ok,ra)
  else
    let ra := (ra.initSlot ts).inc ts .req
    if exceeds reqBurst ((ra.history (ts%frangFreq)).count .req) then (.block,ra)
    else if exceeds reqRate (trunc 32 (ra.sumInFrame ts .req)) then (.block,ra)
    else (.ok,ra)

def frangTlsConnLimit (hz : Nat) (conf : FrangGlobCfg) (hsState : HsCb) (jiffies : Nat) (ra : FrangAcc) :
    FrangRc×FrangAcc :=
  let ts := frangTlsQuantum hz jiffies
  let ra := ra.initSlot ts
  match hsState with
  | .finishedNew =>
    let ra := ra.inc ts .tlsSessNew
    if exceeds conf.tlsNewConnBurst ((ra.history (ts%frangFreq)).count .tlsSessNew) then
      (.blockWithRst,ra)
    else if exceeds conf.tlsNewConnRate (trunc 64 (ra.sumInFrame ts .tlsSessNew)) then
      (.blockWithRst,ra)
    else (.ok,ra)
  | .finishedResumed => (.ok,ra)
  | .incomplete =>
    let ra := ra.inc ts .tlsSessIncomplete
    if exceeds conf.tlsIncompleteConnRate (trunc 64 (ra.sumInFrame ts .tlsSessIncomplete)) then
      (.blockWithRst,ra)
    else (.ok,ra)
  | .unknown => (.blockWithRst,ra)

/-- What a client does, as far as the rates are concerned. -/
inductive FrangEvent where
  | conn
  | connWhitelisted
  | connClose
  | req
  | tls (hsState : HsCb)
  deriving DecidableEq

def frangEvent (hz : Nat) (conf : FrangGlobCfg) (jiffies : Nat) (ra : FrangAcc) : FrangEvent → FrangRc×FrangAcc
  | .conn => frangConnLimit conf jiffies ra
  | .connWhitelisted => (.ok,ra.frangAccHistoryInit (frangTlsQuantum hz jiffies))
  | .connClose => (.ok,{ra with connCurr:=Word.sub 32 ra.connCurr 1})
  | .req => frangReqLimit conf.reqBurst conf.reqRate conf.reqRateTf jiffies ra
  | .tls hsState => frangTlsConnLimit hz conf hsState jiffies ra

def frangRun (hz : Nat) (conf : FrangGlobCfg) (events : List (Nat×FrangEvent)) : FrangAcc :=
  events.foldl (fun ra event => (frangEvent hz conf event.1 ra event.2).2) {}
end VetWaf.Frang
