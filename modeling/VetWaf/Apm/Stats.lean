import VetWaf.Lib.InPlace
import VetWaf.Lib.Outcome
import VetWaf.Lib.Word

namespace VetWaf.Apm
open Function List Word

/-- A range: its bounds are inclusive. -/
structure TfwPcntCtl where
  order : Nat
  beginVal : Nat
  endVal : Nat
  deriving DecidableEq

structure TfwPcntRanges where
  ctl : Nat → TfwPcntCtl
  totCnt : Nat
  totVal : Nat
  minVal : Nat
  maxVal : Nat
  cnt : Nat → Nat → Nat

/-- A failed `BUG_ON`, a bucket that does not exist, or a loop that does not end. -/
inductive StatsStop where
  | bug
  | index
  | fuel
  deriving DecidableEq

def statsRanges : Nat := 4
def statsRlast : Nat := 3
def statsBckts : Nat := 16
def statsBcktsOrder : Nat := 4
def rspan (order : Nat) : Nat := trunc 32 ((statsBckts-1) <<< order)
def rspanUl (order : Nat) : Nat := trunc 64 ((statsBckts-1) <<< order)

def rngctlInit : Nat → TfwPcntCtl
  | 0 => ⟨0,1,16⟩
  | 1 => ⟨1,17,47⟩
  | 2 => ⟨2,48,108⟩
  | _ => ⟨4,109,349⟩

def TfwPcntRanges.init : TfwPcntRanges :=
  {ctl:=rngctlInit, totCnt:=0, totVal:=0, minVal:=2^32-1, maxVal:=0, cnt:=fun _ _ => 0}

namespace TfwPcntRanges
variable (rng : TfwPcntRanges)
def setCtl (r : Nat) (pc : TfwPcntCtl) : TfwPcntRanges := {rng with ctl:=update rng.ctl r pc}
def setCnt (r : Nat) (cnt : Nat → Nat) : TfwPcntRanges := {rng with cnt:=update rng.cnt r cnt}

end TfwPcntRanges

/-- The index of the bucket that `__rng` gives for a time -/
def rngIdx (pc : TfwPcntCtl) (rTime : Nat) : Nat :=
  if rTime≤pc.beginVal then 0
  else Word.add 32 (sub 32 rTime pc.beginVal) (sub 32 (trunc 32 (1 <<< pc.order)) 1) >>> pc.order

/-- `++(*__rng(pc, rng->cnt[r], r_time))` -/
def hit (rng : TfwPcntRanges) (r rTime : Nat) : Except StatsStop TfwPcntRanges :=
  let b := rngIdx (rng.ctl r) rTime
  if b<statsBckts then .ok (rng.setCnt r (update (rng.cnt r) b (rng.cnt r b+1)))
  else .error .index

def rangeGrowRight (rng : TfwPcntRanges) (r : Nat) : TfwPcntRanges :=
  let pc := rng.ctl r
  let order := pc.order+1
  let rng := rng.setCtl r {pc with order, endVal:=Word.add 32 pc.beginVal (rspan order)}
  rng.setCnt r (InPlace.rewrite (fun cnt i => cnt (2*i)+cnt (2*i+1)) (statsBckts/2) (rng.cnt r))

def sumLeft (cnt : Nat → Nat) : Nat → Nat :=
  (range' 1 (statsBckts/2-1)).foldl (fun cnt i => update cnt 0 (cnt 0+cnt i)) cnt

def splitRight (cnt : Nat → Nat) (i : Nat) : Nat → Nat :=
  let cntFull := cnt (statsBckts/2+i)
  let cntHalf := cntFull/2
  let cnt := update cnt (i*2) cntHalf
  update cnt (i*2+1) (cntFull-cntHalf)

/-- The counters after `__range_shrink_left` -/
def shrinkCnt (cnt : Nat → Nat) : Nat → Nat :=
  let cnt := sumLeft cnt
  let cntFull := cnt (statsBckts/2)
  let cntHalf := cntFull/2
  let cnt := update cnt 0 (cnt 0+cntHalf)
  let cnt := update cnt 1 (cntFull-cntHalf)
  (range' 1 (statsBckts/2-1)).foldl splitRight cnt

def rangeShrinkLeft (rng : TfwPcntRanges) (r : Nat) : TfwPcntRanges :=
  let pc := rng.ctl r
  let order := pc.order-1
  let rng := rng.setCtl r {pc with order, beginVal:=sub 32 pc.endVal (rspan order)}
  rng.setCnt r (shrinkCnt (rng.cnt r))

/-- The loop of `tfw_stats_extend`. -/
def extendOrder (pc : TfwPcntCtl) (rTime : Nat) : Nat → Nat → Except StatsStop (Nat×Nat)
  | 0, _ => .error .fuel
  | k+1, order =>
    let order := order+1
    let e := Word.add 64 pc.beginVal (rspanUl order)
    if e<rTime then extendOrder pc rTime k order else .ok (order,e)

/-- The new value of a bucket in `tfw_stats_extend`. -/
def unitSum (units : Nat) (cnt : Nat → Nat) (i : Nat) : Nat :=
  if units=2 then cnt (2*i)+cnt (2*i+1)
  else if units=4 then cnt (4*i)+cnt (4*i+1)+cnt (4*i+2)+cnt (4*i+3)
  else (range' (i*units) units).foldl (fun sum b => trunc 32 (sum+cnt b)) 0

/-- The counters after `tfw_stats_extend` -/
def extendCnt (units parts : Nat) (cnt : Nat → Nat) : Nat → Nat :=
  let cnt := InPlace.rewrite (unitSum units) parts cnt
  fun b => if parts≤b ∧ b<statsBckts then 0 else cnt b

def statsExtend (rng : TfwPcntRanges) (rTime : Nat) : Except StatsStop TfwPcntRanges := do
  let pc := rng.ctl statsRlast
  let (order,e) ← extendOrder pc rTime 32 pc.order
  if 2^32≤e then .error .bug
  else
    let shift := min (order-pc.order) statsBcktsOrder
    let units := 1 <<< shift
    let parts := statsBckts >>> shift
    let rng := rng.setCtl statsRlast {pc with order, endVal:=e}
    .ok (rng.setCnt statsRlast (extendCnt units parts (rng.cnt statsRlast)))

/-- What `tfw_stats_adjust` collects about the counters of a range -/
structure Scan where
  cnt : Nat := 0
  sum : Nat := 0
  max : Nat := 0
  iMax : Nat := 0
  deriving DecidableEq

def Scan.add (cnt : Nat → Nat) (s : Scan) (i : Nat) : Scan :=
  let s := if cnt i≠0 then {s with sum:=s.sum+cnt i, cnt:=s.cnt+1} else s
  if s.max<cnt i then {s with max:=cnt i, iMax:=i} else s

def scan (cnt : Nat → Nat) : Scan := (range statsBckts).foldl (Scan.add cnt) {}

/-- The hits in the gap before range `r` go to the right half of the range before it. -/
def spreadGap (rng : TfwPcntRanges) (r max : Nat) : TfwPcntRanges :=
  let rng := rangeGrowRight rng (r-1)
  let cnt := max/(statsBckts/2+1)
  let rng := rng.setCnt r (update (rng.cnt r) 0 (rng.cnt r 0-cnt*(statsBckts/2)))
  rng.setCnt (r-1) fun b => if statsBckts/2≤b ∧ b<statsBckts then cnt else rng.cnt (r-1) b

def statsAdjust (rng : TfwPcntRanges) (r : Nat) : Except StatsStop TfwPcntRanges :=
  if r=0 then .error .bug
  else
    let s := scan (rng.cnt r)
    if s.cnt=0 then .error .bug
    else if s.max ≤ s.sum*2/s.cnt then .ok rng
    else
      let pc := rng.ctl r
      let prepc := rng.ctl (r-1)
      let prend := Word.add 64 prepc.beginVal (rspanUl (prepc.order+1))
      let rng := if s.iMax=0 ∧ prend<pc.beginVal then spreadGap rng r s.max else rng
      .ok (if pc.order≠0 then rangeShrinkLeft rng r else rng)

def statsAdjMax (rng : TfwPcntRanges) (rTime : Nat) : Bool×TfwPcntRanges :=
  if rng.maxVal<rTime then (true,{rng with maxVal:=rTime}) else (false,rng)

def statsAdjMin (rng : TfwPcntRanges) (rTime : Nat) : Bool×TfwPcntRanges :=
  if rTime<rng.minVal then (rng.minVal != 2^32-1,{rng with minVal:=rTime}) else (false,rng)

/-- The part of `tfw_stats_update` at `totals` -/
def totals (rng : TfwPcntRanges) (rTime : Nat) : TfwPcntRanges :=
  let (ret,rng) := statsAdjMin rng rTime
  let rng := if ret then rng else (statsAdjMax rng rTime).2
  {rng with totVal:=rng.totVal+rTime, totCnt:=rng.totCnt+1}

/-- The part of `tfw_stats_update` before `totals` -/
def countTime (rng : TfwPcntRanges) (rTime : Nat) : Except StatsStop TfwPcntRanges :=
  if rTime≤(rng.ctl 2).endVal then
    if (rng.ctl 1).endVal<rTime then do
      let rng ← hit rng 2 rTime
      statsAdjust rng 2
    else if (rng.ctl 0).beginVal≠1 then .error .bug
    else if (rng.ctl 0).endVal<rTime then do
      let rng ← hit rng 1 rTime
      statsAdjust rng 1
    else hit rng 0 rTime
  else do
    let rng ← if (rng.ctl 3).endVal<rTime then statsExtend rng rTime else .ok rng
    let rng ← hit rng 3 rTime
    statsAdjust rng 3

def statsUpdate (rng : TfwPcntRanges) (rTime : Nat) : Except StatsStop TfwPcntRanges := do
  let rng ← countTime rng rTime
  return totals rng rTime
end VetWaf.Apm
