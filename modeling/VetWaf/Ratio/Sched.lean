import VetWaf.Lib.Outcome
import VetWaf.Lib.Word

namespace VetWaf.Ratio
open Word

structure TfwRatioSrvData where
  sdidx : Nat := 0
  weight : Nat := 0
  cratio : Nat := 0
  oratio : Nat := 0
  deriving DecidableEq, Repr, Inhabited

/-- `sort` of the kernel with `tfw_sched_ratio_srvdata_cmp`. -/
structure KernelSort where
  sort : List TfwRatioSrvData → List TfwRatioSrvData
  perm : ∀l,(sort l).Perm l
  sorted : ∀l,(sort l).Pairwise fun a b => b.oratio≤a.oratio

/-- `TfwRatioData` with `srv_n` of the group -/
structure TfwRatioData where
  srvN : Nat
  srvdata : Nat → TfwRatioSrvData
  csidx : Nat
  reidx : Nat
  riter : Nat
  crsum : Nat
  orsum : Nat

/-- A failed `BUG_ON`, or a loop that does not end. -/
inductive RatioStop where
  | bug
  | fuel
  deriving DecidableEq

def maxValIdx (srvdata : List TfwRatioSrvData) : Nat := (List.range srvdata.length).foldl (fun m si =>
    if (srvdata.getD m {}).weight<(srvdata.getD si {}).weight then si else m) 0

/-- The value that `tfw_sched_ratio_calc` gives for `one_val_idx`. -/
def oneValIdx (srvdata : List TfwRatioSrvData) : Nat := (List.range srvdata.length).foldl (fun one si =>
    if (srvdata.getD si {}).oratio=1 ∧ one=0 then si else one) 0

/-- The ratios of `tfw_sched_ratio_calc` -/
def setRatio (unit maxWgt : Nat) (data : TfwRatioSrvData) : TfwRatioSrvData :=
  let ratio := trunc 64 (unit*data.weight)/maxWgt
  let oratio := trunc 32 (if ratio≠0 then ratio else 1)
  {data with cratio:=oratio, oratio}

def schedRatioCalc (srvdata : List TfwRatioSrvData) (sumWgt maxValIdx : Nat) : Bool×List TfwRatioSrvData :=
  let maxWgt := (srvdata.getD maxValIdx {}).weight
  let unit := trunc 64 ((maxWgt+srvdata.length)*maxWgt)/sumWgt
  let srvdata := srvdata.map (setRatio unit maxWgt)
  (srvdata.any fun data => data.oratio != (srvdata.getD 0 {}).oratio,srvdata)

def sumRatio (srvdata : List TfwRatioSrvData) : Nat := srvdata.foldl (fun sum data => add 64 sum data.oratio) 0
def initSrvdata (weights : List Nat) : List TfwRatioSrvData := weights.mapIdx fun si weight => {sdidx:=si, weight}
def sumWgt (weights : List Nat) : Nat := weights.foldl (fun sum weight => add 64 sum weight) 0

def rtodata (srvdata : List TfwRatioSrvData) (orsum : Nat) : TfwRatioData :=
  { srvN:=srvdata.length
    srvdata:=fun si => srvdata.getD si {}
    csidx:=0
    reidx:=srvdata.length
    riter:=1
    crsum:=orsum
    orsum}

def schedRatioCalcStatic (ks : KernelSort) (weights : List Nat) : TfwRatioData :=
  let srvdata := initSrvdata weights
  let (diff,srvdata) := schedRatioCalc srvdata (sumWgt weights) (maxValIdx srvdata)
  rtodata (if diff then ks.sort srvdata else srvdata) (sumRatio srvdata)

/-- Step 1 of `__tfw_sched_ratio_calc_dynamic`. -/
def swapOneMax (one max data : TfwRatioSrvData) : TfwRatioSrvData :=
  if data.oratio=1 then {data with weight:=max.weight, oratio:=max.oratio, cratio:=max.oratio}
  else if data.oratio=max.oratio then
    {data with weight:=one.weight, oratio:=one.oratio, cratio:=one.oratio}
  else data

def swapOrsum (max : TfwRatioSrvData) (orsum : Nat) (data : TfwRatioSrvData) : Nat :=
  if data.oratio=1 then add 64 orsum (max.oratio-1)
  else if data.oratio=max.oratio then sub 64 orsum (max.oratio-1)
  else orsum

def innerBounds (maxRatio : Nat) : List TfwRatioSrvData → Nat → Nat → Nat×Nat
  | [], _, left => (left,0)
  | data::rest, si, left =>
    if data.oratio=maxRatio then innerBounds maxRatio rest (si+1) (si+1)
    else if data.oratio=1 then (left,si-1)
    else innerBounds maxRatio rest (si+1) left

def reverseSdidx : Nat → List TfwRatioSrvData → Nat → Nat → List TfwRatioSrvData
  | 0, srvdata, _, _ => srvdata
  | n+1, srvdata, left, right =>
    if left<right then
      let l := srvdata.getD left {}
      let r := srvdata.getD right {}
      let srvdata := srvdata.set left {l with sdidx:=r.sdidx}
      let srvdata := srvdata.set right {r with sdidx:=l.sdidx}
      reverseSdidx n srvdata (left+1) (right-1)
    else srvdata

/-- `tfw_sched_ratio_calc_dynamic` for the times that the APM module gives -/
def schedRatioCalcDynamic (ks : KernelSort) (weights : List Nat) : TfwRatioData :=
  let srvdata := initSrvdata weights
  let maxIdx := maxValIdx srvdata
  let (diff,srvdata) := schedRatioCalc srvdata (sumWgt weights) maxIdx
  let orsum := sumRatio srvdata
  if !diff then rtodata srvdata orsum
  else
    let one := srvdata.getD (oneValIdx srvdata) {}
    let max := srvdata.getD maxIdx {}
    if one.oratio=1 then
      let orsum := srvdata.foldl (swapOrsum max) orsum
      let srvdata := ks.sort (srvdata.map (swapOneMax one max))
      let (left,right) := innerBounds max.oratio srvdata 0 0
      rtodata (reverseSdidx srvdata.length srvdata left right) orsum
    else
      let srvdata := ks.sort srvdata
      rtodata (reverseSdidx srvdata.length srvdata 0 (srvdata.length-1)) orsum

namespace TfwRatioData
variable (d : TfwRatioData)
def setCratio (si cratio : Nat) : TfwRatioData :=
  {d with srvdata:=Function.update d.srvdata si {d.srvdata si with cratio}}

def isSrvTurn (csidx : Nat) : Bool :=
  if csidx=0 then true
  else
    let last := d.srvdata (d.srvN-1)
    let headsum2 := trunc 64
      (add 32 (d.srvdata 0).cratio (d.srvdata (csidx-1)).cratio*csidx)
    let tailsum2 := trunc 64
      (add 32 (d.srvdata csidx).cratio (if last.cratio≠0 then last.cratio else last.oratio) *
        (d.srvN-csidx))
    headsum2<trunc 64 (tailsum2*d.riter)

/-- The server at `csidx` is chosen. -/
def chooseSrv (csidx : Nat) : Except RatioStop (Nat×TfwRatioData) :=
  let d := d.setCratio csidx (sub 32 (d.srvdata csidx).cratio 1)
  let d := {d with crsum:=sub 64 d.crsum 1}
  let chosen := (d.srvdata csidx).sdidx
  if d.crsum=0 then .ok (chosen,{d with csidx:=0, riter:=1, crsum:=d.orsum, reidx:=0})
  else
    let d := {d with csidx:=d.csidx+1}
    if d.csidx=d.srvN then
      if d.reidx≠d.srvN then .error .bug else .ok (chosen,{d with csidx:=0, riter:=1})
    else .ok (chosen,d)

/-- The second part of a turn of `tfw_sched_ratio_next_srv` -/
def trySrv (csidx : Nat) : Except RatioStop (Option Nat×TfwRatioData) :=
  if d.isSrvTurn csidx then do
    let (chosen,d) ← d.chooseSrv csidx
    return (some chosen,d)
  else .ok (none,{d with csidx:=0, riter:=add 32 d.riter 1})

/-- `tfw_sched_ratio_next_srv` from `retry` to the next `goto retry`, which gives `none`, or to the
`return` -/
def nextSrvStep : Except RatioStop (Option Nat×TfwRatioData) :=
  let csidx := d.csidx
  if (d.srvdata csidx).cratio=0 then
    if d.reidx≠csidx then
      let d := {d with csidx:=d.csidx+1}
      .ok (none,if d.csidx=d.srvN then {d with csidx:=0, riter:=1} else d)
    else
      let d := d.setCratio csidx (d.srvdata csidx).oratio
      trySrv {d with reidx:=d.reidx+1} csidx
  else d.trySrv csidx

def nextSrvLoop : Nat → TfwRatioData → Except RatioStop (Nat×TfwRatioData)
  | 0, _ => .error .fuel
  | n+1, d => do
    match ← d.nextSrvStep with
    | (some chosen,d) => .ok (chosen,d)
    | (none,d) => nextSrvLoop n d

def nextSrv : Except RatioStop (Nat×TfwRatioData) := nextSrvLoop (3*d.srvN+3) d
end TfwRatioData
end VetWaf.Ratio
