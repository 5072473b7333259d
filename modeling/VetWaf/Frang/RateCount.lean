import VetWaf.Frang.Limits
import VetWaf.Lib.SlotRing

namespace VetWaf.Frang
open Word List SlotRing Function FrangEvent Nat

def FrangEvent.counter : FrangEvent → Option FrangCounter
  | .conn => some .connNew
  | .connWhitelisted => some .connNew
  | .connClose => none
  | .req => some .req
  | .tls .finishedNew => some .tlsSessNew
  | .tls .incomplete => some .tlsSessIncomplete
  | .tls _ => none

/-- `frang_req_limit` counts only when there is a limit. -/
def FrangEvent.usesHistory (conf : FrangGlobCfg) : FrangEvent → Bool
  | .connClose => false
  | .req => conf.reqBurst≠0 || conf.reqRate≠0
  | _ => true

def FrangEvent.stamp (hz : Nat) (conf : FrangGlobCfg) (jiffies : Nat) : FrangEvent → Nat
  | .conn => frangTimeQuantum jiffies conf.connRateTf
  | .req => frangTimeQuantum jiffies conf.reqRateTf
  | _ => frangTlsQuantum hz jiffies

/-- The quantum of the time frame of the limit that an event is subject to. -/
def FrangEvent.quantum (hz : Nat) (conf : FrangGlobCfg) (jiffies : Nat) : FrangEvent → Nat
  | .conn => jiffies/conf.connRateTf
  | .req => jiffies/conf.reqRateTf
  | _ => jiffies*frangFreq/hz

/-- The events under the limit of `e` whose quantum is the current one -/
def inQuantum (hz : Nat) (conf : FrangGlobCfg) (e : FrangEvent) (t : Nat) (events : List (Nat×FrangEvent)) : Nat :=
  events.countP fun x => x.2.counter=e.counter ∧ e.quantum hz conf x.1=e.quantum hz conf t

/-- The events under the limit of `e` whose quantum is one of the last `FRANG_FREQ` at time `t` -/
def inFrame (hz : Nat) (conf : FrangGlobCfg) (e : FrangEvent) (t : Nat) (events : List (Nat×FrangEvent)) : Nat :=
  events.countP fun x => x.2.counter=e.counter ∧ e.quantum hz conf t<e.quantum hz conf x.1+frangFreq

/-- What the limit of an event is to be decided from. -/
def overLimit (hz : Nat) (conf : FrangGlobCfg) (connCurr t : Nat) (events : List (Nat×FrangEvent)) : FrangEvent → Bool
  | .conn =>
    exceeds conf.connMax connCurr || exceeds conf.connBurst (inQuantum hz conf .conn t events) ||
      exceeds conf.connRate (inFrame hz conf .conn t events)
  | .req =>
    exceeds conf.reqBurst (inQuantum hz conf .req t events) || exceeds conf.reqRate (inFrame hz conf .req t events)
  | .tls .finishedNew =>
    exceeds conf.tlsNewConnBurst (inQuantum hz conf (.tls .finishedNew) t events) ||
      exceeds conf.tlsNewConnRate (inFrame hz conf (.tls .finishedNew) t events)
  | .tls .incomplete => exceeds conf.tlsIncompleteConnRate (inFrame hz conf (.tls .incomplete) t events)
  | .tls .unknown => true
  | _ => false

/-- All events that use the history have the same quanta at the times of the run. -/
def sharedQuanta (hz : Nat) (conf : FrangGlobCfg) (events : List (Nat×FrangEvent)) : Bool :=
  events.all fun x => events.all fun y => events.all fun z =>
    !x.2.usesHistory conf || !y.2.usesHistory conf || x.2.stamp hz conf z.1 == y.2.quantum hz conf z.1

section
variable {ra : FrangAcc} {now c : Nat} {log : List (Nat×FrangCounter)}
def FrangAcc.Counts (ra : FrangAcc) (now : Nat) (log : List (Nat×FrangCounter)) : Prop :=
  SlotRing.Counts frangFreq (2^32) (fun j => (ra.history j).ts) (fun j => (ra.history j).count) now log

lemma history_initSlot (ra : FrangAcc) (c : Nat) : (fun j => ((ra.initSlot c).history j).ts) =
        update (fun j => (ra.history j).ts) (c%frangFreq) c ∧ ∀j k,((ra.initSlot c).history j).count k =
        if j=c%frangFreq ∧ (ra.history j).ts≠c then 0 else (ra.history j).count k := by
  unfold FrangAcc.initSlot
  by_cases hs : (ra.history (c%frangFreq)).ts=c
  · simp only [hs,ne_eq,not_true,if_false]
    refine ⟨?_,?_⟩
    · rw [eq_comm,update_eq_self_iff,hs]
    · intro j k
      rw [if_neg]
      intro ⟨hj,hne⟩
      exact hne (hj ▸ hs)
  · simp only [hs,ne_eq,not_false_eq_true,if_true]
    refine ⟨?_,?_⟩
    · funext j
      by_cases hj : j=c%frangFreq
      · simp [hj]
      · simp [hj]
    · intro j k
      by_cases hj : j=c%frangFreq
      · simp [hj,hs]
      · simp [hj]

lemma FrangAcc.Counts.initSlot (h : ra.Counts now log) (hc : now≤c) : (ra.initSlot c).Counts c log :=
  SlotRing.Counts.take h (by decide) hc (history_initSlot ra c).1 (history_initSlot ra c).2

lemma ts_initSlot (ra : FrangAcc) (c : Nat) : ((ra.initSlot c).history (c%frangFreq)).ts=c := by
  have ht := congrFun (history_initSlot ra c).1 (c%frangFreq)
  rwa [update_self] at ht

lemma ts_inc (ra : FrangAcc) (c : Nat) (k : FrangCounter) (j : Nat) :
    ((ra.inc c k).history j).ts=(ra.history j).ts := by
  unfold FrangAcc.inc
  by_cases hj : j=c%frangFreq
  · simp [hj]
  · simp [hj]

lemma FrangAcc.Counts.inc (h : ra.Counts c log) (hs : (ra.history (c%frangFreq)).ts=c)
    (k : FrangCounter) : (ra.inc c k).Counts c (log++[(c,k)]) := by
  have ht : (fun j => ((ra.inc c k).history j).ts)=fun j => (ra.history j).ts := funext (ts_inc ra c k)
  unfold FrangAcc.Counts
  rw [ht]
  refine SlotRing.Counts.count h hs ?_
  intro j k'
  unfold FrangAcc.inc
  by_cases hj : j=c%frangFreq
  · by_cases hk : k'=k
    · simp [hj,hk,add,trunc]
    · simp [hj,hk]
  · simp [hj]

lemma FrangAcc.Counts.event (h : ra.Counts now log) (hc : now≤c) (k : FrangCounter) :
    ((ra.initSlot c).inc c k).Counts c (log++[(c,k)]) := (h.initSlot hc).inc (ts_initSlot ra c) k

end

section
variable {hz : Nat} {conf : FrangGlobCfg} {clock : Nat → Nat}
lemma snd_frangConnLimit (conf : FrangGlobCfg) (t : Nat) (ra : FrangAcc) : (frangConnLimit conf t ra).2 =
      ra.frangAccHistoryInit (frangTimeQuantum t conf.connRateTf) := by
  simp only [frangConnLimit]
  split_ifs <;> rfl

lemma snd_frangReqLimit {reqBurst reqRate : Nat} (hs : ¬(reqBurst=0 ∧ reqRate=0)) (tf t : Nat) (ra : FrangAcc) :
    (frangReqLimit reqBurst reqRate tf t ra).2 =
      (ra.initSlot (frangTimeQuantum t tf)).inc (frangTimeQuantum t tf) .req := by
  simp only [frangReqLimit,if_neg hs]
  split_ifs <;> rfl

lemma snd_frangTlsConnLimit (hz : Nat) (conf : FrangGlobCfg) (st : HsCb) (t : Nat) (ra : FrangAcc) :
    (frangTlsConnLimit hz conf st t ra).2 = match (tls st).counter with
      | some k => (ra.initSlot (frangTlsQuantum hz t)).inc (frangTlsQuantum hz t) k
      | none => ra.initSlot (frangTlsQuantum hz t) := by
  cases st with
  | finishedNew =>
    simp only [frangTlsConnLimit,counter]
    split_ifs <;> rfl
  | finishedResumed => rfl
  | incomplete =>
    simp only [frangTlsConnLimit,counter]
    split_ifs <;> rfl
  | unknown => rfl

def counted (conf : FrangGlobCfg) (clock : Nat → Nat) (events : List (Nat×FrangEvent)) : List (Nat×FrangCounter) :=
  events.filterMap fun x => if x.2.usesHistory conf then x.2.counter.map fun k => (clock x.1,k) else none

variable {t : Nat} {e : FrangEvent} {events : List (Nat×FrangEvent)} {k : FrangCounter}
lemma counts_frangEvent {ra : FrangAcc} {now : Nat}
    {log : List (Nat×FrangCounter)} (h : ra.Counts now log) (hc : now≤clock t)
    (hst : e.usesHistory conf=true → e.stamp hz conf t=clock t) :
    (frangEvent hz conf t ra e).2.Counts (clock t) (log++counted conf clock [(t,e)]) := by
  cases e with
  | conn =>
    have ht : frangTimeQuantum t conf.connRateTf=clock t := hst rfl
    rw [frangEvent,snd_frangConnLimit,ht]
    exact h.event hc .connNew
  | connWhitelisted =>
    have ht : frangTlsQuantum hz t=clock t := hst rfl
    rw [frangEvent,ht]
    exact h.event hc .connNew
  | connClose =>
    have hn : counted conf clock [(t,.connClose)]=[] := rfl
    rw [hn,append_nil]
    exact SlotRing.Counts.mono h hc
  | req =>
    by_cases hs : conf.reqBurst=0 ∧ conf.reqRate=0
    · have hn : counted conf clock [(t,.req)]=[] := by simp [counted,usesHistory,hs]
      rw [hn,append_nil,frangEvent,frangReqLimit,if_pos hs]
      exact SlotRing.Counts.mono h hc
    · have hu : usesHistory conf .req=true := by
        simp only [usesHistory,Bool.or_eq_true,decide_eq_true_eq]
        tauto
      have ho : counted conf clock [(t,.req)]=[(clock t,.req)] := by simp [counted,hu,counter]
      have ht : frangTimeQuantum t conf.reqRateTf=clock t := hst hu
      rw [ho,frangEvent,snd_frangReqLimit hs,ht]
      exact h.event hc .req
  | tls st =>
    have ht : frangTlsQuantum hz t=clock t := hst rfl
    rw [frangEvent,snd_frangTlsConnLimit,ht]
    cases st with
    | finishedNew => exact h.event hc .tlsSessNew
    | finishedResumed => exact (append_nil log).symm ▸ h.initSlot hc
    | incomplete => exact h.event hc .tlsSessIncomplete
    | unknown => exact (append_nil log).symm ▸ h.initSlot hc

lemma counts_frangRun (hc : Monotone clock) (hs : events.Pairwise fun x y => x.1≤y.1) (hle : ∀x∈events,x.1≤t)
    (hst : ∀x∈events,x.2.usesHistory conf=true → x.2.stamp hz conf x.1=clock x.1) :
    (frangRun hz conf events).Counts (clock t) (counted conf clock events) := by
  induction events using reverseRecOn generalizing t with
  | nil => exact SlotRing.Counts.mono (SlotRing.Counts.empty _ _) zero_le
  | append_singleton events x ih =>
    obtain ⟨hs',-,hl⟩ := pairwise_append.1 hs
    have hp := ih hs' (fun y hy => hl y hy x (.head _)) (fun y hy => hst y (mem_append_left _ hy))
    have hsp := counts_frangEvent hp le_rfl (hst x (mem_append_right _ (.head _)))
    rw [frangRun,foldl_append,counted,filterMap_append]
    exact SlotRing.Counts.mono hsp (hc (hle x (mem_append_right _ (.head _))))

lemma frangTimeInFrame_eq {tcur tprev : Nat} (hle : tprev≤tcur) (hlt : tcur<2^63) :
    frangTimeInFrame tcur tprev=decide (tcur<tprev+frangFreq) := by
  have ha : add 64 tprev frangFreq=tprev+8 := add_of_lt (by rw [frangFreq]; omega)
  rw [frangTimeInFrame,timeBefore,ha,frangFreq]
  refine decide_eq_decide.2 ?_
  rw [sub,trunc,trunc]
  omega

lemma usesHistory_of_counter {x : FrangEvent} (he : e.counter=some k)
    (hx : x.counter=some k) (hu : e.usesHistory conf=true) : x.usesHistory conf=true := by
  cases x with
  | req =>
    cases e with
    | req => exact hu
    | conn => cases he; cases hx
    | connWhitelisted => cases he; cases hx
    | connClose => cases he
    | tls st => cases st <;> cases he <;> cases hx
  | connClose => cases hx
  | _ => rfl

lemma countP_counted (clock : Nat → Nat) (he : e.counter=some k) (hus : e.usesHistory conf=true) (p : Nat → Bool)
    (events : List (Nat×FrangEvent)) : (counted conf clock events).countP (fun x => p x.1 ∧ x.2=k) =
      events.countP fun x => x.2.counter=e.counter ∧ p (clock x.1) := by
  rw [counted,countP_filterMap]
  refine countP_congr fun x _ => ?_
  cases hx : x.2.counter with
  | none => simp [he]
  | some k' =>
    by_cases hk : k'=k
    · rw [hk] at hx
      simp [usesHistory_of_counter he hx hus,he,hk]
    · by_cases hu : x.2.usesHistory conf=true <;> simp [hu,he,hk]

lemma decided {ra : FrangAcc} (he : e.counter=some k) (hu : e.usesHistory conf=true)
    (h : ra.Counts (e.quantum hz conf t) (counted conf (fun s => e.quantum hz conf s) events))
    (hs : (ra.history (e.quantum hz conf t%frangFreq)).ts=e.quantum hz conf t)
    (hc : e.quantum hz conf t<2^63) (hlt : inFrame hz conf e t events<2^32) :
    (ra.history (e.quantum hz conf t%frangFreq)).count k=inQuantum hz conf e t events ∧
      ra.sumInFrame (e.quantum hz conf t) k=inFrame hz conf e t events := by
  have hf : (counted conf (fun s => e.quantum hz conf s) events).countP
      (fun x => e.quantum hz conf t<x.1+frangFreq ∧ x.2=k)=inFrame hz conf e t events := by
    have hco := countP_counted (fun s => e.quantum hz conf s) he hu
      (fun q => e.quantum hz conf t<q+frangFreq) events
    simpa only [decide_eq_true_eq,inFrame] using hco
  have hq : (counted conf (fun s => e.quantum hz conf s) events).countP
      (fun x => x.1=e.quantum hz conf t ∧ x.2=k)=inQuantum hz conf e t events := by
    have hco := countP_counted (fun s => e.quantum hz conf s) he hu (fun q => q=e.quantum hz conf t) events
    simpa only [decide_eq_true_eq,inQuantum] using hco
  refine ⟨?_,?_⟩
  · have hle : inQuantum hz conf e t events ≤ inFrame hz conf e t events := by
      refine countP_mono_left fun x _ hm => ?_
      simp only [decide_eq_true_eq] at hm ⊢
      exact ⟨hm.1,by rw [hm.2,frangFreq]; omega⟩
    rw [SlotRing.Counts.cnt_self h (by decide) hs,hq,mod_eq_of_lt (hle.trans_lt hlt)]
  · rw [← hf,← SlotRing.Counts.sum_eq h (by decide) k (hf ▸ hlt),FrangAcc.sumInFrame]
    refine congrArg sum (map_congr_left fun j hj => ?_)
    have hst := (h.stamp j (mem_range.1 hj)).1
    rw [frangTimeInFrame_eq hst hc]
    simp only [decide_eq_true_eq]

lemma quantum_mono (hz : Nat) (conf : FrangGlobCfg) (e : FrangEvent) : Monotone fun s => e.quantum hz conf s := by
  intro s t hst
  cases e with
  | conn => exact Nat.div_le_div_right hst
  | req => exact Nat.div_le_div_right hst
  | _ => exact Nat.div_le_div_right (Nat.mul_le_mul_right _ hst)

lemma stamp_lt (hh : 2≤hz) (conf : FrangGlobCfg) (e : FrangEvent) (t : Nat) : e.stamp hz conf t<2^63 := by
  have hq : ∀tf,frangTimeQuantum t tf<2^63 := by
    intro tf
    have hlt := trunc_lt 32 (t/tf)
    rw [frangTimeQuantum]
    omega
  have ht : frangTlsQuantum hz t<2^63 := by
    have hlt := trunc_lt 64 (t*frangFreq)
    rw [frangTlsQuantum,div_lt_iff_lt_mul (by omega)]
    omega
  cases e with
  | conn => exact hq _
  | req => exact hq _
  | _ => exact ht

lemma sharedQuanta_iff : sharedQuanta hz conf events=true ↔ ∀x∈events,∀y∈events,∀z∈events,x.2.usesHistory conf=true →
        y.2.usesHistory conf=true → x.2.stamp hz conf z.1=y.2.quantum hz conf z.1 := by
  simp only [sharedQuanta,all_eq_true,Bool.or_eq_true,Bool.not_eq_true',beq_iff_eq]
  refine forall₂_congr fun x _ => forall₂_congr fun y _ => forall₂_congr fun z _ => ?_
  cases x.2.usesHistory conf <;> cases y.2.usesHistory conf <;> simp

lemma counts_before (hus : e.usesHistory conf=true) (hso : (events++[(t,e)]).Pairwise fun x y => x.1≤y.1)
    (hs : sharedQuanta hz conf (events++[(t,e)])=true) : (frangRun hz conf events).Counts (e.quantum hz conf t)
        (counted conf (fun s => e.quantum hz conf s) events) ∧ e.stamp hz conf t=e.quantum hz conf t := by
  have hl : (t,e)∈events++[(t,e)] := mem_append_right _ (.head _)
  have hs := sharedQuanta_iff.1 hs
  obtain ⟨hs',-,hle⟩ := pairwise_append.1 hso
  refine ⟨counts_frangRun (quantum_mono hz conf e) hs' ?_ ?_,hs _ hl _ hl _ hl hus hus⟩
  · intro x hx
    exact hle x hx _ (.head _)
  · intro x hx hu
    have hx := mem_append_left [(t,e)] hx
    exact hs x hx _ hl x hx hu hus

lemma decided_last (hh : 2≤hz) (he : e.counter=some k) (hu : e.usesHistory conf=true)
    (hso : (events++[(t,e)]).Pairwise fun x y => x.1≤y.1) (hs : sharedQuanta hz conf (events++[(t,e)])=true)
    (hlt : inFrame hz conf e t (events++[(t,e)])<2^32) (ra : FrangAcc)
    (hr : ra.history=(((frangRun hz conf events).initSlot (e.stamp hz conf t)).inc (e.stamp hz conf t) k).history) :
    (ra.history (e.stamp hz conf t%frangFreq)).count k=inQuantum hz conf e t (events++[(t,e)]) ∧
      ra.sumInFrame (e.stamp hz conf t) k=inFrame hz conf e t (events++[(t,e)]) := by
  obtain ⟨hco,hst⟩ := counts_before hu hso hs
  have hc := stamp_lt hh conf e t
  rw [hst] at hr hc ⊢
  have hl : counted conf (fun s => e.quantum hz conf s) (events++[(t,e)]) =
      counted conf (fun s => e.quantum hz conf s) events++[(e.quantum hz conf t,k)] := by
    simp [counted,hu,he]
  refine decided he hu ?_ ?_ hc hlt
  · rw [hl,FrangAcc.Counts,hr]
    exact hco.event le_rfl k
  · rw [hr,ts_inc,ts_initSlot]

lemma connCurr_frangAccHistoryInit (ra : FrangAcc) (ts : Nat) :
    (ra.frangAccHistoryInit ts).connCurr=add 32 ra.connCurr 1 := by
  simp only [FrangAcc.frangAccHistoryInit,FrangAcc.inc,FrangAcc.initSlot]
  split_ifs <;> rfl

/-- Each limit is decided from the numbers of its own events in the current quantum and in the last
`FRANG_FREQ` ones. -/
theorem rate_limits_count {e : FrangEvent} {t : Nat} {events : List (Nat×FrangEvent)} (hhz : 2≤hz)
    (hsorted : (events++[(t,e)]).Pairwise fun x y => x.1≤y.1) (hshared : sharedQuanta hz conf (events++[(t,e)])=true)
    (hlt : inFrame hz conf e t (events++[(t,e)])<2^32) : (frangEvent hz conf t (frangRun hz conf events) e).1 ≠ .ok ↔
      overLimit hz conf (add 32 (frangRun hz conf events).connCurr 1) t (events++[(t,e)]) e=true := by
  cases e with
  | conn =>
    obtain ⟨hc,hs⟩ := decided_last hhz rfl rfl hsorted hshared hlt
      ((frangRun hz conf events).frangAccHistoryInit (frangTimeQuantum t conf.connRateTf)) rfl
    simp only [stamp] at hc hs
    simp only [frangEvent,frangConnLimit,hc,hs,trunc_of_lt hlt,connCurr_frangAccHistoryInit,overLimit,Bool.or_eq_true]
    split_ifs <;> simp_all
  | connWhitelisted => simp [frangEvent,overLimit]
  | connClose => simp [frangEvent,overLimit]
  | req =>
    by_cases hse : conf.reqBurst=0 ∧ conf.reqRate=0
    · simp [frangEvent,frangReqLimit,overLimit,exceeds,hse]
    · have hu : usesHistory conf .req=true := by
        simp only [usesHistory,Bool.or_eq_true,decide_eq_true_eq]
        tauto
      obtain ⟨hc,hs⟩ := decided_last hhz rfl hu hsorted hshared hlt _ rfl
      simp only [stamp] at hc hs
      simp only [frangEvent,frangReqLimit,if_neg hse,hc,hs,trunc_of_lt hlt,overLimit,Bool.or_eq_true]
      split_ifs <;> simp_all
  | tls st =>
    have hlt' : inFrame hz conf (.tls st) t (events++[(t,.tls st)])<2^64 := by omega
    cases st with
    | finishedNew =>
      obtain ⟨hc,hs⟩ := decided_last hhz rfl rfl hsorted hshared hlt _ rfl
      simp only [stamp] at hc hs
      simp only [frangEvent,frangTlsConnLimit,hc,hs,trunc_of_lt hlt',overLimit,Bool.or_eq_true]
      split_ifs <;> simp_all
    | finishedResumed => simp [frangEvent,frangTlsConnLimit,overLimit]
    | incomplete =>
      obtain ⟨-,hs⟩ := decided_last hhz rfl rfl hsorted hshared hlt _ rfl
      simp only [stamp] at hs
      simp only [frangEvent,frangTlsConnLimit,hs,trunc_of_lt hlt',overLimit]
      split_ifs <;> simp_all
    | unknown => simp [frangEvent,frangTlsConnLimit,overLimit]

end

/-- One quantum for all limits: the second request of a client is refused. -/
theorem rate_limits_count_same_frame : sharedQuanta 1000 {reqRate:=1, connRateTf:=125, reqRateTf:=125}
        [(10000,.req),(10001,.conn),(10001,.tls .finishedNew),(10002,.req)]=true ∧
      (frangEvent 1000 {reqRate:=1, connRateTf:=125, reqRateTf:=125} 10002
        (frangRun 1000 {reqRate:=1, connRateTf:=125, reqRateTf:=125}
          [(10000,.req),(10001,.conn),(10001,.tls .finishedNew)]) .req).1 ≠ .ok :=
  ⟨by decide +kernel,(rate_limits_count (by decide) (by decide +kernel) (by decide +kernel) (by decide +kernel)).2
      (by decide +kernel)⟩

/-- A connection with a longer time frame takes the slot that the requests are counted in. -/
theorem other_limit_empties_slot : overLimit 1000 {reqRate:=1, connRateTf:=1250, reqRateTf:=125} 2 10002
        [(10000,.req),(10001,.conn),(10002,.req)] .req=true ∧
      (frangEvent 1000 {reqRate:=1, connRateTf:=1250, reqRateTf:=125} 10002
        (frangRun 1000 {reqRate:=1, connRateTf:=1250, reqRateTf:=125}
          [(10000,.req),(10001,.conn)]) .req).1=.ok := by
  decide +kernel
end VetWaf.Frang
