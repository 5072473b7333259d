import VetWaf.Lib.SlotRing
import VetWaf.Lib.Word

namespace VetWaf.Filter
open List Function Word Nat

structure TimeSlot where
  counter : Nat := 0
  ts : Nat := 0

def timeSlotsCnt : Nat := 8
def slotTs (hz jiffies : Nat) : Nat := trunc 64 (jiffies*timeSlotsCnt)/hz
def renewSlot (ts : Nat) (slot : TimeSlot) : TimeSlot := if slot.ts≠ts then {counter:=0, ts:=trunc 32 ts} else slot

def countEvent (ts : Nat) (slots : Nat → TimeSlot) : Nat → TimeSlot :=
  let slot := renewSlot ts (slots (ts%timeSlotsCnt))
  update slots (ts%timeSlotsCnt) {slot with counter:=add 32 slot.counter 1}

def sumSlots (ts : Nat) (slots : Nat → TimeSlot) : Nat := (range timeSlotsCnt).foldl (fun sum i =>
    if ts≤add 32 (slots i).ts timeSlotsCnt then add 32 sum (slots i).counter else sum) 0

def tfCalcRate (hz : Nat) (slots : Nat → TimeSlot) (jiffies : Nat) : Nat×(Nat → TimeSlot) :=
  let ts := slotTs hz jiffies
  let slots := countEvent ts slots
  (sumSlots ts slots,slots)

def slotsAfter (hz : Nat) (times : List Nat) : Nat → TimeSlot :=
  times.foldl (fun slots jiffies => (tfCalcRate hz slots jiffies).2) fun _ => {}

def RateCounted (slots : Nat → TimeSlot) (now : Nat) (log : List Nat) : Prop :=
  SlotRing.Counts timeSlotsCnt (2^32) (fun j => (slots j).ts) (fun j (_ : Unit) => (slots j).counter) now
    (log.map (·,()))

section
variable {slots : Nat → TimeSlot} {ts now : Nat} {log : List Nat}
lemma ts_renewSlot (slot : TimeSlot) (ht : ts<2^32) : (renewSlot ts slot).ts=ts := by
  by_cases hs : slot.ts=ts
  · simp [renewSlot,hs]
  · simp [renewSlot,hs,trunc_of_lt ht]

lemma counter_renewSlot (slot : TimeSlot) : (renewSlot ts slot).counter=if slot.ts≠ts then 0 else slot.counter := by
  by_cases hs : slot.ts=ts
  · simp [renewSlot,hs]
  · simp [renewSlot,hs]

lemma RateCounted.countEvent (h : RateCounted slots now log) (hn : now≤ts) (ht : ts<2^32) :
    RateCounted (countEvent ts slots) ts (log++[ts]) := by
  -- the slot is renewed and then counts the event
  let renewed := update slots (ts%timeSlotsCnt) (renewSlot ts (slots (ts%timeSlotsCnt)))
  have hst : (fun j => (renewed j).ts)=update (fun j => (slots j).ts) (ts%timeSlotsCnt) ts := by
    funext j
    by_cases hj : j=ts%timeSlotsCnt
    · subst hj
      simp [renewed,ts_renewSlot _ ht]
    · simp [renewed,hj]
  have hr : RateCounted renewed ts log := by
    refine SlotRing.Counts.take h (by decide) hn hst ?_
    intro j _
    by_cases hj : j=ts%timeSlotsCnt
    · subst hj
      simp [renewed,counter_renewSlot]
    · simp [renewed,hj]
  have hs : (renewed (ts%timeSlotsCnt)).ts=ts := by simp [renewed,ts_renewSlot _ ht]
  have hk : (fun j => (Filter.countEvent ts slots j).ts)=fun j => (renewed j).ts := by
    funext j
    by_cases hj : j=ts%timeSlotsCnt
    · simp [renewed,Filter.countEvent,hj]
    · simp [renewed,Filter.countEvent,hj]
  unfold RateCounted
  rw [hk,map_append]
  refine SlotRing.Counts.count hr hs ?_
  intro j _
  by_cases hj : j=ts%timeSlotsCnt
  · simp [renewed,Filter.countEvent,hj,add,trunc]
  · simp [renewed,Filter.countEvent,hj]

lemma foldl_add_eq (p : Nat → Prop) [DecidablePred p] (f : Nat → Nat) (l : List Nat) (sum : Nat) :
    (l.foldl (fun sum i => if p i then add 32 sum (f i) else sum) sum)%2^32 =
      (sum+(l.map fun i => if p i then f i else 0).sum)%2^32 := by
  induction l generalizing sum with
  | nil => simp
  | cons i l ih =>
    rw [foldl_cons,ih,map_cons,sum_cons]
    by_cases hp : p i
    · rw [if_pos hp,if_pos hp,add,trunc,mod_add_mod,add_assoc]
    · rw [if_neg hp,if_neg hp,zero_add]

lemma sumSlots_lt (ts : Nat) (slots : Nat → TimeSlot) : sumSlots ts slots<2^32 := by
  refine foldlRecOn (motive := fun sum => sum<2^32) _ _ (by decide) ?_
  intro sum hs i _
  split_ifs
  · exact trunc_lt 32 _
  · exact hs

lemma RateCounted.sumSlots_eq (h : RateCounted slots ts log) (hse : (slots (ts%timeSlotsCnt)).ts=ts)
    (ht : ts+timeSlotsCnt<2^32) : sumSlots ts slots=(log.countP fun t => ts<t+timeSlotsCnt)%2^32 := by
  have hs : sumSlots ts slots%2^32=((range timeSlotsCnt).map fun j =>
      if ts<(slots j).ts+timeSlotsCnt then (slots j).counter else 0).sum%2^32 := by
    rw [sumSlots,foldl_add_eq,zero_add]
    refine congrArg (·.sum%2^32) (map_congr_left fun j hj => ?_)
    have hj := mem_range.1 hj
    have ha := (h.stamp j hj).1
    rw [add_of_lt (show (slots j).ts+timeSlotsCnt<2^32 by omega)]
    obtain hlt | heq | hgt := lt_trichotomy ts ((slots j).ts+timeSlotsCnt)
    · rw [if_pos hlt.le,if_pos hlt]
    · rw [if_pos heq.le,if_neg (not_lt.2 heq.ge)]
      exact h.cnt_aged (by decide) hse hj heq.symm ()
    · rw [if_neg (by omega),if_neg (by omega)]
  have hc := h.sum_mod (by decide) ()
  rw [countP_map] at hc
  rw [← mod_eq_of_lt (sumSlots_lt ts slots),hs,hc]
  refine congrArg (· % 2^32) (countP_congr fun t _ => ?_)
  simp

lemma counted_slotsAfter (hz : Nat) {times : List Nat} (hs : (times.map (slotTs hz)).Pairwise (· ≤ ·))
    (hlt : ∀t∈times,slotTs hz t<2^32) (hn : ∀t∈times,slotTs hz t≤now) :
    RateCounted (slotsAfter hz times) now (times.map (slotTs hz)) := by
  induction times using reverseRecOn generalizing now with
  | nil => exact (SlotRing.Counts.empty _ _).mono zero_le
  | append_singleton times t ih =>
    rw [map_append,pairwise_append] at hs
    have hm : t∈times++[t] := mem_append_right _ (.head _)
    have hb := ih hs.1 (fun t' ht' => hlt t' (mem_append_left _ ht'))
      (fun t' ht' => hs.2.2 _ (mem_map_of_mem ht') _ (.head _))
    rw [slotsAfter,foldl_append,map_append]
    exact (hb.countEvent le_rfl (hlt t hm)).mono (hn t hm)

lemma slotTs_eq {hz jiffies : Nat} (hh : 0<hz) (hh' : hz≤2^32)
    (hlt : jiffies*timeSlotsCnt/hz<2^32-8) : slotTs hz jiffies=jiffies*timeSlotsCnt/hz := by
  have hp := (div_lt_iff_lt_mul hh).1 hlt
  have hb : (2^32-8)*hz≤(2^32-8)*2^32 := mul_le_mul_left _ hh'
  rw [slotTs,trunc_of_lt (by omega)]

end

/-- After every event the rate is the number of events in the last `TF_FILTER_TIME_SLOTS_CNT` slots, the current
one included, as a 32-bit number. -/
theorem tfCalcRate_exact (hz : Nat) (hhz : 0<hz) (hhz' : hz≤2^32) (times : List Nat) (now : Nat)
    (hsorted : (times++[now]).Pairwise (· ≤ ·)) (hlt : ∀t∈times++[now],t*timeSlotsCnt/hz<2^32-8) :
    (tfCalcRate hz (slotsAfter hz times) now).1=((times++[now]).countP fun t =>
      now*timeSlotsCnt/hz<t*timeSlotsCnt/hz+timeSlotsCnt)%2^32 := by
  have hs : ∀t∈times++[now],slotTs hz t=t*timeSlotsCnt/hz := fun t ht => slotTs_eq hhz hhz' (hlt t ht)
  have hm : now∈times++[now] := mem_append_right _ (.head _)
  have hb : ∀t∈times++[now],slotTs hz t<2^32 := by
    intro t ht
    have := hlt t ht
    rw [hs t ht]
    omega
  have hst : ((times++[now]).map (slotTs hz)).Pairwise (· ≤ ·) := by
    refine pairwise_map.2 (hsorted.imp_of_mem fun {t t'} ht ht' hle => ?_)
    rw [hs t ht,hs t' ht']
    exact Nat.div_le_div_right (Nat.mul_le_mul_right _ hle)
  rw [map_append,pairwise_append] at hst
  have hbe : RateCounted (slotsAfter hz times) (slotTs hz now) (times.map (slotTs hz)) :=
    counted_slotsAfter hz hst.1 (fun t ht => hb t (mem_append_left _ ht))
      (fun t ht => hst.2.2 _ (mem_map_of_mem ht) _ (.head _))
  have hc := hbe.countEvent le_rfl (hb now hm)
  have hse : (countEvent (slotTs hz now) (slotsAfter hz times) (slotTs hz now%timeSlotsCnt)).ts=slotTs hz now := by
    simp [countEvent,ts_renewSlot _ (hb now hm)]
  have hr : slotTs hz now+timeSlotsCnt<2^32 := by
    have := hlt now hm
    rw [hs now hm]
    unfold timeSlotsCnt at *
    omega
  rw [tfCalcRate,hc.sumSlots_eq hse hr,← map_singleton,← map_append,countP_map]
  refine congrArg (· % 2^32) (countP_congr fun t ht => ?_)
  simp [hs t ht,hs now hm]

theorem tfCalcRate_exact_run : (tfCalcRate 100 (slotsAfter 100 [0,30,30,100,113]) 120).1=5 := by
  rw [tfCalcRate_exact 100 (by decide) (by decide) _ _ (by decide) (by decide)]
  decide
end VetWaf.Filter
