import VetWaf.H2.Frame
import VetWaf.Frang.RateCount

namespace VetWaf.H2
open Frang List Function Word Nat

/-- A slot of `ctx->stat` -/
structure CtrlFrameStat where
  ts : Nat := 0
  cnt : TfwFrameType → Nat := fun _ => 0

variable (hz mul : Nat)

/-- A frame is counted in the slot of its time stamp. -/
def countFrame (type : TfwFrameType) (ts : Nat) (stat : Nat → CtrlFrameStat) : Nat → CtrlFrameStat :=
  let i := ts%frangFreq
  let slot := stat i
  let slot := if slot.ts≠ts then {ts:=trunc 32 ts, cnt:=update slot.cnt type 0} else slot
  update stat i {slot with cnt:=update slot.cnt type ((slot.cnt type+1)%2^32)}

def frameSum (type : TfwFrameType) (ts : Nat) (stat : Nat → CtrlFrameStat) : Nat :=
  ((range frangFreq).map fun j => if frangTimeInFrame ts (stat j).ts then (stat j).cnt type else 0).sum%2^32

def ctrlFrameRateLimit (type : TfwFrameType) (limit jiffies : Nat) (stat : Nat → CtrlFrameStat) :
    Bool×(Nat → CtrlFrameStat) :=
  let ts := frangTlsQuantum hz jiffies
  let stat := countFrame type ts stat
  (!decide (limit*mul%2^32<frameSum type ts stat),stat)

def frameRateLimit : TfwFrameType → Option Nat
  | .ping => some 100
  | .settings => some 5
  | .rstStream => some 5
  | .priority => some 30
  | _ => none

def ctrlFrameLimit (stat : Nat → CtrlFrameStat) (f : Nat×TfwFrameType) (wndUpdate : Bool) :
    Bool×(Nat → CtrlFrameStat) :=
  match frameRateLimit f.2 with
  | some limit => ctrlFrameRateLimit hz mul f.2 limit f.1 stat
  | none => (f.2≠.windowUpdate || wndUpdate,stat)

def ctrlFrameRun (frames : List (Nat×TfwFrameType)) : Nat → CtrlFrameStat :=
  frames.foldl (fun stat f => (ctrlFrameLimit hz mul stat f true).2) fun _ => {}

def limitedFrames (frames : List (Nat×TfwFrameType)) : List (Nat×TfwFrameType) :=
  (frames.filter fun f => (frameRateLimit f.2).isSome).map fun f => (f.1*frangFreq/hz,f.2)

/-- Frames of two types that share a slot are of one quantum. -/
abbrev Apart (log : List (Nat×TfwFrameType)) : Prop := ∀x∈log,∀y∈log,x.2≠y.2 → x.1%frangFreq=y.1%frangFreq → x.1=y.1

def Counted (stat : Nat → CtrlFrameStat) (now : Nat) (log : List (Nat×TfwFrameType)) : Prop :=
  SlotRing.Counts frangFreq (2^32) (fun j => (stat j).ts) (fun j => (stat j).cnt) now log

variable {hz mul} {stat : Nat → CtrlFrameStat} {now t limit : Nat} {log : List (Nat×TfwFrameType)} {type : TfwFrameType}
abbrev Early (hz t : Nat) : Prop := t*frangFreq<2^64 ∧ t*frangFreq/hz<2^32
lemma Early.quantum (h : Early hz t) : frangTlsQuantum hz t=t*frangFreq/hz := by rw [frangTlsQuantum,trunc_of_lt h.1]

lemma Counted.step (h : Counted stat now log) (ht : Early hz t) (hn : now≤t*frangFreq/hz)
    (hap : Apart (log++[(t*frangFreq/hz,type)])) :
    Counted (countFrame type (t*frangFreq/hz) stat) (t*frangFreq/hz) (log++[(t*frangFreq/hz,type)]) := by
  simp only [countFrame,trunc_of_lt ht.2]
  generalize t*frangFreq/hz=c at hn hap ⊢
  -- the counters of the other types, which stay, are 0 if the slot was another quantum's
  have hst : ∀k,k≠type → (stat (c%frangFreq)).ts≠c → (stat (c%frangFreq)).cnt k=0 := by
    intro k hk hts
    rw [h.cnt (c%frangFreq) (mod_lt _ (by decide)) k,countP_eq_zero.2,zero_mod]
    intro e he hm
    simp only [decide_eq_true_eq] at hm
    have hs := hap e (mem_append_left _ he) (c,type) (by simp) (hm.2.2 ▸ hk) hm.2.1
    exact hts (hm.1.symm.trans hs)
  have hta := SlotRing.Counts.take h (by decide) hn rfl fun _ _ => rfl
  unfold Counted
  convert hta.count (update_self ..) (k := type) fun _ _ => rfl using 1
  · funext j
    by_cases hj : j=c%frangFreq
    · subst hj
      by_cases hts : (stat (c%frangFreq)).ts=c <;> simp [hts]
    · simp [hj]
  · funext j k
    by_cases hj : j=c%frangFreq
    · subst hj
      by_cases hk : k=type
      · by_cases hts : (stat (c%frangFreq)).ts=c <;> simp [hts,hk]
      · by_cases hts : (stat (c%frangFreq)).ts=c
        · simp [hts,hk]
        · simp [hts,hk,hst k hk hts]
    · simp [hj]

lemma Counted.frameSum (h : Counted stat (t*frangFreq/hz) log) (ht : Early hz t) (hl : log.length<2^32) :
    frameSum type (t*frangFreq/hz) stat=log.countP fun e => t*frangFreq/hz<e.1+frangFreq ∧ e.2=type := by
  have hlt := (countP_le_length (p := fun e => decide (t*frangFreq/hz<e.1+frangFreq ∧ e.2=type))).trans_lt hl
  have hf : ∀j∈range frangFreq,(if frangTimeInFrame (t*frangFreq/hz) (stat j).ts then (stat j).cnt type
      else 0)=if t*frangFreq/hz<(stat j).ts+frangFreq then (stat j).cnt type else 0 := by
    intro j hj
    rw [frangTimeInFrame_eq (h.stamp j (mem_range.1 hj)).1 (ht.2.trans (by decide))]
    simp only [decide_eq_true_eq]
  rw [H2.frameSum,map_congr_left hf,h.sum_eq (by decide) type hlt,mod_eq_of_lt hlt]

lemma limitedFrames_append (hz : Nat) (frames : List (Nat×TfwFrameType)) (t : Nat) (type : TfwFrameType) :
    limitedFrames hz (frames++[(t,type)])=limitedFrames hz frames ++
      if (frameRateLimit type).isSome then [(t*frangFreq/hz,type)] else [] := by
  cases h : (frameRateLimit type).isSome <;> simp [limitedFrames,h]

lemma counted_run {frames : List (Nat×TfwFrameType)} (hs : frames.Pairwise fun x y => x.1≤y.1)
    (he : ∀f∈frames,Early hz f.1) (hap : Apart (limitedFrames hz frames)) {c : Nat}
    (hc : ∀f∈frames,f.1*frangFreq/hz≤c) : Counted (ctrlFrameRun hz mul frames) c (limitedFrames hz frames) := by
  induction frames using reverseRecOn generalizing c with
  | nil => exact (SlotRing.Counts.empty ..).mono zero_le
  | append_singleton frames f ih =>
    obtain ⟨t,type⟩ := f
    rw [limitedFrames_append] at hap ⊢
    have hr : ∀{c : Nat},(∀f∈frames,f.1*frangFreq/hz≤c) →
        Counted (ctrlFrameRun hz mul frames) c (limitedFrames hz frames) :=
      ih (pairwise_append.1 hs).1 (fun f hf => he f (mem_append_left _ hf)) fun x hx y hy =>
        hap x (mem_append_left _ hx) y (mem_append_left _ hy)
    rw [ctrlFrameRun,foldl_append,foldl_cons,foldl_nil,← ctrlFrameRun,ctrlFrameLimit]
    cases hl : frameRateLimit type with
    | none =>
      simp only [hl,Option.isSome_none,Bool.false_eq_true,if_false,append_nil] at hap ⊢
      exact hr fun f hf => hc f (mem_append_left _ hf)
    | some limit =>
      simp only [hl,Option.isSome_some,if_true] at hap ⊢
      have hla : ∀f∈frames,f.1*frangFreq/hz≤t*frangFreq/hz := fun f hf =>
        Nat.div_le_div_right (Nat.mul_le_mul_right _ ((pairwise_append.1 hs).2.2 f hf _ (mem_singleton_self _)))
      have ht : Early hz t := he (t,type) (by simp)
      rw [ctrlFrameRateLimit,ht.quantum]
      exact ((hr hla).step ht le_rfl hap).mono (hc (t,type) (by simp))

/-- A control frame is refused if and only if there are more frames of its type than the limit, when no slot is shared
by frames of two types and different quanta. -/
theorem ctrl_frames_limited {frames : List (Nat×TfwFrameType)} {wndUpdate : Bool}
    (htype : frameRateLimit type=some limit) (hsorted : (frames++[(t,type)]).Pairwise fun x y => x.1≤y.1)
    (hearly : ∀f∈frames++[(t,type)],Early hz f.1) (hapart : Apart (limitedFrames hz (frames++[(t,type)])))
    (hlen : frames.length+1<2^32) : (ctrlFrameLimit hz mul (ctrlFrameRun hz mul frames) (t,type) wndUpdate).1=false ↔
      limit*mul%2^32<(limitedFrames hz (frames++[(t,type)])).countP fun e =>
        t*frangFreq/hz<e.1+frangFreq ∧ e.2=type := by
  have hc : Counted (ctrlFrameRun hz mul (frames++[(t,type)])) (t*frangFreq/hz)
      (limitedFrames hz (frames++[(t,type)])) := by
    refine counted_run hsorted hearly hapart fun f hf => Nat.div_le_div_right (Nat.mul_le_mul_right _ ?_)
    obtain hf | hf := mem_append.1 hf
    · exact (pairwise_append.1 hsorted).2.2 f hf _ (mem_singleton_self _)
    · rw [mem_singleton.1 hf]
  have ht : Early hz t := hearly (t,type) (by simp)
  have hl : (limitedFrames hz (frames++[(t,type)])).length<2^32 := by
    rw [limitedFrames,length_map]
    exact (length_filter_le ..).trans_lt (by simpa using hlen)
  rw [ctrlFrameRun,foldl_append,foldl_cons,foldl_nil,← ctrlFrameRun] at hc
  simp only [ctrlFrameLimit,htype,ctrlFrameRateLimit,ht.quantum] at hc ⊢
  rw [hc.frameSum ht hl]
  simp

/-- The sixth SETTINGS frame is refused and the fourth PING frame is not. -/
theorem ctrl_frames_limited_mixed :
    let frames := replicate 3 (9,.settings)++[(9,.ping),(9,.data),(9,.priority)]++replicate 2 (10,.settings)++
      replicate 2 (10,.ping)
    (ctrlFrameLimit 8 1 (ctrlFrameRun 8 1 frames) (10,.settings) true).1=false ∧
      (ctrlFrameLimit 8 1 (ctrlFrameRun 8 1 frames) (10,.ping) true).1≠false :=
  ⟨(ctrl_frames_limited rfl (by decide) (by decide) (by decide) (by decide)).2 (by decide),
    fun h => absurd ((ctrl_frames_limited rfl (by decide) (by decide) (by decide) (by decide)).1 h) (by decide)⟩

/-- The counter of SETTINGS frames is five from eight quanta ago when a PING frame takes the slot. -/
theorem ctrl_frames_stale_count : let frames := replicate 5 (8,.settings)++[(16,.ping)]
    (ctrlFrameLimit 8 1 (ctrlFrameRun 8 1 frames) (16,.settings) true).1=false ∧
      (limitedFrames 8 (frames++[(16,.settings)])).countP (fun e => 16*frangFreq/8<e.1+frangFreq ∧
        e.2=.settings)=1 := by
  decide +kernel
end VetWaf.H2
