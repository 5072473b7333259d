import VetWaf.Apm.Counters

namespace VetWaf.Apm
open Word Finset Function Nat

/-- The ranges are in order and apart from each other. -/
structure Apart (ctl : Nat → TfwPcntCtl) : Prop where
  span : ∀r<4,(ctl r).endVal=(ctl r).beginVal+15*2^(ctl r).order
  first : (ctl 0).beginVal=1
  disjoint : ∀r<3,(ctl r).endVal<(ctl (r+1)).beginVal
  fits : (ctl 3).endVal<2^32

def hits (rng : TfwPcntRanges) : Nat := ∑ r∈Finset.range statsRanges,rowSum (rng.cnt r)

variable {rng rng' : TfwPcntRanges} {ctl : Nat → TfwPcntCtl} {r rTime : Nat}
lemma apart_init : Apart rngctlInit := by
  refine ⟨?_,rfl,?_,by decide⟩
  · decide
  · decide

lemma Apart.endVal_lt (h : Apart ctl) (hr : r<4) : (ctl r).endVal<2^32 := by
  have hs := h.span
  have h0 : (ctl 0).endVal<(ctl 1).beginVal := h.disjoint 0 (by omega)
  have h1 : (ctl 1).endVal<(ctl 2).beginVal := h.disjoint 1 (by omega)
  have h2 : (ctl 2).endVal<(ctl 3).beginVal := h.disjoint 2 (by omega)
  have hs1 := hs 1 (by omega)
  have hs2 := hs 2 (by omega)
  have hs3 := hs 3 (by omega)
  have hf := h.fits
  obtain rfl | rfl | rfl | rfl := (by omega : r=0 ∨ r=1 ∨ r=2 ∨ r=3)
  all_goals omega

variable {order k : Nat}
lemma order_le_of_lt (h : 15*2^order<2^32) : order≤28 := by
  by_contra hgt
  have hp : 2^29≤2^order := Nat.pow_le_pow_right (by omega) (by omega)
  omega

lemma Apart.order_le (h : Apart ctl) (hr : r<4) : (ctl r).order≤28 := by
  have hlt := h.endVal_lt hr
  rw [h.span r hr] at hlt
  exact order_le_of_lt (by omega)

lemma Apart.rngIdx_lt (h : Apart ctl) (hr : r<4) (ht : rTime≤(ctl r).endVal) : rngIdx (ctl r) rTime<statsBckts := by
  have hs := h.span r hr
  have he := h.endVal_lt hr
  have hpo : 2^(ctl r).order≤2^28 := Nat.pow_le_pow_right (by omega) (h.order_le hr)
  have hp : 0<2^(ctl r).order := Nat.two_pow_pos _
  unfold rngIdx
  split_ifs with hle
  · decide
  · rw [Nat.one_shiftLeft,trunc_of_lt (by omega),sub_of_le (by omega) (by omega),
      sub_of_le (by omega) hp,add_of_lt (by omega),Nat.shiftRight_eq_div_pow,Nat.div_lt_iff_lt_mul hp,statsBckts]
    omega

@[simp] lemma cnt_setCnt_self (cnt : Nat → Nat) : (rng.setCnt r cnt).cnt r=cnt := update_self ..
lemma cnt_setCnt_of_ne {q : Nat} (hq : q≠r) (cnt : Nat → Nat) : (rng.setCnt r cnt).cnt q=rng.cnt q := update_of_ne hq ..

lemma hits_setCnt (rng : TfwPcntRanges) (hr : r<4) (cnt : Nat → Nat) :
    hits (rng.setCnt r cnt)+rowSum (rng.cnt r)=hits rng+rowSum cnt := by
  have hm : r∈range statsRanges := mem_range.2 hr
  have hre : ∀j∈range statsRanges \ {r},rowSum ((rng.setCnt r cnt).cnt j)=rowSum (rng.cnt j) := by
    intro j hj
    have hne : j≠r := fun heq => (mem_sdiff.1 hj).2 (mem_singleton.2 heq)
    rw [cnt_setCnt_of_ne hne]
  rw [hits,hits,← sum_sdiff (singleton_subset_iff.2 hm),
    ← sum_sdiff (singleton_subset_iff.2 hm),sum_singleton,sum_singleton,sum_congr rfl hre,cnt_setCnt_self]
  omega

lemma rowSum_le_hits (rng : TfwPcntRanges) (hr : r<4) : rowSum (rng.cnt r)≤hits rng :=
  single_le_sum (f := fun r => rowSum (rng.cnt r)) (fun _ _ => zero_le) (mem_range.2 hr)

@[simp] lemma hits_setCtl (pc : TfwPcntCtl) : hits (rng.setCtl r pc)=hits rng := rfl

lemma Apart.hit (h : Apart rng.ctl) (hr : r<4) (ht : rTime≤(rng.ctl r).endVal) :
    ∃rng',hit rng r rTime=.ok rng' ∧ rng'.ctl=rng.ctl ∧ rng'.totCnt=rng.totCnt ∧
      hits rng'=hits rng+1 ∧ 0<rowSum (rng'.cnt r) := by
  have hi := h.rngIdx_lt hr ht
  have hro := rowSum_update (rng.cnt r) hi (rng.cnt r (rngIdx (rng.ctl r) rTime)+1)
  have hs := hits_setCnt rng hr
    (Function.update (rng.cnt r) (rngIdx (rng.ctl r) rTime) (rng.cnt r (rngIdx (rng.ctl r) rTime)+1))
  refine ⟨_,if_pos hi,rfl,rfl,by omega,?_⟩
  rw [cnt_setCnt_self]
  omega

lemma Apart.update (h : Apart ctl) {pc : TfwPcntCtl}
    (hs : pc.endVal=pc.beginVal+15*2^pc.order) (hf : r=0 → pc.beginVal=1) (hl : ∀q,q+1=r → (ctl q).endVal<pc.beginVal)
    (hri : r<3 → pc.endVal<(ctl (r+1)).beginVal) (hft : r=3 → pc.endVal<2^32) : Apart (Function.update ctl r pc) := by
  refine ⟨?_,?_,?_,?_⟩
  · intro q hq
    by_cases hqr : q=r
    · rw [hqr,update_self]
      exact hs
    · rw [update_of_ne hqr]
      exact h.span q hq
  · by_cases hr : 0=r
    · rw [← hr,update_self]
      exact hf hr.symm
    · rw [update_of_ne hr]
      exact h.first
  · intro q hq
    by_cases hqr : q=r
    · subst hqr
      rw [update_self,update_of_ne (by omega)]
      exact hri hq
    · rw [update_of_ne hqr]
      by_cases hq' : q+1=r
      · rw [hq',update_self]
        exact hl q hq'
      · rw [update_of_ne hq']
        exact h.disjoint q hq
  · by_cases hr : 3=r
    · rw [← hr,update_self]
      exact hft hr.symm
    · rw [update_of_ne hr]
      exact h.fits

lemma rspan_of_lt (h : 15*2^order<2^32) : rspan order=15*2^order := by
  rw [rspan,shiftLeft_eq]
  exact trunc_of_lt h

lemma rspanUl_of_le (h : order≤59) : rspanUl order=15*2^order := by
  have hp : 2^order≤2^59 := Nat.pow_le_pow_right (by omega) h
  rw [rspanUl,Nat.shiftLeft_eq]
  exact trunc_of_lt (show 15*2^order<2^64 by omega)

lemma Apart.rangeGrowRight (h : Apart rng.ctl) (hr : r<3)
    (hg : (rng.ctl r).beginVal+15*2^((rng.ctl r).order+1)<(rng.ctl (r+1)).beginVal) :
    Apart (rangeGrowRight rng r).ctl := by
  have hn := h.span (r+1) (by omega)
  have hlt := h.endVal_lt (r := r+1) (by omega)
  have hs : add 32 (rng.ctl r).beginVal (rspan ((rng.ctl r).order+1)) =
      (rng.ctl r).beginVal+15*2^((rng.ctl r).order+1) := by
    rw [rspan_of_lt (by omega),add_of_lt (by omega)]
  refine h.update hs ?_ ?_ ?_ (by omega)
  · intro h0
    rw [h0]
    exact h.first
  · intro q hq
    subst hq
    exact h.disjoint q (by omega)
  · intro _
    exact hs ▸ hg

lemma Apart.rangeShrinkLeft (h : Apart rng.ctl) (hr : r<4) (hp : r≠0) (hor : (rng.ctl r).order≠0) :
    Apart (rangeShrinkLeft rng r).ctl := by
  have hs := h.span r hr
  have hlt := h.endVal_lt hr
  obtain ⟨order,ho⟩ := exists_eq_succ_of_ne_zero hor
  rw [ho,pow_succ] at hs
  have hb : sub 32 (rng.ctl r).endVal (rspan ((rng.ctl r).order-1))=(rng.ctl r).endVal-15*2^order := by
    rw [ho,succ_sub_one,rspan_of_lt (by omega),sub_of_le hlt (by omega)]
  refine h.update ?_ (by omega) ?_ ?_ ?_
  · simp only [hb]
    rw [ho,succ_sub_one]
    omega
  · intro q hq
    have hd := h.disjoint q (by omega)
    rw [hq] at hd
    simp only [hb]
    omega
  · exact h.disjoint r
  · intro ht
    exact hlt

lemma hits_rangeShrinkLeft (hr : r<4) : hits (rangeShrinkLeft rng r)=hits rng := by
  have hs := hits_setCnt (rng.setCtl r {rng.ctl r with
    order:=(rng.ctl r).order-1
    beginVal:=sub 32 (rng.ctl r).endVal (rspan ((rng.ctl r).order-1))}) hr (shrinkCnt (rng.cnt r))
  rw [rowSum_shrinkCnt,hits_setCtl] at hs
  exact add_right_cancel hs

lemma hits_spreadGap (hr : r<4) (hp : r≠0) {max : Nat} (hm : rng.cnt r 0=max) :
    hits (spreadGap rng r max)=hits rng := by
  have hne : r-1≠r := by omega
  have hB : statsBckts/2=8 := rfl
  let c := max/(statsBckts/2+1)
  let grown := rangeGrowRight rng (r-1)
  let given := grown.setCnt r (Function.update (grown.cnt r) 0 (grown.cnt r 0-c*(statsBckts/2)))
  have hc : grown.cnt r=rng.cnt r := cnt_setCnt_of_ne hne.symm _
  have hpr : given.cnt (r-1)=grown.cnt (r-1) := cnt_setCnt_of_ne hne _
  have hs : grown.cnt (r-1)=InPlace.rewrite (fun cnt i => cnt (2*i)+cnt (2*i+1)) (statsBckts/2) (rng.cnt (r-1)) :=
    cnt_setCnt_self _
  have hgr : hits grown+rowSum (rng.cnt (r-1))=hits rng+rowSum (grown.cnt (r-1)) := by
    rw [hs]
    exact hits_setCnt _ (by omega) _
  have hg : hits given+rowSum (grown.cnt r)=hits grown +
      rowSum (Function.update (grown.cnt r) 0 (grown.cnt r 0-c*(statsBckts/2))) := hits_setCnt _ hr _
  have hf : hits (spreadGap rng r max)+rowSum (given.cnt (r-1))=hits given +
      rowSum (fun b => if statsBckts/2≤b ∧ b<statsBckts then c else given.cnt (r-1) b) := hits_setCnt _ (by omega) _
  have ht := rowSum_update (grown.cnt r) (b := 0) (by decide) (grown.cnt r 0-c*(statsBckts/2))
  have hro := rowSum_grow (rng.cnt (r-1)) c
  have hle : c*(statsBckts/2)≤grown.cnt r 0 := by
    rw [hc,hm,hB]
    exact le_trans (mul_le_mul_left c (by omega)) (div_mul_le_self max 9)
  rw [← hs] at hro
  rw [hpr,hro] at hf
  omega

/-- What the loop of `tfw_stats_adjust` knows after the first `k` buckets -/
structure Scan.Upto (row : Nat → Nat) (k : Nat) (s : Scan) : Prop where
  sum : s.sum = ∑ b∈Finset.range k,row b
  cnt : s.cnt=0 → s.sum=0
  max : s.max=0 ∨ row s.iMax=s.max

lemma Scan.Upto.add {row : Nat → Nat} {s : Scan} (h : s.Upto row k) : (Scan.add row s k).Upto row (k+1) := by
  obtain ⟨hs,hc,hm⟩ := h
  have hsu := sum_range_succ row k
  unfold Scan.add
  by_cases h0 : row k=0
  · simp only [h0,ne_eq,not_true_eq_false,if_false,not_lt_zero]
    exact ⟨by omega,hc,hm⟩
  · simp only [ne_eq,h0,not_false_eq_true,if_true]
    split_ifs
    · exact ⟨by simp only; omega,fun h => absurd h (succ_ne_zero _),.inr rfl⟩
    · exact ⟨by simp only; omega,fun h => absurd h (succ_ne_zero _),hm⟩

lemma scan_upto (row : Nat → Nat) : (scan row).Upto row statsBckts := by
  have hl : ∀k,((List.range k).foldl (Scan.add row) {}).Upto row k := by
    intro k
    induction k with
    | zero => exact ⟨rfl,fun _ => rfl,.inl rfl⟩
    | succ k ih =>
      rw [List.range_succ,List.foldl_append]
      exact ih.add
  exact hl statsBckts

/-- An update of the counters and bounds that loses no hits -/
structure Kept (rng rng' : TfwPcntRanges) : Prop where
  apart : Apart rng'.ctl
  hits : hits rng'=hits rng
  totCnt : rng'.totCnt=rng.totCnt

lemma Apart.fillGap (h : Apart rng.ctl) (hr : r<4) (hpo : r≠0) {p : Prop} [Decidable p] {m : Nat}
    (hp : p → rng.cnt r 0=m ∧ (rng.ctl (r-1)).beginVal+15*2^((rng.ctl (r-1)).order+1)<(rng.ctl r).beginVal) :
    Kept rng (if p then spreadGap rng r m else rng) ∧ (if p then spreadGap rng r m else rng).ctl r=rng.ctl r := by
  have hr' : r-1+1=r := by omega
  split_ifs with hg
  · obtain ⟨hm,hgr⟩ := hp hg
    refine ⟨⟨?_,hits_spreadGap hr hpo hm,rfl⟩,?_⟩
    · exact h.rangeGrowRight (r := r-1) (by omega) (hr'.symm ▸ hgr)
    · exact update_of_ne (by omega) ..
  · exact ⟨⟨h,rfl,rfl⟩,rfl⟩

lemma Apart.statsAdjust (h : Apart rng.ctl) (hr : r<4) (hp : r≠0) (hh : 0<rowSum (rng.cnt r)) :
    ∃rng',statsAdjust rng r=.ok rng' ∧ Kept rng rng' := by
  obtain ⟨hsu,hc,hm⟩ := scan_upto (rng.cnt r)
  have hor := h.order_le (r := r-1) (by omega)
  have hlt := h.endVal_lt (r := r-1) (by omega)
  have hsp := h.span (r-1) (by omega)
  have hpo : 2^((rng.ctl (r-1)).order+1)≤2^29 := Nat.pow_le_pow_right (by omega) (by omega)
  have hpr : add 64 (rng.ctl (r-1)).beginVal (rspanUl ((rng.ctl (r-1)).order+1)) =
      (rng.ctl (r-1)).beginVal+15*2^((rng.ctl (r-1)).order+1) := by
    rw [rspanUl_of_le (by omega),add_of_lt (by omega)]
  rw [Apm.statsAdjust,if_neg hp]
  simp only [hpr]
  generalize scan (rng.cnt r)=s at hsu hc hm
  have hne : s.cnt≠0 := by
    intro h0
    have hs := hc h0
    rw [hsu] at hs
    exact absurd hh (by rw [rowSum,hs]; omega)
  rw [if_neg hne]
  by_cases ho : s.max ≤ s.sum*2/s.cnt
  · rw [if_pos ho]
    exact ⟨rng,rfl,h,rfl,rfl⟩
  · rw [if_neg ho]
    refine ⟨_,rfl,?_⟩
    obtain ⟨hk,hct⟩ := h.fillGap hr hp (p := s.iMax=0 ∧ (rng.ctl (r - 1)).beginVal +
        15*2^((rng.ctl (r-1)).order+1)<(rng.ctl r).beginVal) (m := s.max) <| by
      intro hg
      obtain h0 | hm := hm
      · exact absurd (h0 ▸ zero_le) ho
      · exact ⟨hg.1 ▸ hm,hg.2⟩
    by_cases ho' : (rng.ctl r).order≠0
    · rw [if_pos ho']
      refine ⟨hk.apart.rangeShrinkLeft hr hp (by rwa [hct]),?_,hk.totCnt⟩
      rw [hits_rangeShrinkLeft hr,hk.hits]
    · rw [if_neg ho']
      exact hk

lemma extendOrder_spec (pc : TfwPcntCtl) (hb : pc.beginVal<2^32) (hTime : rTime<2^32)
    (hk : 29≤order+k) (hp : 0<k) (hle : order≤28) (hlt : pc.beginVal+15*2^order<rTime) :
    ∃order',extendOrder pc rTime k order=.ok (order',pc.beginVal+15*2^order') ∧ order<order' ∧
      rTime≤pc.beginVal+15*2^order' ∧ pc.beginVal+15*2^(order'-1)<rTime := by
  induction k generalizing order with
  | zero => omega
  | succ k ih =>
    have hpo : 2^(order+1)≤2^29 := Nat.pow_le_pow_right (by omega) (by omega)
    have he : add 64 pc.beginVal (rspanUl (order+1))=pc.beginVal+15*2^(order+1) := by
      rw [rspanUl_of_le (by omega),add_of_lt (by omega)]
    rw [extendOrder]
    simp only [he]
    split_ifs with hm
    · have hle' : order+1≤28 := order_le_of_lt (by omega)
      obtain ⟨order',hl,hlt',hge,hpr⟩ := ih (by omega) (by omega) hle' hm
      exact ⟨order',hl,by omega,hge,hpr⟩
    · exact ⟨order+1,rfl,Nat.lt_succ_self order,by omega,hlt⟩

/-- A time in the last range, or up to the end that a larger order gives it in 32 bits -/
def TfwPcntCtl.Reaches (pc : TfwPcntCtl) (rTime : Nat) : Prop :=
  rTime≤pc.endVal ∨ ∃order,pc.order<order ∧ rTime≤pc.beginVal+15*2^order ∧ pc.beginVal+15*2^order<2^32

lemma Apart.statsExtend (h : Apart rng.ctl) (hTime : rTime<2^32) (hlt : (rng.ctl 3).endVal<rTime) :
    ((rng.ctl 3).Reaches rTime ∧ ∃rng',statsExtend rng rTime=.ok rng' ∧ Apart rng'.ctl ∧
      rTime≤(rng'.ctl 3).endVal ∧ rng'.totCnt=rng.totCnt ∧ (hits rng<2^32 → hits rng'=hits rng)) ∨
      statsExtend rng rTime=.error .bug ∧ ¬(rng.ctl 3).Reaches rTime ∧ 2^31<rTime := by
  have hsp := h.span 3 (by omega)
  have ho := h.order_le (r := 3) (by omega)
  obtain ⟨order,hl,hgt,hge,hpr⟩ := extendOrder_spec (rng.ctl 3) (by omega) hTime
    (show 29≤(rng.ctl 3).order+32 by omega) (by omega) ho (by omega)
  have hp : 2^order=2*2^(order-1) := by rw [← Nat.pow_succ',Nat.succ_eq_add_one,Nat.sub_add_cancel (by omega)]
  have hsh : 0 < min (order-(rng.ctl 3).order) 4 ∧ min (order-(rng.ctl 3).order) 4≤4 := by omega
  have hc : Apm.statsExtend rng rTime=if 2^32≤(rng.ctl 3).beginVal+15*2^order then .error .bug
      else .ok ((rng.setCtl 3 {rng.ctl 3 with order, endVal:=(rng.ctl 3).beginVal+15*2^order}).setCnt 3
        (extendCnt (1 <<< min (order-(rng.ctl 3).order) 4) (16 >>> min (order-(rng.ctl 3).order) 4) (rng.cnt 3))) := by
    rw [Apm.statsExtend,statsRlast]
    simp only [hl]
    rfl
  rw [hc]
  generalize min (order-(rng.ctl 3).order) 4=shift at hsh
  by_cases hb : 2^32≤(rng.ctl 3).beginVal+15*2^order
  · rw [if_pos hb]
    refine .inr ⟨rfl,?_,by omega⟩
    rintro (hle | ⟨order',-,hge',hlt'⟩)
    · omega
    · -- no smaller order reaches the time
      have hle : order≤order' := by
        by_contra hn
        have hpl : 2^order'≤2^(order-1) := Nat.pow_le_pow_right (by omega) (by omega)
        omega
      have hpl : 2^order≤2^order' := Nat.pow_le_pow_right (by omega) hle
      omega
  · rw [if_neg hb]
    refine .inl ⟨.inr ⟨order,hgt,hge,by omega⟩,_,rfl,?_,?_,rfl,?_⟩
    · refine h.update rfl (by omega) ?_ (by omega) ?_
      · intro q hq
        have hd := h.disjoint q (by omega)
        rwa [hq] at hd
      · intro _
        exact Nat.lt_of_not_le hb
    · change rTime≤(Function.update rng.ctl 3 _ 3).endVal
      rw [update_self]
      exact hge
    · intro hh
      have hr := rowSum_le_hits rng (r := 3) (by omega)
      have hu : 0<1 <<< shift ∧ (1 <<< shift)*(16 >>> shift)=16 := by
        obtain rfl | rfl | rfl | rfl := (by omega : shift=1 ∨ shift=2 ∨ shift=3 ∨ shift=4)
        all_goals decide
      have hs := hits_setCnt (rng.setCtl 3 {rng.ctl 3 with
        order, endVal:=(rng.ctl 3).beginVal+15*2^order}) (r := 3) (by omega)
        (extendCnt (1 <<< shift) (16 >>> shift) (rng.cnt 3))
      rw [rowSum_extendCnt hu.1 hu.2 _ (by omega)] at hs
      exact Nat.add_right_cancel hs

lemma Apart.hitAdjust (h : Apart rng.ctl) (hr : r<4) (hp : r≠0) (hti : rTime≤(rng.ctl r).endVal) :
    ∃rng',(Apm.hit rng r rTime >>= fun rng => Apm.statsAdjust rng r)=.ok rng' ∧ Apart rng'.ctl ∧
      rng'.totCnt=rng.totCnt ∧ hits rng'=hits rng+1 := by
  obtain ⟨rng1,hh,hc,ht,hhi,hro⟩ := h.hit hr hti
  rw [← hc] at h
  obtain ⟨rng2,ha,hk⟩ := h.statsAdjust hr hp hro
  refine ⟨rng2,?_,hk.apart,hk.totCnt.trans ht,hk.hits.trans hhi⟩
  rw [hh]
  exact ha

lemma Apart.countTime (h : Apart rng.ctl) (hTime : rTime<2^32) :
    ((rng.ctl 3).Reaches rTime ∧ ∃rng',countTime rng rTime=.ok rng' ∧ Apart rng'.ctl ∧
      rng'.totCnt=rng.totCnt ∧ (hits rng<2^32 → hits rng'=hits rng+1)) ∨
      countTime rng rTime=.error .bug ∧ ¬(rng.ctl 3).Reaches rTime ∧ 2^31<rTime := by
  have hd : (rng.ctl 2).endVal<(rng.ctl 3).beginVal := h.disjoint 2 (by omega)
  have hs := h.span 3 (by omega)
  have hin : rTime≤(rng.ctl 3).endVal → (rng.ctl 3).Reaches rTime := .inl
  unfold Apm.countTime
  by_cases h2 : rTime≤(rng.ctl 2).endVal
  · rw [if_pos h2]
    by_cases h1 : (rng.ctl 1).endVal<rTime
    · rw [if_pos h1]
      obtain ⟨rng',hok,hap,ht,hh⟩ := h.hitAdjust (r := 2) (by omega) (by omega) h2
      exact .inl ⟨hin (by omega),rng',hok,hap,ht,fun _ => hh⟩
    · rw [if_neg h1,if_neg (fun hne => hne h.first)]
      by_cases h0 : (rng.ctl 0).endVal<rTime
      · rw [if_pos h0]
        obtain ⟨rng',hok,hap,ht,hh⟩ := h.hitAdjust (r := 1) (by omega) (by omega) (Nat.le_of_not_lt h1)
        exact .inl ⟨hin (by omega),rng',hok,hap,ht,fun _ => hh⟩
      · rw [if_neg h0]
        obtain ⟨rng',hok,hc,ht,hh,-⟩ := h.hit (r := 0) (by omega) (Nat.le_of_not_lt h0)
        exact .inl ⟨hin (by omega),rng',hok,hc ▸ h,ht,fun _ => hh⟩
  · rw [if_neg h2]
    by_cases h3 : (rng.ctl 3).endVal<rTime
    · rw [if_pos h3]
      obtain ⟨hre,rng1,he,hap,hle,ht,hh⟩ | ⟨hb,hn⟩ := h.statsExtend hTime h3
      · obtain ⟨rng',hok,hap',ht',hh'⟩ := hap.hitAdjust (by omega) (by omega) hle
        refine .inl ⟨hre,rng',?_,hap',ht'.trans ht,fun hlt => by rw [hh',hh hlt]⟩
        rw [he]
        exact hok
      · rw [hb]
        exact .inr ⟨rfl,hn⟩
    · rw [if_neg h3]
      obtain ⟨rng',hok,hap,ht,hh⟩ := h.hitAdjust (r := 3) (by omega) (by omega) (Nat.le_of_not_lt h3)
      exact .inl ⟨hin (Nat.le_of_not_lt h3),rng',hok,hap,ht,fun _ => hh⟩

lemma totals_eq (rng : TfwPcntRanges) (rTime : Nat) :
    (totals rng rTime).ctl=rng.ctl ∧ (totals rng rTime).cnt=rng.cnt ∧ (totals rng rTime).totCnt=rng.totCnt+1 := by
  unfold totals statsAdjMin
  by_cases hm : rTime<rng.minVal
  · rw [if_pos hm]
    cases hr : rng.minVal != 2^32-1
    all_goals
      simp only [statsAdjMax]
      split_ifs
      all_goals exact ⟨rfl,rfl,rfl⟩
  · rw [if_neg hm]
    simp only [statsAdjMax]
    split_ifs
    all_goals exact ⟨rfl,rfl,rfl⟩

lemma Apart.statsUpdate (h : Apart rng.ctl) (hTime : rTime<2^32) :
    ((rng.ctl 3).Reaches rTime ∧ ∃rng',statsUpdate rng rTime=.ok rng' ∧ Apart rng'.ctl ∧
      rng'.totCnt=rng.totCnt+1 ∧ (hits rng<2^32 → hits rng'=hits rng+1)) ∨
      statsUpdate rng rTime=.error .bug ∧ ¬(rng.ctl 3).Reaches rTime ∧ 2^31<rTime := by
  unfold Apm.statsUpdate
  obtain ⟨hre,rng1,hok,hap,ht,hh⟩ | ⟨hb,hn⟩ := h.countTime hTime
  · rw [hok]
    obtain ⟨hct,hc,ht'⟩ := totals_eq rng1 rTime
    refine .inl ⟨hre,totals rng1 rTime,rfl,hct ▸ hap,by rw [ht',ht],fun hlt => ?_⟩
    rw [← hh hlt,hits,hits,hc]
  · rw [hb]
    exact .inr ⟨rfl,hn⟩

/-- Each time is in reach of the last range as the updates before it have left it. -/
def ReachesAll (rng : TfwPcntRanges) : List Nat → Prop
  | [] => True
  | rTime::times => (rng.ctl 3).Reaches rTime ∧ ∀rng',statsUpdate rng rTime=.ok rng' → ReachesAll rng' times

lemma updates_apart (rng : TfwPcntRanges) (times : List Nat) (h : Apart rng.ctl) (hti : ∀rTime∈times,rTime<2^32) :
    (ReachesAll rng times ∧ ∃rng',times.foldlM statsUpdate rng=.ok rng' ∧ Apart rng'.ctl ∧
      rng'.totCnt=rng.totCnt+times.length ∧ (hits rng+times.length<2^32 → hits rng'=hits rng+times.length)) ∨
      times.foldlM statsUpdate rng=.error .bug ∧ ¬ReachesAll rng times ∧ ∃rTime∈times,2^31<rTime := by
  induction times generalizing rng with
  | nil => exact .inl ⟨trivial,rng,rfl,h,(add_zero _).symm,fun _ => (add_zero _).symm⟩
  | cons rTime times ih =>
    rw [List.foldlM_cons]
    obtain ⟨hre,rng1,hok,hap,hto,hh⟩ | ⟨hb,hn,hgt⟩ := h.statsUpdate (hti rTime (.head _))
    · have hra : ReachesAll rng (rTime::times) ↔ ReachesAll rng1 times := by
        simp only [ReachesAll,hre,hok,Except.ok.injEq,true_and,forall_eq']
      rw [hok,Outcome.ok_bind,List.length_cons,hra]
      rcases ih rng1 hap fun t ht => hti t (.tail _ ht) with
        ⟨hre',rng',hr,hap',ht',hh'⟩ | ⟨hb,hn,t,ht,hgt⟩
      · refine .inl ⟨hre',rng',hr,hap',by omega,fun hlt => ?_⟩
        have hf := hh (by omega)
        have hre := hh' (by omega)
        omega
      · exact .inr ⟨hb,hn,t,.tail _ ht,hgt⟩
    · rw [hb]
      exact .inr ⟨rfl,fun hra => hn hra.1,rTime,.head _,hgt⟩

lemma hits_init : hits TfwPcntRanges.init=0 := rfl

/-- In fewer than `2 ^ 32` updates every one is counted in one of the buckets, exactly when each time is in reach of the
last range: for any other `tfw_stats_extend` meets its `BUG_ON`. -/
theorem counters_lose_nothing (times : List Nat) (hlength : times.length<2^32) (htimes : ∀rTime∈times,rTime<2^32) :
    (∃rng,times.foldlM statsUpdate TfwPcntRanges.init=.ok rng ∧ hits rng=rng.totCnt ∧ rng.totCnt=times.length) ↔
      ReachesAll TfwPcntRanges.init times := by
  rcases updates_apart TfwPcntRanges.init times apart_init htimes with
    ⟨hre,rng,hr,-,ht,hh⟩ | ⟨hb,hn,-⟩
  · have hc := hh (by rw [hits_init]; omega)
    rw [hits_init,zero_add] at hc
    have ht : rng.totCnt=times.length := ht.trans (zero_add _)
    exact iff_of_true ⟨rng,hr,hc.trans ht.symm,ht⟩ hre
  · refine iff_of_false ?_ hn
    rintro ⟨rng,hr,-⟩
    rw [hb] at hr
    cases hr

theorem counters_lose_nothing_extended :
    ∃rng,[3,3000000000].foldlM statsUpdate TfwPcntRanges.init=.ok rng ∧ hits rng=rng.totCnt ∧ rng.totCnt=2 := by
  refine (counters_lose_nothing [3,3000000000] (by decide) (by decide)).2 ⟨.inl (by decide),fun rng hr => ?_⟩
  -- the first update leaves the last range as it is
  have hc : rng.ctl 3=⟨4,109,349⟩ := by
    cases hr
    rfl
  exact ⟨.inr ⟨28,by rw [hc]; decide⟩,fun _ _ => trivial⟩

/-- The greatest time is above every end that fits in 32 bits. -/
theorem counters_stop_at_bug : [4294967295].foldlM statsUpdate TfwPcntRanges.init=.error .bug := rfl

/-- For times up to `2 ^ 31` all updates are made. -/
theorem range_geometry (times : List Nat) (htimes : ∀rTime∈times,rTime≤2^31) :
    ∃rng,times.foldlM statsUpdate TfwPcntRanges.init=.ok rng ∧
      (∀r<4,(rng.ctl r).endVal=(rng.ctl r).beginVal+15*2^(rng.ctl r).order) ∧ (rng.ctl 0).beginVal=1 ∧
      (∀r<3,(rng.ctl r).endVal<(rng.ctl (r+1)).beginVal) ∧
      ∀r<4,∀rTime≤(rng.ctl r).endVal,rngIdx (rng.ctl r) rTime<16 := by
  rcases updates_apart TfwPcntRanges.init times apart_init fun rTime hm => by
    have hle := htimes rTime hm
    omega with ⟨-,rng,hru,hap,-,-⟩ | ⟨-,-,rTime,hm,hgt⟩
  · exact ⟨rng,hru,hap.span,hap.first,hap.disjoint,fun r hr rTime hle => hap.rngIdx_lt hr hle⟩
  · exact absurd (htimes rTime hm) (by omega)

theorem range_geometry_extended : ∃rng,[2147483648,20,20,20,100000].foldlM statsUpdate TfwPcntRanges.init=.ok rng ∧
      (∀r<4,(rng.ctl r).endVal=(rng.ctl r).beginVal+15*2^(rng.ctl r).order) ∧ (rng.ctl 0).beginVal=1 ∧
      (∀r<3,(rng.ctl r).endVal<(rng.ctl (r+1)).beginVal) ∧ ∀r<4,∀rTime≤(rng.ctl r).endVal,rngIdx (rng.ctl r) rTime<16 :=
  range_geometry [2147483648,20,20,20,100000] (by decide)
end VetWaf.Apm
