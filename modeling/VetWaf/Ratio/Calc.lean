import VetWaf.Ratio.Sched

namespace VetWaf.Ratio
open List Word

/-- The entries of a group of `n` servers. -/
structure Entries (n : Nat) (srvdata : List TfwRatioSrvData) : Prop where
  sdidx : (srvdata.map (·.sdidx)).Perm (range n)
  cratio : ∀data∈srvdata,data.cratio=data.oratio
  oratio : ∀data∈srvdata,0<data.oratio ∧ data.oratio<2^32

def ratioSum (srvdata : List TfwRatioSrvData) : Nat := (srvdata.map (·.oratio)).sum

variable {n : Nat} {srvdata srvdata' : List TfwRatioSrvData}
lemma Entries.length (h : Entries n srvdata) : srvdata.length=n := by
  have hl := h.sdidx.length_eq
  rwa [length_map,length_range] at hl

lemma Entries.perm (h : Entries n srvdata) (hp : srvdata'.Perm srvdata) : Entries n srvdata' :=
  ⟨(hp.map _).trans h.sdidx,fun data hm => h.cratio data (hp.mem_iff.1 hm),
    fun data hm => h.oratio data (hp.mem_iff.1 hm)⟩

lemma ratioSum_perm (hp : srvdata'.Perm srvdata) : ratioSum srvdata'=ratioSum srvdata := (hp.map _).sum_eq

lemma sum_le_length_mul {l : List Nat} {b : Nat} (h : ∀a∈l,a≤b) : l.sum≤l.length*b := by
  have hle := sum_le_card_nsmul l b h
  rwa [Nat.nsmul_eq_mul] at hle

lemma Entries.ratioSum_le (h : Entries n srvdata) : ratioSum srvdata≤n*2^32 := by
  have hle := sum_le_length_mul (l := srvdata.map (·.oratio)) (b := 2^32) <| by
    intro ratio hr
    obtain ⟨data,hm,rfl⟩ := mem_map.1 hr
    exact le_of_lt (h.oratio data hm).2
  rwa [length_map,h.length] at hle

lemma foldl_add_eq_sum {α : Type} (f : α → Nat) (l : List α) (s : Nat) (h : s+(l.map f).sum<2^64) :
    l.foldl (fun sum a => add 64 sum (f a)) s=s+(l.map f).sum := by
  induction l generalizing s with
  | nil => rfl
  | cons a l ih =>
    rw [map_cons,sum_cons] at h ⊢
    rw [foldl_cons,add_of_lt (by omega),ih _ (by omega),add_assoc]

section

/-- Weights below the two greatest numbers of 32 bits, for a group whose descriptors are one `kzalloc` object. -/
structure SmallWeights (weights : List Nat) : Prop where
  ne_nil : weights≠[]
  length_lt : weights.length<2^31-100
  small : ∀weight∈weights,0<weight ∧ weight≤2^32-2

variable {weights : List Nat}
lemma length_initSrvdata (weights : List Nat) : (initSrvdata weights).length=weights.length := by simp [initSrvdata]

lemma maxValIdx_spec (h : srvdata≠[]) : maxValIdx srvdata<srvdata.length ∧
      ∀data∈srvdata,data.weight≤(srvdata.getD (maxValIdx srvdata) {}).weight := by
  have hp := length_pos_iff.2 h
  -- of the first `k` entries, the one that the loop remembers is the largest
  have hl : ∀k ≤ srvdata.length,∀m,m=(range k).foldl (fun m si =>
        if (srvdata.getD m {}).weight<(srvdata.getD si {}).weight then si else m) 0 →
      m<srvdata.length ∧ ∀si<k,(srvdata.getD si {}).weight≤(srvdata.getD m {}).weight := by
    intro k
    induction k with
    | zero =>
      intro _ m hm
      subst hm
      exact ⟨hp,fun si hs => absurd hs (by omega)⟩
    | succ k ih =>
      intro hk m hm
      rw [range_succ,foldl_append,foldl_cons,foldl_nil] at hm
      obtain ⟨hlt,hma⟩ := ih (by omega) _ rfl
      generalize (range k).foldl _ 0=m' at hm hlt hma
      subst hm
      split_ifs with hls
      · refine ⟨by omega,fun si hs => ?_⟩
        obtain hs | rfl := Nat.lt_succ_iff_lt_or_eq.1 hs
        · exact le_trans (hma si hs) (le_of_lt hls)
        · exact le_rfl
      · refine ⟨hlt,fun si hs => ?_⟩
        obtain hs | rfl := Nat.lt_succ_iff_lt_or_eq.1 hs
        · exact hma si hs
        · omega
  obtain ⟨hlt,hma⟩ := hl srvdata.length le_rfl (maxValIdx srvdata) rfl
  refine ⟨hlt,fun data hme => ?_⟩
  obtain ⟨si,hs,rfl⟩ := mem_iff_getElem.1 hme
  have hle := hma si hs
  rwa [getD_eq_getElem _ _ hs] at hle

variable {data : TfwRatioSrvData} {top : Nat}
lemma mem_initSrvdata (h : data∈initSrvdata weights) : data.weight∈weights ∧ data.weight=weights.getD data.sdidx 0 := by
  unfold initSrvdata at h
  obtain ⟨si,hs,rfl⟩ := mem_mapIdx.1 h
  exact ⟨getElem_mem hs,(getD_eq_getElem _ _ hs).symm⟩

lemma map_sdidx_initSrvdata : (initSrvdata weights).map (·.sdidx)=range weights.length := by
  unfold initSrvdata
  exact ext_getElem (by simp) fun si _ _ => by simp

lemma SmallWeights.initSrvdata_ne_nil (h : SmallWeights weights) : initSrvdata weights≠[] := by
  intro hn
  have hl := length_initSrvdata weights
  rw [hn] at hl
  exact h.ne_nil (length_eq_zero_iff.1 hl.symm)

lemma SmallWeights.sumWgt (h : SmallWeights weights) : sumWgt weights=weights.sum := by
  have hl := h.length_lt
  have hle := sum_le_length_mul (b := 2^32) fun weight hm => by
    have hs := (h.small weight hm).2
    omega
  have hf := foldl_add_eq_sum id weights 0 (by rw [map_id]; omega)
  rwa [map_id,zero_add] at hf

/-- Without a wrap, a ratio is the share of the weight, and at least one. -/
lemma setRatio_oratio {unit : Nat} (hu : unit<2^32) (hle : data.weight ≤ top) (hm : top<2^32) :
    (setRatio unit top data).oratio=Nat.max 1 (unit*data.weight/top) ∧ unit*data.weight/top≤unit := by
  have hmu : unit*data.weight≤(2^32-1)*(2^32-1) := Nat.mul_le_mul (by omega) (by omega)
  have hr : unit*data.weight/top≤unit :=
    Nat.div_le_of_le_mul ((Nat.mul_le_mul_left unit hle).trans (le_of_eq (mul_comm _ _)))
  simp only [setRatio]
  rw [trunc_of_lt (show unit*data.weight<2^64 by omega)]
  generalize unit*data.weight/top=ratio at hr
  split_ifs with h0
  · rw [trunc_of_lt (by omega)]
    exact ⟨(max_eq_right (by omega)).symm,hr⟩
  · rw [Decidable.not_not.1 h0]
    exact ⟨rfl,by omega⟩

lemma SmallWeights.add_length_le (h : SmallWeights weights) (hm : top∈weights) :
    top+weights.length≤weights.sum+1 := by
  have hr : (weights.erase top).length≤(weights.erase top).sum :=
    length_le_sum_of_one_le _ fun weight hw => (h.small weight (mem_of_mem_erase hw)).1
  have hs := (perm_cons_erase hm).sum_eq
  have hl := (perm_cons_erase hm).length_eq
  rw [sum_cons] at hs
  rw [length_cons] at hl
  omega

/-- The weight of `max_val_idx` -/
def maxWgt (weights : List Nat) : Nat := ((initSrvdata weights).getD (maxValIdx (initSrvdata weights)) {}).weight

/-- `unit` of `tfw_sched_ratio_calc` -/
def unit (weights : List Nat) : Nat := trunc 64 ((maxWgt weights+weights.length)*maxWgt weights)/weights.sum

/-- The ratio of an entry before it is made at least one -/
def share (weights : List Nat) (data : TfwRatioSrvData) : Nat := unit weights*data.weight/maxWgt weights

/-- The entries with their ratios, in the order of the servers -/
def ratioEntries (weights : List Nat) : List TfwRatioSrvData :=
  (schedRatioCalc (initSrvdata weights) (sumWgt weights) (maxValIdx (initSrvdata weights))).2

section
variable (h : SmallWeights weights)
include h
lemma SmallWeights.maxWgt_mem : maxWgt weights∈weights ∧ ∀data∈initSrvdata weights,data.weight ≤ maxWgt weights := by
  obtain ⟨hlt,hma⟩ := maxValIdx_spec h.initSrvdata_ne_nil
  have hm := getElem_mem hlt
  rw [← getD_eq_getElem _ {} hlt] at hm
  exact ⟨(mem_initSrvdata hm).1,hma⟩

/-- The factor of the shares is at most the greatest weight, unless there is only one. -/
lemma SmallWeights.unit_le : unit weights ≤ maxWgt weights+1 ∧ (2≤weights.length → unit weights ≤ maxWgt weights) := by
  have hm := h.maxWgt_mem.1
  have hp := (h.small _ hm).1
  have hs := h.add_length_le hm
  have hl := length_pos_iff.2 h.ne_nil
  have ht := trunc_le 64 ((maxWgt weights+weights.length)*maxWgt weights)
  unfold unit
  generalize weights.length=n at hs hl ht
  generalize weights.sum=sum at hs
  refine ⟨Nat.lt_succ_iff.1 ?_,fun h2 => Nat.lt_succ_iff.1 ?_⟩
  · rw [Nat.div_lt_iff_lt_mul (by omega)]
    nlinarith
  · rw [Nat.div_lt_iff_lt_mul (by omega)]
    nlinarith

lemma SmallWeights.ratios_eq : ratioEntries weights=
    (initSrvdata weights).map (setRatio (unit weights) (maxWgt weights)) := by
  simp only [ratioEntries,schedRatioCalc,h.sumWgt,length_initSrvdata]
  rfl

lemma SmallWeights.oratio_eq {data : TfwRatioSrvData} (hd : data∈ratioEntries weights) :
    data.oratio=Nat.max 1 (share weights data) ∧ share weights data ≤ unit weights := by
  obtain ⟨hm,hma⟩ := h.maxWgt_mem
  have hs := (h.small _ hm).2
  have hu := h.unit_le.1
  rw [h.ratios_eq] at hd
  obtain ⟨data,hi,rfl⟩ := mem_map.1 hd
  exact setRatio_oratio (by omega) (hma data hi) (by omega)

lemma SmallWeights.map_weight : (ratioEntries weights).map (·.weight)=weights := by
  rw [h.ratios_eq,map_map]
  unfold initSrvdata
  exact ext_getElem (by simp) fun si _ _ => by simp [setRatio]

lemma SmallWeights.sum_share : ((ratioEntries weights).map (share weights)).sum ≤ maxWgt weights+weights.length := by
  have hp := (h.small _ h.maxWgt_mem.1).1
  have hsu : ((ratioEntries weights).map (share weights)).sum*maxWgt weights≤unit weights*weights.sum := by
    have hd (l : List TfwRatioSrvData) :
        (l.map (share weights)).sum*maxWgt weights≤unit weights*(l.map (·.weight)).sum := by
      induction l with
      | nil => simp
      | cons data l ih =>
        rw [map_cons,sum_cons,map_cons,sum_cons,add_mul,mul_add]
        exact Nat.add_le_add (Nat.div_mul_le_self _ _) ih
    exact (hd _).trans_eq (by rw [h.map_weight])
  have hu : unit weights*weights.sum≤(maxWgt weights+weights.length)*maxWgt weights :=
    (Nat.div_mul_le_self _ _).trans (trunc_le _ _)
  exact Nat.le_of_mul_le_mul_right (hsu.trans hu) hp

/-- The ratios are positive and follow the weights. -/
lemma SmallWeights.ratios : Entries weights.length (ratioEntries weights) ∧
    (∀data∈ratioEntries weights,data.weight=weights.getD data.sdidx 0) ∧
      ∀data∈ratioEntries weights,∀data'∈ratioEntries weights,data.weight≤data'.weight → data.oratio≤data'.oratio := by
  have hs := (h.small _ h.maxWgt_mem.1).2
  have hu := h.unit_le.1
  refine ⟨⟨?_,?_,?_⟩,?_,?_⟩
  · rw [h.ratios_eq,map_map]
    exact .of_eq map_sdidx_initSrvdata
  · intro data hd
    rw [h.ratios_eq] at hd
    obtain ⟨data,hm,rfl⟩ := mem_map.1 hd
    rfl
  · intro data hd
    obtain ⟨heq,hb⟩ := h.oratio_eq hd
    rw [heq]
    exact ⟨lt_of_lt_of_le Nat.one_pos (le_max_left _ _),Nat.max_lt.2 ⟨by decide,by omega⟩⟩
  · intro data hd
    rw [h.ratios_eq] at hd
    obtain ⟨data,hm,rfl⟩ := mem_map.1 hd
    exact (mem_initSrvdata hm).2
  · intro data hd data' hd' hle
    rw [(h.oratio_eq hd).1,(h.oratio_eq hd').1]
    exact max_le_max le_rfl (Nat.div_le_div_right (Nat.mul_le_mul_left _ hle))

/-- Two ratios of `2 ^ 31` come from two weights of `2 ^ 32 - 2` only. -/
lemma SmallWeights.eq_pair (hl : weights.length=2) (hs : ∀data∈ratioEntries weights,share weights data=2^31)
    (hm : maxWgt weights=2^32-2) : weights=[2^32-2,2^32-2] := by
  have hw : ∀weight∈weights,∃data∈ratioEntries weights,data.weight=weight := by
    intro weight hw
    rw [← h.map_weight] at hw
    exact mem_map.1 hw
  have hu : unit weights=2^31 := by
    obtain ⟨data,hd,hda⟩ := hw _ h.maxWgt_mem.1
    have := hs data hd
    rwa [share,hda,Nat.mul_div_cancel _ (by omega)] at this
  refine (eq_replicate_iff (n := 2)).2 ⟨hl,fun weight hm' => ?_⟩
  obtain ⟨data,hd,rfl⟩ := hw weight hm'
  have := hs data hd
  rw [share,hu,hm] at this
  have := (h.small _ hm').2
  omega

/-- Of three ratios in descending order the two smaller ones add up to less than `2 ^ 32`. -/
lemma SmallWeights.last_lt (h2 : weights≠[2^32-2,2^32-2]) {srvdata : List TfwRatioSrvData}
    (hpe : srvdata.Perm (ratioEntries weights)) (hso : srvdata.Pairwise fun a b => b.oratio≤a.oratio) :
    ∀a mid last,srvdata=a::(mid++[last]) → ∀data∈mid++[last],data.oratio+last.oratio<2^32 := by
  rintro a mid last rfl data hd
  have hn := h.length_lt
  have hmx := (h.small _ h.maxWgt_mem.1).2
  have hl : weights.length=mid.length+2 := by
    rw [← h.ratios.1.length,← hpe.length_eq]
    simp
  have hsh := h.sum_share
  rw [← (hpe.map (share weights)).sum_eq,map_cons,sum_cons,map_append,sum_append,map_singleton,sum_singleton] at hsh
  have hor : ∀data∈a::(mid++[last]),data.oratio ≤ share weights data+1 := by
    intro data hd
    rw [(h.oratio_eq (hpe.mem_iff.1 hd)).1]
    exact Nat.max_le.2 ⟨by omega,by omega⟩
  have ha := hor a (.head _)
  have hla := hor last (by simp)
  obtain ⟨hso,hsr⟩ := pairwise_cons.1 hso
  by_cases hm : mid=[]
  · subst hm
    rw [mem_singleton.1 hd]
    by_contra hge
    have h3 := hso last (.head _)
    have hsa := (h.oratio_eq (hpe.mem_iff.1 (.head _))).1
    have hsl := (h.oratio_eq (hpe.mem_iff.1 (.tail _ (.head _)))).1
    rw [map_nil,sum_nil] at hsh
    rw [length_nil] at hl
    refine h2 (h.eq_pair hl (fun data hd => ?_) (by grind))
    have := hpe.mem_iff.2 hd
    grind
  · obtain ⟨data',hd',hle⟩ : ∃data'∈mid,data.oratio≤data'.oratio := by
      obtain hd | hd := mem_append.1 hd
      · exact ⟨data,hd,le_rfl⟩
      · obtain ⟨data',hd'⟩ := exists_mem_of_ne_nil _ hm
        rw [mem_singleton.1 hd]
        exact ⟨data',hd',(pairwise_append.1 hsr).2.2 data' hd' last (.head _)⟩
    have h1 := hor data' (by simp [hd'])
    have h2 := hso data' (by simp [hd'])
    have h3 := hso last (by simp)
    have hs := le_sum_of_mem (mem_map_of_mem (f := share weights) hd')
    omega

end
end

section
variable {right : Nat} {data : TfwRatioSrvData}
lemma Entries.swapSdidx (h : Entries n srvdata) {left : Nat} (hl : left<srvdata.length) (hr : right<srvdata.length) :
    let srvdata' := (srvdata.set left {srvdata[left] with sdidx:=srvdata[right].sdidx}).set right
      {srvdata[right] with sdidx:=srvdata[left].sdidx}
    Entries n srvdata' ∧ srvdata'.map (·.oratio)=srvdata.map (·.oratio) := by
  intro srvdata'
  have hm : ∀data∈srvdata',∃data'∈srvdata,data.cratio=data'.cratio ∧ data.oratio=data'.oratio := by
    intro data hd
    obtain hd | rfl := mem_or_eq_of_mem_set hd
    · obtain hd | rfl := mem_or_eq_of_mem_set hd
      · exact ⟨data,hd,rfl,rfl⟩
      · exact ⟨srvdata[left],getElem_mem hl,rfl,rfl⟩
    · exact ⟨srvdata[right],getElem_mem hr,rfl,rfl⟩
  have hsd : (srvdata'.map (·.sdidx)).Perm (srvdata.map (·.sdidx)) := by
    have hp := @set_set_perm _ (srvdata.map (·.sdidx)) left right (by rwa [length_map]) (by rwa [length_map])
    simp only [getElem_map] at hp
    rwa [map_set,map_set]
  have ho : srvdata'.map (·.oratio)=srvdata.map (·.oratio) := by
    rw [map_set,map_set]
    have hs : ∀si (hsi : si<srvdata.length),
        (srvdata.map (·.oratio)).set si srvdata[si].oratio=srvdata.map (·.oratio) := by
      intro si hsi
      rw [← map_set,set_getElem_self]
    rw [hs left hl]
    exact hs right hr
  refine ⟨⟨hsd.trans h.sdidx,?_,?_⟩,ho⟩
  · intro data hd
    obtain ⟨data',hd',hc,ho⟩ := hm data hd
    rw [hc,ho,h.cratio data' hd']
  · intro data hd
    obtain ⟨data',hd',-,ho⟩ := hm data hd
    rw [ho]
    exact h.oratio data' hd'

lemma Entries.reverseSdidx (h : Entries n srvdata) (k left : Nat) (hr : right<n) :
    Entries n (reverseSdidx k srvdata left right) ∧
      (reverseSdidx k srvdata left right).map (·.oratio)=srvdata.map (·.oratio) := by
  induction k generalizing srvdata left right with
  | zero => exact ⟨h,rfl⟩
  | succ k ih =>
    rw [Ratio.reverseSdidx]
    split_ifs with hlt
    · have hle := h.length
      have hl : left<srvdata.length := by omega
      have hr' : right<srvdata.length := by omega
      simp only [getD_eq_getElem _ _ hl,getD_eq_getElem _ _ hr']
      obtain ⟨hsw,hs⟩ := h.swapSdidx hl hr'
      obtain ⟨hre,hs'⟩ := ih hsw (left+1) (show right - 1<n by omega)
      exact ⟨hre,hs'.trans hs⟩
    · exact ⟨h,rfl⟩

lemma innerBounds_lt (maxRatio : Nat) (srvdata : List TfwRatioSrvData) (si left : Nat) (h : 0<si+srvdata.length) :
    (innerBounds maxRatio srvdata si left).2<si+srvdata.length := by
  induction srvdata generalizing si left with
  | nil => exact h
  | cons data rest ih =>
    rw [innerBounds,length_cons]
    split_ifs
    · have := ih (si+1) (si+1) (by omega)
      omega
    · simp only
      omega
    · have := ih (si+1) left (by omega)
      omega

variable {one max : TfwRatioSrvData}
lemma swapOneMax_spec (hon : one.oratio=1) (hm : 0 < max.oratio ∧ max.oratio<2^32) (hc : data.cratio=data.oratio)
    (ho : 0<data.oratio ∧ data.oratio<2^32) : (swapOneMax one max data).sdidx=data.sdidx ∧
      (swapOneMax one max data).cratio=(swapOneMax one max data).oratio ∧
      0<(swapOneMax one max data).oratio ∧ (swapOneMax one max data).oratio<2^32 := by
  unfold swapOneMax
  split_ifs
  · exact ⟨rfl,rfl,hm⟩
  · refine ⟨rfl,rfl,?_⟩
    simp only [hon]
    exact ⟨by decide,by decide⟩
  · exact ⟨rfl,hc,ho⟩

lemma Entries.swapOneMax (h : Entries n srvdata) (ho : one.oratio=1) (hmax : max∈srvdata) :
    Entries n (srvdata.map (swapOneMax one max)) := by
  have hs : ∀data∈srvdata,_ := fun data hm =>
    swapOneMax_spec ho (h.oratio max hmax) (h.cratio data hm) (h.oratio data hm)
  refine ⟨?_,?_,?_⟩
  · rw [map_map]
    have hma : srvdata.map ((·.sdidx) ∘ Ratio.swapOneMax one max)=srvdata.map (·.sdidx) :=
      map_congr_left fun data hm => (hs data hm).1
    rw [hma]
    exact h.sdidx
  · intro data hd
    obtain ⟨data,hm,rfl⟩ := mem_map.1 hd
    exact (hs data hm).2.1
  · intro data hd
    obtain ⟨data,hm,rfl⟩ := mem_map.1 hd
    exact (hs data hm).2.2

lemma swapOrsum_eq (hon : one.oratio=1) (hm : 0 < max.oratio) {s : Nat}
    (ho : 0<data.oratio) (h : s+data.oratio<2^64) (h' : s+max.oratio<2^64) :
    swapOrsum max (s+data.oratio) data=s+(swapOneMax one max data).oratio := by
  unfold swapOrsum swapOneMax
  split_ifs with hd hd'
  · rw [add_of_lt (by omega)]
    simp only
    omega
  · rw [sub_of_le (by omega) (by omega)]
    simp only
    omega
  · rfl

lemma foldl_swapOrsum (ho : one.oratio=1) (hma : 0 < max.oratio ∧ max.oratio<2^32) (s : Nat)
    (h : ∀data∈srvdata,0<data.oratio ∧ data.oratio<2^32) (hs : s+srvdata.length*2^32<2^64) :
    srvdata.foldl (swapOrsum max) (s+ratioSum srvdata)=s+ratioSum (srvdata.map (swapOneMax one max)) := by
  induction srvdata generalizing s with
  | nil => rfl
  | cons data rest ih =>
    have hd := h data (.head _)
    have hr : ∀data∈rest,0<data.oratio ∧ data.oratio<2^32 := fun data hm => h data (.tail _ hm)
    have hsu : ratioSum rest≤rest.length*2^32 := by
      have hle := sum_le_length_mul (l := rest.map (·.oratio)) (b := 2^32) <| by
        intro ratio hra
        obtain ⟨data,hm,rfl⟩ := mem_map.1 hra
        exact le_of_lt (hr data hm).2
      rwa [length_map] at hle
    have hc : ∀ (data : TfwRatioSrvData) l,ratioSum (data::l)=data.oratio+ratioSum l := by
      intro data l
      rw [ratioSum,ratioSum,map_cons,sum_cons]
    have hsw : (swapOneMax one max data).oratio<2^32 := by
      unfold swapOneMax
      split_ifs
      · exact hma.2
      · exact ho ▸ (by decide : 1<2^32)
      · exact hd.2
    rw [length_cons,add_mul,one_mul] at hs
    rw [foldl_cons,map_cons,hc,hc]
    have hst : s+(data.oratio+ratioSum rest)=s+ratioSum rest+data.oratio := by omega
    rw [hst,swapOrsum_eq ho hma.1 hd.1 (by omega) (by omega)]
    have hn := ih (s := s+(swapOneMax one max data).oratio) hr (by omega)
    rw [add_right_comm,hn,add_assoc]

end

/-- A ratio that is not the first, and the last one, have a sum of 32 bits. -/
def LastFits (oratio : List Nat) : Prop :=
  ∀si,0 < si → si<oratio.length → oratio.getD si 0+oratio.getD (oratio.length-1) 0<2^32

lemma lastFits_of_last (h : ∀a mid last,srvdata=a::(mid++[last]) → ∀data∈mid++[last],data.oratio+last.oratio<2^32) :
    LastFits (srvdata.map (·.oratio)) := by
  intro si hp hlt
  rw [length_map] at hlt ⊢
  obtain ⟨a,rest,rfl⟩ := exists_cons_of_length_pos (Nat.zero_lt_of_lt hlt)
  rw [length_cons] at hlt
  obtain rfl | ⟨mid,last,rfl⟩ := eq_nil_or_concat' rest
  · rw [length_nil] at hlt
    omega
  · obtain ⟨k,rfl⟩ : ∃k,si=k+1 := ⟨si-1,by omega⟩
    have hm := h a mid last rfl _ (getElem_mem (show k<(mid++[last]).length by omega))
    rw [map_cons,getD_cons_succ,getD_eq_getElem _ _ (by rw [length_map]; omega),getElem_map]
    convert hm using 2
    simp

def Fresh (n : Nat) (d : TfwRatioData) : Prop :=
  ∃srvdata,Entries n srvdata ∧ LastFits (srvdata.map (·.oratio)) ∧ d=rtodata srvdata (ratioSum srvdata)

lemma Entries.sumRatio (h : Entries n srvdata) (hn : n<2^31) : sumRatio srvdata=ratioSum srvdata := by
  have hle := h.ratioSum_le
  have hf := foldl_add_eq_sum (·.oratio) srvdata 0 (by unfold ratioSum at hle; omega)
  rwa [zero_add] at hf

variable {weights : List Nat} (ks : KernelSort)
lemma pairwise_of_same {sum max : Nat} {init : List TfwRatioSrvData} (h : (schedRatioCalc init sum max).1=false) :
    (schedRatioCalc init sum max).2.Pairwise fun a b => b.oratio≤a.oratio := by
  generalize hs : (schedRatioCalc init sum max).2=srvdata
  have hany : (srvdata.any fun data => data.oratio != (srvdata.getD 0 {}).oratio)=false := hs ▸ h
  have hsa : ∀data∈srvdata,data.oratio=(srvdata.getD 0 {}).oratio := by
    intro data hm
    have hd := any_eq_false.1 hany data hm
    simpa using hd
  exact pairwise_of_forall_mem_list fun a ha b hb => le_of_eq ((hsa b hb).trans (hsa a ha).symm)

lemma SmallWeights.static (h : SmallWeights weights) :
    ∃srvdata,schedRatioCalcStatic ks weights=rtodata srvdata (ratioSum srvdata) ∧ srvdata.Perm (ratioEntries weights) ∧
      srvdata.Pairwise fun a b => b.oratio≤a.oratio := by
  have hl := h.length_lt
  have hs : Ratio.sumRatio (ratioEntries weights)=_ := h.ratios.1.sumRatio (by omega)
  unfold schedRatioCalcStatic
  simp only
  rw [show (schedRatioCalc _ _ _).2=ratioEntries weights from rfl,hs]
  split_ifs with hd
  · exact ⟨_,by rw [ratioSum_perm (ks.perm _)],ks.perm _,ks.sorted _⟩
  · exact ⟨_,rfl,.refl _,pairwise_of_same (Bool.eq_false_iff.2 hd)⟩

/-- When ones and greatest ratios have changed places, the last ratio is one. -/
lemma SmallWeights.swapped_last_lt (h : SmallWeights weights) {one max : TfwRatioSrvData} (ho : one.oratio=1)
    (hmax : max∈ratioEntries weights) {srvdata : List TfwRatioSrvData}
    (hpe : srvdata.Perm ((ratioEntries weights).map (swapOneMax one max)))
    (hso : srvdata.Pairwise fun a b => b.oratio≤a.oratio) :
    ∀a mid last,srvdata=a::(mid++[last]) → ∀data∈mid++[last],data.oratio+last.oratio<2^32 := by
  rintro a mid last rfl data hd
  have hw := (h.small _ h.maxWgt_mem.1).2
  have hl : 2≤weights.length := by
    have hle := hpe.length_eq
    rw [length_map,h.ratios.1.length] at hle
    simp at hle
    omega
  have hub : ∀data∈ratioEntries weights,data.oratio≤2^32-2 := by
    intro data hd
    obtain ⟨heq,hle⟩ := h.oratio_eq hd
    rw [heq]
    exact Nat.max_le.2 ⟨by decide,hle.trans ((h.unit_le.2 hl).trans hw)⟩
  have hsub : ∀data∈ratioEntries weights,(swapOneMax one max data).oratio≤2^32-2 := by
    intro data hd
    have := hub data hd
    have := hub max hmax
    unfold swapOneMax
    split_ifs
    · assumption
    · exact ho.trans_le (by decide)
    · assumption
  have hlast : last.oratio≤1 := by
    have h1 : (swapOneMax one max max).oratio=1 := by
      unfold swapOneMax
      split_ifs with h0
      · exact h0
      · exact ho
      · exact absurd rfl ‹¬max.oratio=max.oratio›
    have hm := hpe.mem_iff.2 (mem_map_of_mem hmax)
    rw [← cons_append] at hm hso
    rw [← h1]
    obtain hm | hm := mem_append.1 hm
    · exact (pairwise_append.1 hso).2.2 _ hm _ (.head _)
    · rw [mem_singleton.1 hm]
  obtain ⟨data,hm,rfl⟩ := mem_map.1 (hpe.mem_iff.1 (.tail _ hd))
  have := hsub data hm
  omega

lemma SmallWeights.dynamic (h : SmallWeights weights) (h2 : weights≠[2^32-2,2^32-2]) :
    Fresh weights.length (schedRatioCalcDynamic ks weights) := by
  have hn := h.length_lt
  have hc := h.ratios.1
  have hp : 0<weights.length := length_pos_iff.2 h.ne_nil
  have hl := hc.length
  have hs : Ratio.sumRatio (ratioEntries weights)=_ := hc.sumRatio (by omega)
  have hm := (maxValIdx_spec h.initSrvdata_ne_nil).1
  rw [length_initSrvdata] at hm
  simp only [schedRatioCalcDynamic]
  rw [show (schedRatioCalc _ _ _).2=ratioEntries weights from rfl,hs]
  split_ifs with hd ho
  · refine ⟨_,hc,lastFits_of_last (h.last_lt h2 (.refl _) (pairwise_of_same ?_)),rfl⟩
    rwa [Bool.not_eq_true'] at hd
  · -- the smallest and the largest ratios change places
    generalize maxValIdx (initSrvdata weights)=maxIdx at hm
    have hme : (ratioEntries weights).getD maxIdx {}∈ratioEntries weights := by
      rw [getD_eq_getElem _ _ (by omega)]
      exact getElem_mem _
    have hf := foldl_swapOrsum ho (hc.oratio _ hme) 0 hc.oratio (by omega)
    rw [zero_add,zero_add] at hf
    rw [hf]
    have hsw := hc.swapOneMax ho hme
    have hla := h.swapped_last_lt ho hme (ks.perm _) (ks.sorted _)
    generalize (ratioEntries weights).getD maxIdx {}=max at hsw hla
    generalize (ratioEntries weights).map _ = swapped at hsw hla
    have hso := hsw.perm (ks.perm swapped)
    have hb := innerBounds_lt max.oratio (ks.sort swapped) 0 0 (by rw [hso.length]; omega)
    rw [hso.length,zero_add] at hb
    obtain ⟨he,hre⟩ := hso.reverseSdidx (ks.sort swapped).length
      (innerBounds max.oratio (ks.sort swapped) 0 0).1 hb
    refine ⟨_,he,hre ▸ lastFits_of_last hla,congrArg _ ?_⟩
    exact (ratioSum_perm (ks.perm swapped)).symm.trans (congrArg sum hre).symm
  · have hso := hc.perm (ks.perm (ratioEntries weights))
    obtain ⟨he,hre⟩ := hso.reverseSdidx (ks.sort (ratioEntries weights)).length 0
      (show (ks.sort (ratioEntries weights)).length-1<weights.length by rw [hso.length]; omega)
    refine ⟨_,he,hre ▸ lastFits_of_last (h.last_lt h2 (ks.perm _) (ks.sorted _)),congrArg _ ?_⟩
    exact (ratioSum_perm (ks.perm (ratioEntries weights))).symm.trans (congrArg sum hre).symm
end VetWaf.Ratio
