import VetWaf.Ratio.Calc
import VetWaf.Ratio.Cycle

namespace VetWaf.Ratio
open List Calls Function Word Ratio.Cycle
namespace TfwRatioData

def left (d : TfwRatioData) (si : Nat) : Nat := if si<d.reidx then (d.srvdata si).cratio else (d.srvdata si).oratio
def cycle (d : TfwRatioData) : Cycle := ⟨d.csidx,d.riter,d.left⟩

/-- What holds between two calls for a group of `n` servers with the ratios `oratio` -/
structure Inv (n : Nat) (oratio sdidx : Nat → Nat) (d : TfwRatioData) : Prop where
  srvN : d.srvN=n
  oratio_eq : ∀si,(d.srvdata si).oratio=oratio si
  sdidx_eq : ∀si,(d.srvdata si).sdidx=sdidx si
  csidx : d.csidx<n
  csidx_le : d.csidx≤d.reidx
  reidx : d.reidx≤n
  zero : ∀si,d.reidx ≤ si → si<n → (d.srvdata si).cratio=0
  le : ∀si,(d.srvdata si).cratio≤oratio si
  crsum : d.crsum=total n d.left
  pos : 0<d.crsum
  orsum : d.orsum=total n oratio

variable {n : Nat} {oratio sdidx : Nat → Nat} {d : TfwRatioData} {si : Nat}
lemma left_of_lt (h : si<d.reidx) : d.left si=(d.srvdata si).cratio := if_pos h

section
variable (h : Inv n oratio sdidx d)
include h
lemma Inv.left_of_ge (hs : d.reidx ≤ si) : d.left si=oratio si := by rw [left,if_neg (by omega),h.oratio_eq]

lemma Inv.left_le : d.left si≤oratio si := by
  unfold left
  split_ifs
  · exact h.le si
  · exact le_of_eq (h.oratio_eq si)

lemma Inv.isSrvTurn (hb : Cycle.Bounds n oratio) (hlt : d.csidx<d.reidx) :
    d.isSrvTurn d.csidx=d.cycle.turn n oratio := by
  have hc := h.csidx
  rw [TfwRatioData.isSrvTurn,turn]
  by_cases h0 : d.csidx=0
  · rw [if_pos h0,if_pos (show d.cycle.csidx=0 from h0)]
  · have hl : (if (d.srvdata (n-1)).cratio≠0 then (d.srvdata (n-1)).cratio else oratio (n-1)) =
        if d.left (n-1)≠0 then d.left (n-1) else oratio (n-1) := by
      by_cases hr : n-1<d.reidx
      · rw [left_of_lt hr]
      · have hp := (hb.ratio (n-1) (by omega)).1
        rw [h.zero (n-1) (by omega) (by omega),h.left_of_ge (by omega),if_neg (by omega),if_pos (by omega)]
    have hf : d.left 0=(d.srvdata 0).cratio := left_of_lt (by omega)
    have hpr : d.left (d.csidx-1)=(d.srvdata (d.csidx-1)).cratio := left_of_lt (by omega)
    rw [if_neg h0,if_neg (show d.cycle.csidx≠0 from h0)]
    simp only [cycle,h.srvN,h.oratio_eq,hl,hf,hpr,left_of_lt hlt]
    rfl

end

lemma srvdata_setCratio (si c j : Nat) : (d.setCratio si c).srvdata j =
      {d.srvdata j with cratio:=if j=si then c else (d.srvdata j).cratio} := by
  unfold setCratio
  by_cases hj : j=si
  · simp only [hj,update_self,if_true]
  · simp only [update_of_ne hj,if_neg hj]

lemma Inv.setCratio (h : Inv n oratio sdidx d) (si : Nat) {c : Nat} (hc : c≤oratio si) (j : Nat) :
    ((d.setCratio si c).srvdata j).oratio=oratio j ∧ ((d.setCratio si c).srvdata j).sdidx=sdidx j ∧
      ((d.setCratio si c).srvdata j).cratio≤oratio j := by
  rw [srvdata_setCratio]
  refine ⟨h.oratio_eq j,h.sdidx_eq j,?_⟩
  simp only
  split_ifs with hj
  · rw [hj]
    exact hc
  · exact h.le j

def refill (d : TfwRatioData) : TfwRatioData :=
  let d := d.setCratio d.csidx (d.srvdata d.csidx).oratio
  {d with reidx:=d.reidx+1}

lemma left_refill (heq : d.reidx=d.csidx) : d.refill.left=d.left := by
  funext si
  have hr : (d.setCratio d.csidx (d.srvdata d.csidx).oratio).reidx=d.reidx := rfl
  simp only [left,refill,srvdata_setCratio,hr]
  by_cases hs : si=d.csidx
  · subst hs
    rw [if_pos (by omega),if_pos rfl,if_neg (by omega)]
  · rw [if_neg hs]
    by_cases hlt : si<d.reidx
    · rw [if_pos hlt,if_pos (by omega)]
    · rw [if_neg hlt,if_neg (by omega)]

lemma Inv.refill (h : Inv n oratio sdidx d) (heq : d.reidx=d.csidx) : Inv n oratio sdidx d.refill := by
  have hc := h.csidx
  have hd := h.setCratio d.csidx (le_of_eq (h.oratio_eq _))
  refine ⟨h.srvN,fun si => (hd si).1,fun si => (hd si).2.1,hc,?_,?_,?_,
    fun si => (hd si).2.2,left_refill heq ▸ h.crsum,h.pos,h.orsum⟩
  · exact le_trans h.csidx_le (Nat.le_succ _)
  · change d.reidx+1≤n
    omega
  · intro si hs hlt
    change d.reidx+1 ≤ si at hs
    refine (congrArg _ (srvdata_setCratio _ _ si)).trans ?_
    simp only
    rw [if_neg (by omega)]
    exact h.zero si (by omega) hlt

lemma left_setCratio (hlt : si<d.reidx) (c : Nat) : (d.setCratio si c).left=update d.left si c := by
  funext j
  have hr : (d.setCratio si c).reidx=d.reidx := rfl
  rw [left,srvdata_setCratio,hr]
  by_cases hj : j=si
  · simp only [hj,if_pos hlt,update_self,if_true]
  · simp only [update_of_ne hj,if_neg hj]
    rfl

def take (d : TfwRatioData) : TfwRatioData := {d.setCratio d.csidx ((d.srvdata d.csidx).cratio-1) with crsum:=d.crsum-1}

lemma left_take (hlt : d.csidx<d.reidx) : d.take.left=update d.left d.csidx (d.left d.csidx-1) :=
  (left_setCratio hlt _).trans (by rw [left_of_lt hlt])

lemma Inv.data_take (h : Inv n oratio sdidx d) (si : Nat) :
    (d.take.srvdata si).oratio=oratio si ∧ (d.take.srvdata si).sdidx=sdidx si ∧ (d.take.srvdata si).cratio≤oratio si :=
  h.setCratio d.csidx (le_trans (Nat.sub_le _ _) (h.le _)) si

lemma Inv.take (h : Inv n oratio sdidx d) (hlt : d.csidx<d.reidx)
    (hp : 0<(d.srvdata d.csidx).cratio) (hl : 0<total n d.take.left) : Inv n oratio sdidx d.take := by
  have ht := total_update h.csidx (left_of_lt hlt ▸ hp)
  rw [← left_take hlt,← h.crsum] at ht
  have hc : d.take.crsum=d.crsum-1 := rfl
  refine ⟨h.srvN,fun si => (h.data_take si).1,fun si => (h.data_take si).2.1,h.csidx,h.csidx_le,h.reidx,?_,
    fun si => (h.data_take si).2.2,by omega,by omega,h.orsum⟩
  intro si hs hsn
  change d.reidx ≤ si at hs
  refine (congrArg _ (srvdata_setCratio _ _ si)).trans ?_
  simp only
  rw [if_neg (by omega)]
  exact h.zero si hs hsn

def reset (d : TfwRatioData) : TfwRatioData := {d.take with csidx:=0, riter:=1, crsum:=d.orsum, reidx:=0}

section
variable (h : Inv n oratio sdidx d)
include h
lemma Inv.left_reset : d.reset.left=oratio := by
  funext si
  exact (if_neg (Nat.not_lt_zero si)).trans (h.data_take si).1

lemma Inv.reset (hb : Cycle.Bounds n oratio) (hl : total n d.take.left=0) : Inv n oratio sdidx d.reset := by
  have hn : 0<n := Nat.zero_lt_of_lt h.csidx
  have h0 : ∀si<n,(d.take.srvdata si).cratio=0 := by
    intro si hsi
    have hs := Finset.sum_eq_zero_iff.1 hl si (Finset.mem_range.2 hsi)
    unfold left at hs
    split_ifs at hs
    · exact hs
    · have hp := (hb.ratio si hsi).1
      rw [(h.data_take si).1] at hs
      omega
  have hp := (valid_start hb hn).left
  exact ⟨h.srvN,fun si => (h.data_take si).1,fun si => (h.data_take si).2.1,hn,le_rfl,zero_le,
    fun si _ => h0 si,fun si => (h.data_take si).2.2,h.left_reset ▸ h.orsum,Nat.lt_of_lt_of_eq hp h.orsum.symm,h.orsum⟩

lemma Inv.move {csidx : Nat} (riter : Nat) (hlt : csidx<n)
    (hle : csidx≤d.reidx) : Inv n oratio sdidx {d with csidx:=csidx, riter:=riter} :=
  ⟨h.srvN,h.oratio_eq,h.sdidx_eq,hlt,hle,h.reidx,h.zero,h.le,h.crsum,h.pos,h.orsum⟩

lemma Inv.crsum_lt (hs : total n oratio<2^64) : d.crsum<2^64 := by
  have hle : total n d.left≤total n oratio := Finset.sum_le_sum fun si _ => h.left_le
  rw [h.crsum]
  omega

lemma Inv.chooseSrv (hb : Cycle.Bounds n oratio)
    (hs : total n oratio<2^64) (hlt : d.csidx<d.reidx) (hp : 0<(d.srvdata d.csidx).cratio) :
    ∃d',d.chooseSrv d.csidx=.ok (sdidx d.csidx,d') ∧ d'.cycle=d.cycle.choose n oratio ∧ Inv n oratio sdidx d' := by
  have hc := h.csidx
  have hcr : sub 64 (d.setCratio d.csidx ((d.srvdata d.csidx).cratio-1)).crsum 1=d.crsum-1 :=
    sub_of_le (h.crsum_lt hs) h.pos
  have hcra : sub 32 (d.srvdata d.csidx).cratio 1=(d.srvdata d.csidx).cratio-1 := by
    have hle := h.le d.csidx
    have hr := (hb.ratio d.csidx hc).2
    exact sub_of_le (by omega) hp
  have hto := total_update hc (left_of_lt hlt ▸ hp)
  rw [← left_take hlt,← h.crsum] at hto
  have hch : (d.take.srvdata d.csidx).sdidx=sdidx d.csidx := (h.data_take _).2.1
  have hco : d.chooseSrv d.csidx = if d.crsum-1=0 then .ok (sdidx d.csidx,d.reset)
      else if d.csidx+1=n then
        if d.reidx≠n then .error .bug else .ok (sdidx d.csidx,{d.take with csidx:=0, riter:=1})
      else .ok (sdidx d.csidx,{d.take with csidx:=d.csidx+1}) := by
    rw [← hch,← h.srvN,TfwRatioData.chooseSrv,hcra]
    simp only [hcr]
    rfl
  rw [hco]
  have hcho : d.cycle.choose n oratio = if total n d.take.left=0 then start oratio
      else advance n {d.cycle with left:=d.take.left} := by
    rw [left_take hlt]
    rfl
  rw [hcho]
  by_cases h0 : total n d.take.left=0
  · rw [if_pos (by omega),if_pos h0]
    refine ⟨_,rfl,?_,h.reset hb h0⟩
    rw [cycle,h.left_reset]
    rfl
  · have ht := h.take hlt hp (Nat.pos_of_ne_zero h0)
    rw [if_neg (by omega),if_neg h0]
    by_cases he : d.csidx+1=n
    · have hre := h.reidx
      rw [if_pos he,if_neg (by omega)]
      exact ⟨_,rfl,(if_pos he).symm,ht.move 1 (by omega) zero_le⟩
    · rw [if_neg he]
      exact ⟨_,rfl,(if_neg he).symm,ht.move d.riter (by omega) hlt⟩

end

variable {s : Cycle}
lemma Inv.trySrv (h : Inv n oratio sdidx d) (hb : Cycle.Bounds n oratio)
    (hs : total n oratio<2^64) (hlt : d.csidx<d.reidx)
    (hp : 0<(d.srvdata d.csidx).cratio) {chosen : Option Nat} (hst : d.cycle.step n oratio=(chosen,s)) :
    ∃d',d.trySrv d.csidx=.ok (chosen.map sdidx,d') ∧ d'.cycle=s ∧ Inv n oratio sdidx d' := by
  have hl : d.cycle.left d.cycle.csidx≠0 := by
    have hl : d.left d.csidx=(d.srvdata d.csidx).cratio := left_of_lt hlt
    change d.left d.csidx≠0
    omega
  rw [step,if_neg hl,← h.isSrvTurn hb hlt] at hst
  unfold TfwRatioData.trySrv
  split_ifs at hst with ht
  · cases hst
    obtain ⟨d',hc,hcy,hi⟩ := h.chooseSrv hb hs hlt hp
    rw [if_pos ht,hc]
    exact ⟨d',rfl,hcy,hi⟩
  · cases hst
    rw [if_neg ht]
    exact ⟨_,rfl,rfl,h.move _ (Nat.zero_lt_of_lt h.csidx) zero_le⟩

lemma Inv.nextSrvStep (h : Inv n oratio sdidx d) (hb : Cycle.Bounds n oratio)
    (hs : total n oratio<2^64) {chosen : Option Nat} (hst : d.cycle.step n oratio=(chosen,s)) :
    ∃d',d.nextSrvStep=.ok (chosen.map sdidx,d') ∧ d'.cycle=s ∧ Inv n oratio sdidx d' := by
  have hc := h.csidx
  have hle := h.csidx_le
  unfold TfwRatioData.nextSrvStep
  by_cases heq : d.reidx=d.csidx
  · have hp : 0<(d.refill.srvdata d.csidx).cratio := by
      have hcr : (d.refill.srvdata d.csidx).cratio=(d.srvdata d.csidx).oratio :=
        (congrArg _ (srvdata_setCratio _ _ d.csidx)).trans (if_pos rfl)
      rw [hcr,h.oratio_eq]
      exact (hb.ratio d.csidx hc).1
    rw [if_pos (h.zero d.csidx (by omega) hc),if_neg (by omega)]
    have hcy : d.refill.cycle=d.cycle := by
      rw [cycle,left_refill heq]
      rfl
    exact (h.refill heq).trySrv hb hs (Nat.lt_succ_of_le hle) hp (hcy ▸ hst)
  · by_cases h0 : (d.srvdata d.csidx).cratio=0
    · have hl : d.cycle.left d.cycle.csidx=0 := (left_of_lt (show d.csidx<d.reidx by omega)).trans h0
      rw [if_pos h0,if_pos heq]
      rw [step,if_pos hl,advance] at hst
      cases hst
      have hsr := h.srvN
      by_cases he : d.csidx+1=d.srvN
      · simp only [if_pos he]
        exact ⟨_,rfl,(if_pos (hsr ▸ he)).symm,h.move 1 (by omega) zero_le⟩
      · simp only [if_neg he]
        exact ⟨_,rfl,(if_neg (hsr ▸ he)).symm,h.move d.riter (by omega) (by omega)⟩
    · rw [if_neg h0]
      exact h.trySrv hb hs (by omega) (Nat.pos_of_ne_zero h0) hst


lemma Inv.nextSrvLoop (h : Inv n oratio sdidx d) (hb : Cycle.Bounds n oratio)
    (hs : total n oratio<2^64) {k chosen : Nat} (hl : d.cycle.loop n oratio k=some (chosen,s)) :
    ∃d',nextSrvLoop k d=.ok (sdidx chosen,d') ∧ d'.cycle=s ∧ Inv n oratio sdidx d' := by
  induction k generalizing d with
  | zero => cases hl
  | succ k ih =>
    rw [loop] at hl
    rw [TfwRatioData.nextSrvLoop]
    generalize hst : d.cycle.step n oratio=step at hl
    obtain ⟨chosen',s'⟩ := step
    obtain ⟨d',hn,hc,hi⟩ := h.nextSrvStep hb hs hst
    rw [hn]
    cases chosen' with
    | some chosen' =>
      cases hl
      exact ⟨d',rfl,hc,hi⟩
    | none => exact ih hi (hc ▸ hl)

/-- `tfw_sched_ratio_next_srv` when it returns -/
def next (d : TfwRatioData) : Option (Nat×TfwRatioData) := d.nextSrv.toOption

lemma Inv.next (h : Inv n oratio sdidx d) (hb : Cycle.Bounds n oratio)
    (hs : total n oratio<2^64) {chosen : Nat} (hn : d.cycle.next n oratio=some (chosen,s)) :
    ∃d',d.next=some (sdidx chosen,d') ∧ d'.cycle=s ∧ Inv n oratio sdidx d' := by
  obtain ⟨d',hl,hc,hi⟩ := h.nextSrvLoop hb hs hn
  refine ⟨d',?_,hc,hi⟩
  rw [TfwRatioData.next,nextSrv,h.srvN,hl]
  rfl

lemma Inv.calls (h : Inv n oratio sdidx d) (hb : Cycle.Bounds n oratio)
    (hs : total n oratio<2^64) {m : Nat} {picks : List Nat}
    (hc : calls (Cycle.next n oratio) m d.cycle=some (picks,s)) :
    ∃d',Calls.calls TfwRatioData.next m d=some (picks.map sdidx,d') ∧ d'.cycle=s ∧ Inv n oratio sdidx d' :=
  calls_of_simulation (fun _ _ _ hd hn => hd.next hb hs hn) h hc

end TfwRatioData

variable {n : Nat} {srvdata : List TfwRatioSrvData}
lemma Cycle.Valid.calls {oratio : Nat → Nat} {s : Cycle} (h : s.Valid n oratio)
    (hb : Cycle.Bounds n oratio) (m : Nat) : ∃picks s',Calls.calls (Cycle.next n oratio) m s=some (picks,s') := by
  induction m generalizing s with
  | zero => exact ⟨[],s,rfl⟩
  | succ m ih =>
    obtain ⟨i,s1,hn,hc⟩ := h.next hb
    obtain ⟨picks,s',hca⟩ := ih hc.valid
    exact ⟨i::picks,s',calls_succ_eq_some.2 ⟨i,s1,picks,hn,hca,rfl⟩⟩

lemma Cycle.block {oratio : Nat → Nat} (hb : Cycle.Bounds n oratio) (hn : 0<n) (m : Nat) :
    ∃before s block,Calls.calls (Cycle.next n oratio) m (start oratio)=some (before,s) ∧
      Calls.calls (Cycle.next n oratio) (total n oratio) s=some (block,s) ∧
      (∀i∈block,i<n) ∧ ∀i<n,block.count i=oratio i := by
  have hv := valid_start hb hn
  obtain ⟨before,s,hbe⟩ := hv.calls hb m
  obtain ⟨picks,hc,hlt,hco⟩ := hv.calls_total hb
  obtain ⟨block,hbl,hp⟩ := calls_window hc hv.left hbe
  refine ⟨before,s,block,hbe,hbl,?_,?_⟩
  · intro i hi
    exact hlt i (hp.mem_iff.1 hi)
  · intro i hi
    rw [hp.count_eq i]
    exact hco i hi

lemma total_getD (srvdata : List TfwRatioSrvData) :
    total srvdata.length (fun si => (srvdata.getD si {}).oratio)=ratioSum srvdata := by
  induction srvdata with
  | nil => rfl
  | cons data rest ih =>
    unfold total at ih ⊢
    rw [length_cons,Finset.sum_range_succ',ratioSum,map_cons,sum_cons,← ratioSum,← ih,add_comm]
    rfl

lemma count_map_of_injOn {f : Nat → Nat} {l : List Nat} {i : Nat} (hl : ∀j∈l,j<n)
    (hi : ∀j<n,f j=f i → j=i) : (l.map f).count (f i)=l.count i := by
  rw [count,count,countP_map]
  refine countP_congr fun j hj => ?_
  simp only [comp_apply,beq_iff_eq]
  constructor
  · exact hi j (hl j hj)
  · intro heq
    rw [heq]

variable {n : Nat} {d : TfwRatioData}
lemma Entries.bounds (h : Entries n srvdata) (hf : LastFits (srvdata.map (·.oratio))) (hn : n<2^31) :
    Cycle.Bounds n fun si => (srvdata.getD si {}).oratio := by
  have hl := h.length
  refine ⟨hn,fun si hs => ?_,fun si hp hs => ?_⟩
  · rw [getD_eq_getElem _ _ (by omega)]
    exact h.oratio _ (getElem_mem _)
  · have hlt := hf si hp (by rw [length_map]; omega)
    rwa [length_map,hl,getD_eq_getElem _ _ (by rw [length_map]; omega),getElem_map,
      getD_eq_getElem _ _ (by rw [length_map]; omega),getElem_map,← getD_eq_getElem _ {},← getD_eq_getElem _ {}] at hlt

lemma Entries.inv (h : Entries n srvdata) (hb : Cycle.Bounds n fun si => (srvdata.getD si {}).oratio) (hp : 0<n) :
    let d := rtodata srvdata (ratioSum srvdata)
    d.cycle=start (fun si => (srvdata.getD si {}).oratio) ∧
      d.Inv n (fun si => (srvdata.getD si {}).oratio) (fun si => (srvdata.getD si {}).sdidx) := by
  intro d
  have hl := h.length
  have hc : ∀si,(srvdata.getD si {}).cratio=(srvdata.getD si {}).oratio := by
    intro si
    by_cases hs : si<srvdata.length
    · rw [getD_eq_getElem _ _ hs]
      exact h.cratio _ (getElem_mem hs)
    · rw [getD_eq_default _ _ (by omega)]
  have hlf : d.left=fun si => (srvdata.getD si {}).oratio := by
    funext si
    unfold TfwRatioData.left
    split_ifs
    · exact hc si
    · rfl
  have ht := total_getD srvdata
  rw [hl] at ht
  refine ⟨?_,hl,fun _ => rfl,fun _ => rfl,hp,zero_le,le_of_eq hl,?_,?_,?_,?_,ht.symm⟩
  · rw [TfwRatioData.cycle,hlf]
    rfl
  · intro si hs hlt
    change srvdata.length ≤ si at hs
    omega
  · intro si
    exact le_of_eq (hc si)
  · rw [hlf]
    exact ht.symm
  · have hlf := (valid_start hb hp).left
    exact Nat.lt_of_lt_of_eq hlf ht

lemma map_range_getD (f : TfwRatioSrvData → Nat) (srvdata : List TfwRatioSrvData) :
    ((List.range srvdata.length).map fun si => f (srvdata.getD si {}))=srvdata.map f := by
  refine ext_getElem (by simp) ?_
  intro si _ hs
  rw [length_map] at hs
  simp [hs]

lemma Entries.sdidx_inj (h : Entries n srvdata) {si sj : Nat} (hi : si<n)
    (hj : sj<n) (heq : (srvdata.getD si {}).sdidx=(srvdata.getD sj {}).sdidx) : si=sj := by
  have hnd : (srvdata.map (·.sdidx)).Nodup := h.sdidx.nodup_iff.2 nodup_range
  have hl := h.length
  refine (@List.Nodup.getElem_inj_iff _ _ hnd si (by rw [length_map]; omega) sj (by rw [length_map]; omega)).1 ?_
  rw [getElem_map,getElem_map,← getD_eq_getElem _ {},heq,getD_eq_getElem]

lemma Fresh.block (h : Fresh n d) (hn : n<2^31) (hp : 0<n) (m : Nat) :
    ∃before d' block d'',calls TfwRatioData.next m d=some (before,d') ∧
      calls TfwRatioData.next d.orsum d'=some (block,d'') ∧
      ((List.range n).map fun si => (d.srvdata si).sdidx).Perm (List.range n) ∧ (∀server∈block,server<n) ∧
      ∀si<n,block.count (d.srvdata si).sdidx=(d.srvdata si).oratio := by
  obtain ⟨srvdata,he,hf,rfl⟩ := h
  have hb := he.bounds hf hn
  obtain ⟨hcy,hi⟩ := he.inv hb hp
  have hl := he.length
  obtain ⟨before,s,block,hbe,hbl,hlt,hco⟩ := Cycle.block hb hp m
  have ht := total_getD srvdata
  rw [hl] at ht
  have hsu : total n (fun si => (srvdata.getD si {}).oratio)<2^64 := by
    have hle := he.ratioSum_le
    omega
  rw [← hcy] at hbe
  obtain ⟨d',hc,hs,hi'⟩ := hi.calls hb hsu hbe
  rw [← hs,ht] at hbl
  obtain ⟨d'',hc',-,-⟩ := hi'.calls hb hsu hbl
  have hpe : ((List.range n).map fun si => (srvdata.getD si {}).sdidx).Perm (List.range n) := by
    rw [← hl,map_range_getD (·.sdidx),hl]
    exact he.sdidx
  refine ⟨_,d',_,d'',hc,hc',hpe,?_,?_⟩
  · intro server hse
    obtain ⟨si,hsi,rfl⟩ := mem_map.1 hse
    exact mem_range.1 (hpe.mem_iff.1 (mem_map.2 ⟨si,mem_range.2 (hlt si hsi),rfl⟩))
  · intro si hsi
    have hco' := count_map_of_injOn (f := fun si => (srvdata.getD si {}).sdidx) hlt
      (fun sj hsj heq => he.sdidx_inj hsj hsi heq)
    exact hco'.trans (hco si hsi)

/-- For weights up to `2 ^ 32 - 2`, static or dynamic, any `orsum` calls in a row choose each server as often as its
ratio says. Two servers of the greatest of these weights are the exception. -/
theorem ratio_blocks_fair (ks : KernelSort) (weights : List Nat) (hne : weights≠[]) (hn : weights.length<2^31-100)
    (hweights : ∀weight∈weights,1≤weight ∧ weight≤2^32-2) (hpair : weights≠[2^32-2,2^32-2]) (d : TfwRatioData)
    (hd : d=schedRatioCalcStatic ks weights ∨ d=schedRatioCalcDynamic ks weights) (m : Nat) :
    ∃before d' block d'',calls TfwRatioData.next m d=some (before,d') ∧
      calls TfwRatioData.next d.orsum d'=some (block,d'') ∧
      ((List.range weights.length).map fun si => (d.srvdata si).sdidx).Perm (List.range weights.length) ∧
      (∀server∈block,server<weights.length) ∧
      ∀si<weights.length,block.count (d.srvdata si).sdidx=(d.srvdata si).oratio := by
  have hw : SmallWeights weights := ⟨hne,hn,hweights⟩
  have hp : 0<weights.length := length_pos_iff.2 hne
  cases hd with
  | inl hd =>
    subst hd
    obtain ⟨srvdata,hd,hpe,hso⟩ := hw.static ks
    exact Fresh.block ⟨srvdata,hw.ratios.1.perm hpe,lastFits_of_last (hw.last_lt hpair hpe hso),hd⟩ (by omega) hp m
  | inr hd =>
    subst hd
    exact (hw.dynamic ks hpair).block (by omega) hp m

def insertionKernelSort : KernelSort where
  sort := insertionSort fun a b => b.oratio≤a.oratio
  perm := perm_insertionSort _
  sorted := by
    have : Std.Total fun a b : TfwRatioSrvData => b.oratio≤a.oratio := ⟨fun a b => le_total b.oratio a.oratio⟩
    have : IsTrans TfwRatioSrvData fun a b => b.oratio≤a.oratio := ⟨fun a b c hab hbc => le_trans hbc hab⟩
    exact pairwise_insertionSort _

theorem ratio_blocks_fair_dynamic : let d := schedRatioCalcDynamic insertionKernelSort [2^32-2,2^31,1]
    d.orsum=2^32 ∧ ∃before d' block d'',calls TfwRatioData.next 5 d=some (before,d') ∧
      calls TfwRatioData.next d.orsum d'=some (block,d'') ∧
      ((List.range 3).map fun si => (d.srvdata si).sdidx).Perm (List.range 3) ∧ (∀server∈block,server<3) ∧
      ∀si<3,block.count (d.srvdata si).sdidx=(d.srvdata si).oratio :=
  ⟨by decide +kernel,ratio_blocks_fair insertionKernelSort [2^32-2,2^31,1] (by decide) (by decide) (by decide)
    (by decide) _ (.inr rfl) 5⟩

/-- A weight is from 1 to 100; the descriptors of a group are one `kzalloc` object of a few megabytes at most. -/
theorem static_ratios (ks : KernelSort) (weights : List Nat) (hne : weights≠[]) (hn : weights.length<2^31-100)
    (hweights : ∀weight∈weights,1≤weight ∧ weight≤100) :
    let d := schedRatioCalcStatic ks weights
    sumWgt weights≠0 ∧ ((initSrvdata weights).getD (maxValIdx (initSrvdata weights)) {}).weight≠0 ∧
      (∀si<weights.length,1≤(d.srvdata si).oratio) ∧
      (∀si<weights.length,∀sj<weights.length,weights.getD (d.srvdata si).sdidx 0≤weights.getD (d.srvdata sj).sdidx 0 →
          (d.srvdata si).oratio≤(d.srvdata sj).oratio) ∧
      (∀si sj,si<sj → sj<weights.length → (d.srvdata sj).oratio≤(d.srvdata si).oratio) ∧
      ((List.range weights.length).map fun si => (d.srvdata si).sdidx).Perm (List.range weights.length) ∧
      d.orsum=((List.range weights.length).map fun si => (d.srvdata si).oratio).sum := by
  have h : SmallWeights weights := ⟨hne,hn,fun weight hm => by
    have hw := hweights weight hm
    omega⟩
  obtain ⟨hr,hw,hmo⟩ := h.ratios
  obtain ⟨srvdata,hd,hpe,hso⟩ := h.static ks
  have he := hr.perm hpe
  have hl := he.length
  have hm : ∀si<weights.length,srvdata.getD si {}∈srvdata := by
    intro si hsi
    rw [getD_eq_getElem _ _ (by omega)]
    exact getElem_mem _
  obtain ⟨hlt,-⟩ := maxValIdx_spec h.initSrvdata_ne_nil
  have hma := getElem_mem hlt
  rw [← getD_eq_getElem _ {} hlt] at hma
  have hp := hweights _ (mem_initSrvdata hma).1
  have hs : _≤weights.sum := le_sum_of_mem (mem_initSrvdata hma).1
  rw [hd,h.sumWgt]
  refine ⟨by omega,by omega,?_,?_,?_,?_,?_⟩
  · intro si hsi
    exact (he.oratio _ (hm si hsi)).1
  · intro si hsi sj hsj hle
    have hs' := hpe.mem_iff.1 (hm si hsi)
    have hsj' := hpe.mem_iff.1 (hm sj hsj)
    refine hmo _ hs' _ hsj' ?_
    rw [hw _ hs']
    exact hle.trans_eq (hw _ hsj').symm
  · intro si sj hlt hsj
    simp only [rtodata]
    rw [getD_eq_getElem _ _ (by omega),getD_eq_getElem _ _ (by omega)]
    exact pairwise_iff_getElem.1 hso si sj (by omega) (by omega) hlt
  · rw [← hl]
    exact .trans (.of_eq (map_range_getD (·.sdidx) srvdata)) (hl ▸ he.sdidx)
  · rw [← hl]
    exact (congrArg sum (map_range_getD (·.oratio) srvdata)).symm

theorem static_ratios_three : let d := schedRatioCalcStatic insertionKernelSort [1,100,50]
    ((List.range 3).map fun si => (d.srvdata si).oratio)=[68,34,1] ∧ (d.srvdata 0).sdidx=1 ∧
      d.orsum=((List.range 3).map fun si => (d.srvdata si).oratio).sum :=
  ⟨by decide +kernel,by decide +kernel,
    (static_ratios insertionKernelSort [1,100,50] (by decide) (by decide) (by decide)).2.2.2.2.2.2⟩

/-- Two servers with ratios of `2 ^ 31`, of which the second one has not been chosen yet: twice its ratio is zero in 32
bits, so that it does not get its turn. -/
structure Starved (left : Nat) (d : TfwRatioData) : Prop where
  srvN : d.srvN=2
  reidx : d.reidx=2
  csidx : d.csidx=0 ∨ d.csidx=1
  first : (d.srvdata 0).cratio=left
  second : (d.srvdata 1).cratio=2^31
  crsum : d.crsum=left+2^31

section
variable {left : Nat} {d : TfwRatioData}
lemma Starved.isSrvTurn (h : Starved left d) : d.isSrvTurn 1=false := by
  have hlast : add 32 2147483648 2147483648=0 := by decide
  simp [TfwRatioData.isSrvTurn,h.srvN,h.second,hlast,trunc]

lemma Starved.step_second (h : Starved left d) (hc : d.csidx=1) :
    ∃d',d.nextSrvStep=.ok (none,d') ∧ Starved left d' ∧ d'.csidx=0 := by
  refine ⟨{d with csidx:=0, riter:=add 32 d.riter 1},?_,⟨h.srvN,h.reidx,.inl rfl,h.first,h.second,h.crsum⟩,rfl⟩
  unfold TfwRatioData.nextSrvStep TfwRatioData.trySrv
  rw [hc,if_neg (by rw [h.second]; decide),if_neg (by rw [h.isSrvTurn]; decide)]

lemma Starved.step_none (h : Starved 0 d) : ∃d',d.nextSrvStep=.ok (none,d') ∧ Starved 0 d' := by
  obtain hc | hc := h.csidx
  · refine ⟨{d with csidx:=1},?_,⟨h.srvN,h.reidx,.inr rfl,h.first,h.second,h.crsum⟩⟩
    simp [TfwRatioData.nextSrvStep,hc,h.first,h.reidx,h.srvN]
  · obtain ⟨d',hst,hs,-⟩ := h.step_second hc
    exact ⟨d',hst,hs⟩

lemma Starved.loop (h : Starved 0 d) (k : Nat) : TfwRatioData.nextSrvLoop k d=.error .fuel := by
  induction k generalizing d with
  | zero => rfl
  | succ k ih =>
    obtain ⟨d',hst,hs⟩ := h.step_none
    rw [TfwRatioData.nextSrvLoop,hst]
    exact ih hs

lemma Starved.step_first (h : Starved (left+1) d) (hl : left<2^31) (hc : d.csidx=0) :
    ∃chosen d',d.nextSrvStep=.ok (some chosen,d') ∧ Starved left d' := by
  have hcr : sub 32 (left+1) 1=left := sub_of_le (by omega) (by omega)
  have hsu : sub 64 (left+1+2^31) 1=left+2^31 := by
    rw [sub_of_le (by omega) (by omega)]
    omega
  refine ⟨(d.srvdata 0).sdidx,{d.setCratio 0 left with crsum:=left+2^31, csidx:=1},?_,?_⟩
  · have hch : d.chooseSrv 0=.ok ((d.srvdata 0).sdidx,{d.setCratio 0 left with crsum:=left+2^31, csidx:=1}) := by
      have hcd : (d.setCratio 0 left).crsum=left+1+2^31 := h.crsum
      have hcs : (d.setCratio 0 left).csidx=0 := hc
      have hn : (d.setCratio 0 left).srvN=2 := h.srvN
      simp only [TfwRatioData.chooseSrv,h.first,hcr,hcd,hsu,hcs,hn]
      rw [if_neg (by omega),if_neg (by decide)]
      rfl
    rw [TfwRatioData.nextSrvStep,hc,if_neg (by rw [h.first]; omega),TfwRatioData.trySrv,
      if_pos (show d.isSrvTurn 0=true from rfl),hch]
    rfl
  · exact ⟨h.srvN,h.reidx,.inr rfl,rfl,h.second,rfl⟩

lemma Starved.next (h : Starved (left+1) d) (hl : left<2^31) :
    ∃chosen d',d.next=some (chosen,d') ∧ Starved left d' := by
  have hn : d.nextSrv=TfwRatioData.nextSrvLoop (7+1+1) d := by
    rw [TfwRatioData.nextSrv,h.srvN]
  rw [TfwRatioData.next,hn]
  obtain hc | hc := h.csidx
  · obtain ⟨chosen,d',hst,hs⟩ := h.step_first hl hc
    refine ⟨chosen,d',?_,hs⟩
    rw [TfwRatioData.nextSrvLoop,hst]
    rfl
  · obtain ⟨d1,hst,hs,hc⟩ := h.step_second hc
    obtain ⟨chosen,d',hst',hs'⟩ := hs.step_first hl hc
    refine ⟨chosen,d',?_,hs'⟩
    rw [TfwRatioData.nextSrvLoop,hst]
    change (TfwRatioData.nextSrvLoop (7+1) d1).toOption=_
    rw [TfwRatioData.nextSrvLoop,hst']
    rfl

lemma Starved.calls (h : Starved left d) (hl : left≤2^31) :
    ∃before d',Calls.calls TfwRatioData.next left d=some (before,d') ∧ Starved 0 d' := by
  induction left generalizing d with
  | zero => exact ⟨[],d,rfl,h⟩
  | succ left ih =>
    obtain ⟨chosen,d1,hn,hs⟩ := h.next (by omega)
    obtain ⟨before,d',hc,hs'⟩ := ih hs (by omega)
    exact ⟨chosen::before,d',calls_succ_eq_some.2 ⟨chosen,d1,before,hn,hc,rfl⟩,hs'⟩

end

/-- One server whose response time is the largest number of 32 bits, and two servers of the weight below it. -/
theorem next_never_returns :
    (∀k,TfwRatioData.nextSrvLoop k (schedRatioCalcDynamic insertionKernelSort [2^32-1])=.error .fuel) ∧
    ∃before d,calls TfwRatioData.next (2^31) (schedRatioCalcDynamic insertionKernelSort [2^32-2,2^32-2]) =
        some (before,d) ∧ ∀k,TfwRatioData.nextSrvLoop k d=.error .fuel := by
  refine ⟨fun k => ?_,?_⟩
  · generalize hd : schedRatioCalcDynamic insertionKernelSort [2^32-1]=d
    have hst : d.nextSrvStep=.ok (none,d) := by
      rw [← hd]
      rfl
    induction k with
    | zero => rfl
    | succ k ih =>
      rw [TfwRatioData.nextSrvLoop,hst]
      exact ih
  · have hs : Starved (2^31) (schedRatioCalcDynamic insertionKernelSort [2^32-2,2^32-2]) :=
      ⟨rfl,rfl,.inl rfl,by decide +kernel,by decide +kernel,by decide +kernel⟩
    obtain ⟨before,d,hc,hs⟩ := hs.calls le_rfl
    exact ⟨before,d,hc,hs.loop⟩
end VetWaf.Ratio
