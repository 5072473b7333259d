import VetWaf.Apm.Stats

namespace VetWaf.Apm
open Finset Function List Nat

def rowSum (cnt : Nat → Nat) : Nat := ∑ b∈Finset.range statsBckts,cnt b

variable {cnt : Nat → Nat}
lemma rowSum_update (cnt : Nat → Nat) {b : Nat} (hb : b<statsBckts) (v : Nat) :
    rowSum (update cnt b v)+cnt b=rowSum cnt+v := by
  have hm := Finset.mem_range.2 hb
  rw [rowSum,rowSum,sum_update_of_mem hm,← sum_sdiff (singleton_subset_iff.2 hm),Finset.sum_singleton]
  omega

lemma rowSum_halves (cnt : Nat → Nat) : rowSum cnt = ∑ i∈Finset.range 8,cnt i + ∑ i∈Finset.range 8,cnt (8+i) :=
  sum_range_add cnt 8 8

lemma rowSum_pairs (cnt : Nat → Nat) : rowSum cnt = ∑ i∈Finset.range 8,(cnt (2*i)+cnt (2*i+1)) := by
  rw [rowSum,statsBckts,← InPlace.sum_blocks cnt 2 8]
  refine Finset.sum_congr rfl fun i _ => ?_
  rw [Finset.sum_range_succ,Finset.sum_range_one,add_zero]

lemma rowSum_grow (cnt : Nat → Nat) (c : Nat) : rowSum (fun b => if statsBckts/2≤b ∧ b<statsBckts then c else
      InPlace.rewrite (fun cnt i => cnt (2*i)+cnt (2*i+1)) (statsBckts/2) cnt b)=rowSum cnt+c*(statsBckts/2) := by
  have hr : ∀a b : Nat → Nat,∀i,(∀j,i≤j → a j=b j) → a (2*i)+a (2*i+1)=b (2*i)+b (2*i+1) := by
    intro a b i h
    rw [h (2*i) (by omega),h (2*i+1) (by omega)]
  have hv : ∀b<statsBckts,(if statsBckts/2≤b ∧ b<statsBckts then c else
      InPlace.rewrite (fun cnt i => cnt (2*i)+cnt (2*i+1)) (statsBckts/2) cnt b) =
      if b<8 then cnt (2*b)+cnt (2*b+1) else c := by
    intro b hb
    have hB : statsBckts=16 := rfl
    rw [InPlace.rewrite_eq hr]
    by_cases hlt : b<8
    · rw [if_pos hlt,if_neg (by omega)]
      exact if_pos hlt
    · rw [if_neg hlt,if_pos (by omega)]
  rw [rowSum,Finset.sum_congr rfl fun b hb => hv b (Finset.mem_range.1 hb),
    InPlace.sum_ite_lt _ _ (show 8 ≤ statsBckts by decide),rowSum_pairs,sum_const,
    card_range,nsmul_eq_mul,mul_comm c]
  rfl

lemma sumLeft_eq (cnt : Nat → Nat) : sumLeft cnt=update cnt 0 (∑ i∈Finset.range 8,cnt i) := by
  have hl : ∀k,(range' 1 k).foldl (fun cnt i => update cnt 0 (cnt 0+cnt i)) cnt =
      update cnt 0 (∑ i∈Finset.range (k+1),cnt i) := by
    intro k
    induction k with
    | zero => simp
    | succ k ih =>
      rw [range'_1_concat,foldl_append,ih,foldl_cons,foldl_nil,update_self,
        update_idem,update_of_ne (by omega),Finset.sum_range_succ _ (k+1),add_comm 1 k]
  exact hl 7

/-- The part of a counter of the right half that goes to bucket `j` -/
def splitPart (cnt : Nat → Nat) (j : Nat) : Nat := if j%2=0 then cnt (8+j/2)/2 else cnt (8+j/2)-cnt (8+j/2)/2

lemma splitRight_eq (cnt : Nat → Nat) (i : Nat) :
    splitRight cnt i=update (update cnt (i*2) (cnt (8+i)/2)) (i*2+1) (cnt (8+i)-cnt (8+i)/2) := rfl

lemma splitRight_loop (cnt : Nat → Nat) {k : Nat} (hk : k≤7) : (range' 1 k).foldl splitRight cnt =
      fun j => if 2≤j ∧ j<2*k+2 then splitPart cnt j else cnt j := by
  induction k with
  | zero =>
    funext j
    exact (if_neg (by omega)).symm
  | succ k ih =>
    have hr : ¬(2≤8+(1+k) ∧ 8+(1+k)<2*k+2) := by omega
    rw [range'_1_concat,foldl_append,ih (by omega),foldl_cons,foldl_nil,splitRight_eq,
      -- the counter that is split has not been overwritten by an earlier turn
      if_neg hr]
    funext j
    by_cases ho : j=(1+k)*2+1
    · have hp : splitPart cnt j=cnt (8+(1+k))-cnt (8+(1+k))/2 := by
        rw [splitPart,if_neg (by omega),show j/2=1+k by omega]
      rw [ho,update_self,if_pos (by omega),← ho,hp]
    · rw [update_of_ne ho]
      by_cases he : j=(1+k)*2
      · have hp : splitPart cnt j=cnt (8+(1+k))/2 := by rw [splitPart,if_pos (by omega),show j/2=1+k by omega]
        rw [he,update_self,if_pos (by omega),← he,hp]
      · rw [update_of_ne he]
        by_cases hj : 2≤j ∧ j<2*k+2
        · rw [if_pos hj,if_pos (by omega)]
        · rw [if_neg hj,if_neg (by omega)]

lemma splitPart_pair (cnt : Nat → Nat) (i : Nat) : splitPart cnt (2*i)+splitPart cnt (2*i+1)=cnt (8+i) := by
  rw [splitPart,splitPart,if_pos (by omega),if_neg (by omega),show 2*i/2=i by omega,show (2*i+1)/2=i by omega]
  omega

lemma rowSum_shrinkCnt (cnt : Nat → Nat) : rowSum (shrinkCnt cnt)=rowSum cnt := by
  have hv : shrinkCnt cnt=fun j =>
      if 2≤j ∧ j<16 then splitPart cnt j
      else if j=1 then cnt 8-cnt 8/2
      else if j=0 then ∑ i∈Finset.range 8,cnt i+cnt 8/2 else cnt j := by
    rw [shrinkCnt]
    simp only [statsBckts,reduceDiv,reduceSub]
    rw [splitRight_loop _ (le_refl 7),sumLeft_eq]
    funext j
    by_cases hj : 2≤j ∧ j<16
    · simp only [if_pos hj,splitPart]
      rw [update_of_ne (by omega),update_of_ne (by omega),update_of_ne (by omega)]
    · simp only [if_neg hj]
      by_cases ho : j=1
      · rw [if_pos ho,ho,update_self,update_of_ne (by omega)]
      · rw [if_neg ho,update_of_ne ho]
        by_cases h0 : j=0
        · rw [if_pos h0,h0,update_self,update_self,update_of_ne (by omega)]
        · rw [if_neg h0,update_of_ne h0,update_of_ne h0]
  have hp : ∀i∈Finset.range 7,shrinkCnt cnt (2*(i+1))+shrinkCnt cnt (2*(i+1)+1)=cnt (8+(i+1)) := by
    intro i hi
    have hi := Finset.mem_range.1 hi
    rw [hv]
    simp only
    rw [if_pos (by omega),if_pos (by omega),splitPart_pair]
  have hf : shrinkCnt cnt 0+shrinkCnt cnt 1 = ∑ i∈Finset.range 8,cnt i+cnt 8 := by
    have h0 : shrinkCnt cnt 0 = ∑ i∈Finset.range 8,cnt i+cnt 8/2 := by rw [hv]; rfl
    have ho : shrinkCnt cnt 1=cnt 8-cnt 8/2 := by rw [hv]; rfl
    omega
  rw [rowSum_pairs,Finset.sum_range_succ',Finset.sum_congr rfl hp,hf,rowSum_halves,
    Finset.sum_range_succ' (fun i => cnt (8+i)) 7,add_zero 8]
  omega

lemma unitSum_read (units : Nat) (hu : 0<units) (a b : Nat → Nat) (i : Nat) (h : ∀j,i≤j → a j=b j) :
    unitSum units a i=unitSum units b i := by
  have hle : ∀u,0<u → i≤u*i := fun u hp => Nat.le_mul_of_pos_left i hp
  unfold unitSum
  split_ifs
  · rw [h (2*i) (by omega),h (2*i+1) (by omega)]
  · rw [h (4*i) (by omega),h (4*i+1) (by omega),h (4*i+2) (by omega),h (4*i+3) (by omega)]
  · refine foldl_ext _ _ _ fun sum j hj => ?_
    have hm := mem_range'_1.1 hj
    have hmu := hle units hu
    rw [h j (by rw [mul_comm] at hm; omega)]

lemma unitSum_eq {units : Nat} (cnt : Nat → Nat) (i : Nat) (h : ∑ b∈Finset.range units,cnt (units*i+b)<2^32) :
    unitSum units cnt i = ∑ b∈Finset.range units,cnt (units*i+b) := by
  have hl : ∀k,∑ b∈Finset.range k,cnt (units*i+b)<2^32 →
      (range' (i*units) k).foldl (fun sum b => Word.trunc 32 (sum+cnt b)) 0 = ∑ b∈Finset.range k,cnt (units*i+b) := by
    intro k
    induction k with
    | zero => intro _; rfl
    | succ k ih =>
      intro hk
      rw [Finset.sum_range_succ] at hk ⊢
      rw [range'_1_concat,foldl_append,ih (by omega),foldl_cons,foldl_nil,mul_comm i,Word.trunc_of_lt hk]
  unfold unitSum
  split_ifs with h2 h4
  · subst h2
    rw [Finset.sum_range_succ,Finset.sum_range_one]
    rfl
  · subst h4
    rw [Finset.sum_range_succ,Finset.sum_range_succ,Finset.sum_range_succ,Finset.sum_range_one]
    rfl
  · exact hl units h

lemma rowSum_extendCnt {units parts : Nat} (hp : 0<units) (hpa : units*parts=16) (cnt : Nat → Nat)
    (h : rowSum cnt<2^32) :
    rowSum (extendCnt units parts cnt)=rowSum cnt := by
  have hbl : ∑ i∈Finset.range parts,∑ b∈Finset.range units,cnt (units*i+b)=rowSum cnt := by
    rw [InPlace.sum_blocks,hpa,rowSum,statsBckts]
  have hle : parts≤16 := hpa ▸ Nat.le_mul_of_pos_left parts hp
  have hv : ∀b<statsBckts,extendCnt units parts cnt b = if b<parts then unitSum units cnt b else 0 := by
    intro b hb
    simp only [extendCnt]
    rw [InPlace.rewrite_eq (unitSum_read units hp)]
    by_cases hlt : b<parts
    · rw [if_pos hlt,if_neg (by omega)]
      exact if_pos hlt
    · rw [if_neg hlt,if_pos ⟨by omega,hb⟩]
  rw [rowSum,Finset.sum_congr rfl fun b hb => hv b (Finset.mem_range.1 hb),
    InPlace.sum_ite_lt _ _ (show parts ≤ statsBckts from hle),sum_const_zero,add_zero,← hbl]
  refine Finset.sum_congr rfl fun i hi => unitSum_eq cnt i ?_
  have hu := single_le_sum (f := fun i => ∑ b∈Finset.range units,cnt (units*i+b)) (fun _ _ => zero_le) hi
  omega
end VetWaf.Apm
