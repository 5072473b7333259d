import VetWaf.Lib.Calls
import VetWaf.Lib.Word

namespace VetWaf.Ratio
open Word Finset Function Nat

structure Cycle where
  csidx : Nat
  riter : Nat
  left : Nat → Nat

namespace Cycle
open Calls

/-- The points that are left in a group of `n` servers -/
def total (n : Nat) (left : Nat → Nat) : Nat := ∑ i∈Finset.range n,left i

variable (n : Nat) (oratio : Nat → Nat)
def start : Cycle := ⟨0,1,oratio⟩

def turn (s : Cycle) : Bool :=
  if s.csidx=0 then true
  else
    let last := if s.left (n-1)≠0 then s.left (n-1) else oratio (n-1)
    Word.trunc 64 (Word.add 32 (s.left 0) (s.left (s.csidx-1))*s.csidx) <
      Word.trunc 64 (Word.trunc 64 (Word.add 32 (s.left s.csidx) last*(n-s.csidx))*s.riter)

def advance (s : Cycle) : Cycle := if s.csidx+1=n then ⟨0,1,s.left⟩ else {s with csidx:=s.csidx+1}

def choose (s : Cycle) : Cycle :=
  let left := update s.left s.csidx (s.left s.csidx-1)
  if total n left=0 then start oratio else advance n {s with left}

def step (s : Cycle) : Option Nat×Cycle :=
  if s.left s.csidx=0 then (none,s.advance n)
  else if s.turn n oratio then (some s.csidx,s.choose n oratio)
  else (none,{s with csidx:=0, riter:=Word.add 32 s.riter 1})

def loop : Nat → Cycle → Option (Nat×Cycle)
  | 0, _ => none
  | k+1, s =>
    match s.step n oratio with
    | (some chosen,s) => some (chosen,s)
    | (none,s) => loop k s

def next (s : Cycle) : Option (Nat×Cycle) := s.loop n oratio (3*n+3)

/-- The cursor is at a server, and some points are left. -/
structure Valid (s : Cycle) : Prop where
  csidx : s.csidx<n
  left : 0<total n s.left
  le : ∀i,s.left i≤oratio i

/-- What the ratios are to be for the sums of `turn` with the last server not to wrap. The first server needs no
turn. -/
structure Bounds : Prop where
  small : n<2^31
  ratio : ∀i<n,0<oratio i ∧ oratio i<2^32
  last : ∀i,0 < i → i<n → oratio i+oratio (n-1)<2^32

variable {n oratio} {s s' : Cycle} {i k : Nat}
lemma total_update {left : Nat → Nat} (hi : i<n) (hp : 0<left i) :
    total n (update left i (left i-1))+1=total n left := by
  have hm := mem_range.2 hi
  rw [total,total,sum_update_of_mem hm,← sum_sdiff (singleton_subset_iff.2 hm),sum_singleton]
  omega

lemma exists_left (h : s.Valid n oratio) : ∃i<n,0<s.left i := by
  by_contra hn
  have h0 : total n s.left=0 := by
    refine sum_eq_zero ?_
    intro i hi
    by_contra hne
    exact hn ⟨i,mem_range.1 hi,pos_of_ne_zero hne⟩
  exact absurd h.left (by omega)

lemma Valid.advance (h : s.Valid n oratio) : (s.advance n).Valid n oratio := by
  have hc := h.csidx
  unfold Cycle.advance
  split_ifs
  · exact ⟨zero_lt_of_lt hc,h.left,h.le⟩
  · exact ⟨by simp only; omega,h.left,h.le⟩

lemma left_advance (s : Cycle) : (s.advance n).left=s.left := by
  unfold Cycle.advance
  split_ifs <;> rfl

lemma valid_start (hb : Bounds n oratio) (hn : 0<n) : (start oratio).Valid n oratio := by
  refine ⟨hn,?_,fun _ => le_rfl⟩
  exact sum_pos (fun i hi => (hb.ratio i (mem_range.1 hi)).1) ⟨0,mem_range.2 hn⟩

structure Chosen (n : Nat) (oratio : Nat → Nat) (s : Cycle) (i : Nat) (s' : Cycle) : Prop where
  lt : i<n
  pos : 0<s.left i
  valid : s'.Valid n oratio
  last : total n s.left=1 → s'=start oratio
  left : total n s.left≠1 → s'.left=update s.left i (s.left i-1)

section
variable (h : s.Valid n oratio)
include h
lemma Valid.choose (hb : Bounds n oratio) (hp : 0<s.left s.csidx) : Chosen n oratio s s.csidx (s.choose n oratio) := by
  have hn : 0<n := zero_lt_of_lt h.csidx
  have ht := total_update h.csidx hp
  unfold Cycle.choose
  by_cases h0 : total n (update s.left s.csidx (s.left s.csidx-1))=0
  · simp only [if_pos h0]
    exact ⟨h.csidx,hp,valid_start hb hn,fun _ => rfl,fun hne => absurd (by omega) hne⟩
  · simp only [if_neg h0]
    refine ⟨h.csidx,hp,Valid.advance ⟨h.csidx,pos_of_ne_zero h0,?_⟩,
      fun ho => absurd (by omega) h0,fun _ => left_advance _⟩
    intro i
    by_cases hi : i=s.csidx
    · have hle := h.le s.csidx
      simp only [hi,update_self]
      omega
    · simp only [update_of_ne hi]
      exact h.le i

lemma Valid.step_none (hst : s.step n oratio=(none,s')) : s'.Valid n oratio ∧ s'.left=s.left := by
  unfold Cycle.step at hst
  split_ifs at hst with h0 ht
  · cases hst
    exact ⟨h.advance,left_advance s⟩
  · cases hst
  · cases hst
    exact ⟨⟨zero_lt_of_lt h.csidx,h.left,h.le⟩,rfl⟩

lemma Valid.step_some (hb : Bounds n oratio) (hst : s.step n oratio=(some i,s')) : Chosen n oratio s i s' := by
  unfold Cycle.step at hst
  split_ifs at hst with h0 ht
  · cases hst
  · cases hst
    exact h.choose hb (pos_of_ne_zero h0)
  · cases hst

lemma Valid.loop (hb : Bounds n oratio) (hl : s.loop n oratio k=some (i,s')) : Chosen n oratio s i s' := by
  induction k generalizing s with
  | zero => cases hl
  | succ k ih =>
    rw [Cycle.loop] at hl
    split at hl
    · rename_i chosen t hst
      cases hl
      exact h.step_some hb hst
    · rename_i t hst
      obtain ⟨hv,hlf⟩ := h.step_none hst
      obtain ⟨hlt,hp,hv',hla,hn⟩ := ih hv hl
      rw [hlf] at hp hla hn
      exact ⟨hlt,hp,hv',hla,hn⟩

end

lemma loop_skip (oratio : Nat → Nat) (k : Nat) {m : Nat} (hm : m<n) (hle : s.csidx ≤ m)
    (h0 : ∀j,s.csidx≤j → j < m → s.left j=0) :
    s.loop n oratio (k+(m-s.csidx))=Cycle.loop n oratio k {s with csidx:=m} := by
  generalize hd : m-s.csidx=d
  induction d generalizing s with
  | zero =>
    have hm : m=s.csidx := by omega
    rw [hm,add_zero]
  | succ d ih =>
    have hst : s.step n oratio=(none,{s with csidx:=s.csidx+1}) := by
      rw [Cycle.step,if_pos (h0 s.csidx le_rfl (by omega)),Cycle.advance,if_neg (by omega)]
    rw [← add_assoc,Cycle.loop,hst]
    exact @ih {s with csidx:=s.csidx+1} (by simp only; omega)
      (fun j hj hjm => h0 j (by simp only at hj; omega) hjm) (by simp only; omega)

lemma loop_wrap (h : s.csidx<n) (h0 : ∀j,s.csidx≤j → j<n → s.left j=0) :
    s.loop n oratio (k+(n-s.csidx))=Cycle.loop n oratio k ⟨0,1,s.left⟩ := by
  have hl : n-1<n := by omega
  have hs := loop_skip oratio (k+1) (s := s) hl (by omega) (fun j hj hjn => h0 j hj (by omega))
  have hf : k+(n-s.csidx)=k+1+(n-1-s.csidx) := by omega
  rw [hf,hs,Cycle.loop,Cycle.step,if_pos (h0 (n-1) (by omega) (by omega)),Cycle.advance,if_pos (by simp only; omega)]

lemma turn_of_odd (h : s.Valid n oratio) (hb : Bounds n oratio) (ho : s.riter%2=1)
    (hp : 0<s.left s.csidx) (h0 : ∀j<s.csidx,s.left j=0) : s.turn n oratio=true := by
  unfold Cycle.turn
  by_cases hc : s.csidx=0
  · rw [if_pos hc]
  · have hn := hb.small
    have hcn := h.csidx
    have hle := h.le s.csidx
    have hlt := hb.last s.csidx (by omega) hcn
    rw [if_neg hc]
    simp only [h0 0 (by omega),h0 (s.csidx-1) (by omega)]
    generalize hl : (if s.left (n-1)≠0 then s.left (n-1) else oratio (n-1))=last
    have hlast : last≤oratio (n-1) := by
      have hle := h.le (n-1)
      rw [← hl]
      split_ifs <;> omega
    have ha : add 32 (s.left s.csidx) last=s.left s.csidx+last := add_of_lt (by omega)
    have hpr : (s.left s.csidx+last)*(n-s.csidx)<2^64 :=
      calc (s.left s.csidx+last)*(n-s.csidx)<2^32*2^32 := mul_lt_mul'' (by omega) (by omega)
        _ = 2^64 := by decide
    have hprod_pos : 0<(s.left s.csidx+last)*(n-s.csidx) := mul_pos (by omega) (by omega)
    rw [ha,trunc_of_lt hpr]
    have hh : trunc 64 (add 32 0 0*s.csidx)=0 := by simp [add,trunc]
    rw [hh,decide_eq_true_eq,pos_iff_ne_zero]
    intro ht
    -- an odd factor does not make a multiple of 2^64
    have hco : Nat.Coprime (2^64) s.riter := Nat.Coprime.pow_left 64 ((coprime_two_left).2 (odd_iff.2 ho))
    have hd := hco.dvd_of_dvd_mul_right (dvd_of_mod_eq_zero ht)
    exact absurd (le_of_dvd hprod_pos hd) (by omega)

lemma loop_mono {j : Nat} {r : Nat×Cycle} (h : s.loop n oratio k=some r) : s.loop n oratio (k+j)=some r := by
  induction k generalizing s with
  | zero => cases h
  | succ k ih =>
    rw [add_right_comm,Cycle.loop]
    rw [Cycle.loop] at h
    split at h
    · exact h
    · exact ih h

lemma exists_first (c : Nat) {left : Nat → Nat} (hex : ∃i,c ≤ i ∧ i<n ∧ 0<left i) :
    ∃m,c ≤ m ∧ m<n ∧ 0<left m ∧ ∀j,c≤j → j < m → left j=0 := by
  classical
  obtain ⟨hcm,hm,hp⟩ := Nat.find_spec hex
  refine ⟨Nat.find hex,hcm,hm,hp,?_⟩
  intro j hc hj
  by_contra hne
  exact Nat.find_min hex hj ⟨hc,by omega,Nat.pos_of_ne_zero hne⟩

lemma loop_succ_of_pos (hp : 0<s.left s.csidx) : (∃r,s.loop n oratio (k+1)=some r) ∨ s.turn n oratio=false ∧
        s.loop n oratio (k+1)=Cycle.loop n oratio k {s with csidx:=0, riter:=add 32 s.riter 1} := by
  rw [Cycle.loop,Cycle.step,if_neg (by omega)]
  cases ht : s.turn n oratio with
  | true => exact .inl ⟨_,rfl⟩
  | false => exact .inr ⟨rfl,rfl⟩

lemma loop_to_first {m : Nat} (hc : s.csidx ≤ m) (hm : m<n)
    (hp : 0<s.left m) (h0 : ∀j,s.csidx≤j → j < m → s.left j=0) : (∃r,s.loop n oratio (k+1+(m-s.csidx))=some r) ∨
      Cycle.turn n oratio {s with csidx:=m}=false ∧ s.loop n oratio (k+1+(m-s.csidx)) =
          Cycle.loop n oratio k {s with csidx:=0, riter:=add 32 s.riter 1} := by
  rw [loop_skip oratio (k+1) hm hc h0]
  exact loop_succ_of_pos (s := {s with csidx:=m}) hp

variable (h : s.Valid n oratio)
include h
variable (hb : Bounds n oratio)
include hb
lemma loop_of_odd (hc : s.csidx=0) (ho : s.riter%2=1) : ∃r,s.loop n oratio (n+1)=some r := by
  obtain ⟨i,hi,hp⟩ := exists_left h
  obtain ⟨m,hcm,hm,hp,h0⟩ := exists_first s.csidx ⟨i,by omega,hi,hp⟩
  have hf : n-m+1+(m-s.csidx)=n+1 := by omega
  rw [← hf]
  obtain hs | ⟨ht,-⟩ := loop_to_first hcm hm hp h0
  · exact hs
  · have hv : Cycle.Valid n oratio {s with csidx:=m} := ⟨hm,h.left,h.le⟩
    rw [turn_of_odd hv hb ho hp fun j hj => h0 j (by omega) hj] at ht
    cases ht

lemma loop_of_first (hc : s.csidx=0) : ∃r,s.loop n oratio (2*n+2)=some r := by
  obtain he | ho := mod_two_eq_zero_or_one s.riter
  · obtain ⟨i,hi,hp⟩ := exists_left h
    obtain ⟨m,hcm,hmn,hp,h0⟩ := exists_first s.csidx ⟨i,by omega,hi,hp⟩
    have hf : 2*n+1-m+1+(m-s.csidx)=2*n+2 := by omega
    rw [← hf]
    obtain hs | ⟨-,hl⟩ := loop_to_first hcm hmn hp h0
    · exact hs
    · have ho : add 32 s.riter 1%2=1 := by
        rw [add,trunc]
        omega
      have hv : Cycle.Valid n oratio {s with csidx:=0, riter:=add 32 s.riter 1} := ⟨zero_lt_of_lt hmn,h.left,h.le⟩
      obtain ⟨r,hr⟩ := loop_of_odd hv hb rfl ho
      have hm := loop_mono (j := n-m) hr
      have hle : n+1+(n-m)=2*n+1-m := by omega
      rw [hle] at hm
      exact ⟨r,hl.trans hm⟩
  · obtain ⟨r,hr⟩ := loop_of_odd h hb hc ho
    have hm := loop_mono (j := n+1) hr
    have hle : n+1+(n+1)=2*n+2 := by omega
    rw [hle] at hm
    exact ⟨r,hm⟩

lemma Valid.next : ∃i s',s.next n oratio=some (i,s') ∧ Chosen n oratio s i s' := by
  suffices hs : ∃r,s.loop n oratio (3*n+3)=some r by
    obtain ⟨⟨i,s'⟩,hr⟩ := hs
    exact ⟨i,s',hr,h.loop hb hr⟩
  have hcn := h.csidx
  -- the round that the cursor is in
  have hro : ∃k t,s.loop n oratio (3*n+3)=Cycle.loop n oratio (2*n+2+k) t ∧
      t.Valid n oratio ∧ t.csidx=0 ∨ ∃r,s.loop n oratio (3*n+3)=some r := by
    by_cases hex : ∃i,s.csidx ≤ i ∧ i<n ∧ 0<s.left i
    · obtain ⟨m,hcm,hm,hp,h0⟩ := exists_first s.csidx hex
      have hf : 2*n+2+(n-(m-s.csidx))+1+(m-s.csidx)=3*n+3 := by omega
      refine ⟨n-(m-s.csidx),{s with csidx:=0, riter:=add 32 s.riter 1},?_⟩
      rw [← hf]
      obtain hs | ⟨-,hl⟩ := loop_to_first hcm hm hp h0
      · exact .inr hs
      · exact .inl ⟨hl,⟨zero_lt_of_lt hm,h.left,h.le⟩,rfl⟩
    · have h0 : ∀j,s.csidx≤j → j<n → s.left j=0 := by
        intro j hcj hj
        by_contra hne
        exact hex ⟨j,hcj,hj,pos_of_ne_zero hne⟩
      have hf : 2*n+2+(s.csidx+1)+(n-s.csidx)=3*n+3 := by omega
      refine ⟨s.csidx+1,⟨0,1,s.left⟩,.inl ⟨?_,⟨zero_lt_of_lt hcn,h.left,h.le⟩,rfl⟩⟩
      rw [← hf]
      exact loop_wrap hcn h0
  obtain ⟨k,t,⟨hl,hv,hc⟩ | hs⟩ := hro
  · obtain ⟨r,hr⟩ := loop_of_first hv hb hc
    exact ⟨r,hl.trans (loop_mono hr)⟩
  · exact hs

lemma Valid.calls_total : ∃picks,calls (Cycle.next n oratio) (total n s.left) s=some (picks,start oratio) ∧
      (∀i∈picks,i<n) ∧ ∀i<n,picks.count i=s.left i := by
  generalize ht : total n s.left=t
  induction t generalizing s with
  | zero => exact absurd h.left (by omega)
  | succ t ih =>
    obtain ⟨i,s',hn,hc⟩ := h.next hb
    have hu := total_update hc.lt hc.pos
    by_cases ho : t=0
    · subst ho
      rw [hc.last ht] at hn
      refine ⟨[i],calls_one hn,fun j hj => ?_,fun j hj => ?_⟩
      · rw [List.mem_singleton.1 hj]
        exact hc.lt
      · have hno : total n (update s.left i (s.left i-1))=0 := by omega
        have h0 := sum_eq_zero_iff.1 hno j (mem_range.2 hj)
        have hp := hc.pos
        rw [List.count_singleton]
        by_cases hji : j=i
        · subst hji
          rw [update_self] at h0
          rw [if_pos (beq_self_eq_true j)]
          omega
        · rw [update_of_ne hji] at h0
          rw [if_neg (by simpa using Ne.symm hji),h0]
    · have hl := hc.left (by omega)
      obtain ⟨picks,hca,hlt,hco⟩ := ih hc.valid (by rw [hl]; omega)
      refine ⟨i::picks,calls_succ_eq_some.2 ⟨i,s',picks,hn,hca,rfl⟩,?_,?_⟩
      · intro j hj
        obtain rfl | hj := List.mem_cons.1 hj
        · exact hc.lt
        · exact hlt j hj
      · intro j hj
        have hp := hc.pos
        rw [List.count_cons,hco j hj,hl]
        by_cases hji : j=i
        · subst hji
          rw [update_self,if_pos (beq_self_eq_true j)]
          omega
        · rw [update_of_ne hji,if_neg (by simpa using Ne.symm hji),add_zero]
end Cycle
end VetWaf.Ratio
