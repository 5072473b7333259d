import VetWaf.Base
import VetWaf.Rfc7541.IntRep

namespace VetWaf.Hpack
open Rfc7541 Nat

def hpackIntLimit : Nat := 2^20

/-- `(__c & 127) << __m` in an `unsigned int`, whose shift count the CPU takes modulo 32. -/
def shiftByte (c : UInt8) (m : Nat) : Nat := c.toNat%128*2^(m%32)%2^32

/-- How reading a prefix integer ends. -/
inductive IntRead where
  | limit (x : Nat) (rest : Bytes)
  | more (x m : Nat)
  | done (x : Nat) (rest : Bytes)
  deriving DecidableEq

/-- The loop of `GET_FLEXIBLE`. -/
def getFlexible (x m : Nat) : Bytes → IntRead
  | [] => .more x m
  | c::src =>
    if hpackIntLimit<x+shiftByte c m then .limit (x+shiftByte c m) src
    else if 127<c.toNat then getFlexible (x+shiftByte c m) (m+7) src
    else .done (x+shiftByte c m) src

def getContinue (x m : Nat) (c : UInt8) (src : Bytes) : IntRead :=
  if hpackIntLimit<x+shiftByte c m then .limit (x+shiftByte c m) src
  else if 127<c.toNat then getFlexible (x+shiftByte c m) (m+7) src
  else .done (x+shiftByte c m) src

lemma getContinue_eq (x m : Nat) (c : UInt8) (src : Bytes) : getContinue x m c src=getFlexible x m (c::src) := rfl

/-- What the groups of an integer add up to when each of them is shifted in 32 bits -/
def narrowGroups (m : Nat) : Bytes → Nat
  | [] => 0
  | c::src => shiftByte c m+if 127<c.toNat then narrowGroups (m+7) src else 0

lemma shiftByte_le (c : UInt8) (m : Nat) : shiftByte c m≤c.toNat%128*2^m :=
  (Nat.mod_le _ _).trans (Nat.mul_le_mul_left _ (Nat.pow_le_pow_right (by decide) (Nat.mod_le _ _)))

lemma shiftByte_of_lt {c : UInt8} {m : Nat} (h : c.toNat%128*2^m<2^32) : shiftByte c m=c.toNat%128*2^m := by
  unfold shiftByte
  obtain h0 | hp := Nat.eq_zero_or_pos (c.toNat%128)
  · rw [h0]
    simp
  · have hm : 2^m<2^32 := (Nat.le_mul_of_pos_left (2^m) hp).trans_lt h
    rw [Nat.mod_eq_of_lt ((Nat.pow_lt_pow_iff_right (by decide)).1 hm),Nat.mod_eq_of_lt h]

/-- The sum is the integer when that fits in 32 bits, and never more. -/
lemma narrowGroups_decodeGroups (src : Bytes) (m : Nat) {k : Nat} {rest : Bytes}
    (h : decodeGroups src=some (k,rest)) :
    narrowGroups m src≤k*2^m ∧ (k*2^m<2^32 → narrowGroups m src=k*2^m) := by
  induction src generalizing m k with
  | nil => cases h
  | cons c src ih =>
    have hle := shiftByte_le c m
    have heq := shiftByte_of_lt (c := c) (m := m)
    rw [decodeGroups] at h
    rw [narrowGroups]
    split_ifs at h with hc
    · cases h
      rw [if_neg (by omega)]
      rw [mod_eq_of_lt hc] at hle heq
      exact ⟨hle,heq⟩
    · obtain ⟨⟨k',rest'⟩,hd,hk⟩ := Option.map_eq_some_iff.1 h
      cases hk
      obtain ⟨hle',heq'⟩ := ih (m+7) hd
      have hs : (c.toNat%128+128*k')*2^m=c.toNat%128*2^m+k'*2^(m+7) := by
        rw [pow_add]
        ring
      simp only [if_pos (show 127<c.toNat by omega),hs]
      omega

/-- Reading ends with the sum of the shifted groups, or at the limit if that is exceeded. -/
lemma getFlexible_decodeGroups (src : Bytes) {x m : Nat} (hx : x≤hpackIntLimit) : match decodeGroups src with
    | none => ∀y rest,getFlexible x m src≠.done y rest
    | some (_,rest) => if x+narrowGroups m src≤hpackIntLimit then getFlexible x m src=.done (x+narrowGroups m src) rest
      else ∃y rest',getFlexible x m src=.limit y rest' := by
  induction src generalizing x m with
  | nil => simp [decodeGroups,getFlexible]
  | cons c src ih =>
    by_cases hc : c.toNat<128
    · have hn : narrowGroups m (c::src)=shiftByte c m := by
        rw [narrowGroups,if_neg (by omega),add_zero]
      simp only [decodeGroups,getFlexible,hn,if_pos hc,if_neg (by omega : ¬127<c.toNat)]
      split_ifs <;> first | rfl | exact ⟨_,_,rfl⟩ | omega
    · have hn : narrowGroups m (c::src)=shiftByte c m+narrowGroups (m+7) src := by
        rw [narrowGroups,if_pos (by omega)]
      simp only [decodeGroups,getFlexible,hn,if_neg hc,if_pos (by omega : 127<c.toNat),← add_assoc]
      by_cases hl : hpackIntLimit<x+shiftByte c m
      · rw [if_pos hl]
        cases decodeGroups src with
        | none => simp
        | some r =>
          simp only [Option.map_some]
          rw [if_neg (by omega)]
          exact ⟨_,_,rfl⟩
      · have hr := ih (x := x+shiftByte c m) (m := m+7) (by omega)
        rw [if_neg hl]
        cases hd : decodeGroups src with
        | none =>
          rw [hd] at hr
          exact hr
        | some r =>
          rw [hd] at hr
          exact hr

lemma getFlexible_encodeGroups (k x m : Nat) (rest : Bytes) (h : x+k*2^m≤hpackIntLimit) :
    getFlexible x m (encodeGroups k++rest)=.done (x+k*2^m) rest := by
  have hr := getFlexible_decodeGroups (encodeGroups k++rest) (x := x) (m := m) (by omega)
  have hd := decodeGroups_encodeGroups k rest
  have hw : k*2^m<2^32 := by
    unfold hpackIntLimit at h
    omega
  rw [hd,(narrowGroups_decodeGroups _ m hd).2 hw] at hr
  simpa only [if_pos h] using hr

lemma getFlexible_encodeGroups_limit (k x m : Nat) (rest : Bytes) (hw : k*2^m<2^32)
    (hx : x≤hpackIntLimit) (h : hpackIntLimit<x+k*2^m) :
    ∃y rest',getFlexible x m (encodeGroups k++rest)=.limit y rest' := by
  have hr := getFlexible_decodeGroups (encodeGroups k++rest) (m := m) hx
  have hd := decodeGroups_encodeGroups k rest
  rw [hd,(narrowGroups_decodeGroups _ m hd).2 hw] at hr
  simpa only [if_neg (not_le.2 h)] using hr

lemma getFlexible_append (x m : Nat) (a b : Bytes) : getFlexible x m (a++b)=match getFlexible x m a with
      | .more x m => getFlexible x m b
      | .limit y rest => .limit y (rest++b)
      | .done y rest => .done y (rest++b) := by
  induction a generalizing x m with
  | nil => rfl
  | cons c a ih =>
    simp only [List.cons_append,getFlexible]
    split_ifs
    · rfl
    · exact ih _ _
    · rfl

/-- The bytes of the fragments that follow the first. -/
def laterBytes (frags : List (UInt8×Bytes)) : Bytes := frags.flatMap fun f => f.1::f.2

/-- `GET_CONTINUE` for each of the later fragments, until the integer ends -/
def continueInt (x m : Nat) : List (UInt8×Bytes) → IntRead
  | [] => .more x m
  | (c,src)::frags =>
    match getContinue x m c src with
    | .more x m => continueInt x m frags
    | .limit y rest => .limit y (rest++laterBytes frags)
    | .done y rest => .done y (rest++laterBytes frags)

def readInt (x : Nat) (first : Bytes) (frags : List (UInt8×Bytes)) : IntRead :=
  match getFlexible x 0 first with
  | .more x m => continueInt x m frags
  | .limit y rest => .limit y (rest++laterBytes frags)
  | .done y rest => .done y (rest++laterBytes frags)

lemma continueInt_eq (x m : Nat) (frags : List (UInt8×Bytes)) :
    continueInt x m frags=getFlexible x m (laterBytes frags) := by
  induction frags generalizing x m with
  | nil => rfl
  | cons f frags ih =>
    rw [laterBytes,List.flatMap_cons,getFlexible_append,continueInt,getContinue_eq]
    simp only [ih]
    rfl

/-- An integer is read exactly, or refused when it is above the limit, in however many fragments, exactly when it is
below `2 ^ 32` after its prefix or its groups exceed the limit even when they are shifted in 32 bits. -/
theorem int_read_exact (x : Nat) (first : Bytes) (frags : List (UInt8×Bytes)) (hx : x≤hpackIntLimit) :
    match decodeGroups (first++laterBytes frags) with
    | none => ∀y rest,readInt x first frags≠.done y rest
    | some (k,rest) =>
      (if x+k≤hpackIntLimit then readInt x first frags=.done (x+k) rest
        else ∃y rest',readInt x first frags=.limit y rest') ↔
      k<2^32 ∨ hpackIntLimit<x+narrowGroups 0 (first++laterBytes frags) := by
  have hr : readInt x first frags=getFlexible x 0 (first++laterBytes frags) := by
    rw [getFlexible_append,readInt]
    simp only [continueInt_eq]
  have hf := getFlexible_decodeGroups (first++laterBytes frags) (m := 0) hx
  rw [hr]
  cases hd : decodeGroups (first++laterBytes frags) with
  | none =>
    rw [hd] at hf
    exact hf
  | some r =>
    obtain ⟨hle,heq⟩ := narrowGroups_decodeGroups _ 0 hd
    rw [hd] at hf
    simp only [pow_zero,mul_one] at hle heq hf ⊢
    have hlim : hpackIntLimit=2^20 := rfl
    by_cases hk : x+r.1≤hpackIntLimit
    · rw [heq (by omega),if_pos hk] at hf
      simp only [if_pos hk,hf,true_iff]
      omega
    · rw [if_neg hk]
      by_cases hn : x+narrowGroups 0 (first++laterBytes frags)≤hpackIntLimit
      · rw [if_pos hn] at hf
        simp only [hf,reduceCtorEq,exists_false,false_iff]
        omega
      · rw [if_neg hn] at hf
        simp only [hf,true_iff]
        omega

theorem int_read_exact_1337 : decodeGroups [154,10]=some (1306,[]) ∧ readInt 31 [154] [(10,[])]=.done 1337 [] :=
  ⟨rfl,(int_read_exact 31 [154] [(10,[])] (by decide)).2 (.inl (by decide))⟩

/-- `2 ^ 32 + 31` is read as 31. -/
theorem int_read_wraps : decodeGroups [128,128,128,128,16]=some (2^32,[]) ∧
    readInt 31 [128,128] [(128,[128]),(16,[])]=.done 31 [] := by decide
end VetWaf.Hpack
