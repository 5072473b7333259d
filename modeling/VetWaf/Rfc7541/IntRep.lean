import Mathlib.Data.Nat.Basic

namespace VetWaf.Rfc7541

/-- The continuation bytes of RFC 7541, 5.1. -/
def encodeGroups (k : Nat) : List UInt8 :=
  if k<128 then [UInt8.ofNat k] else UInt8.ofNat (k%128+128)::encodeGroups (k/128)
termination_by k
decreasing_by omega

/-- Integer representation with the prefix `2 ^ N - 1 = max`. -/
def encodeInt (max mask n : Nat) : List UInt8 :=
  if n < max then [UInt8.ofNat (mask+n)] else UInt8.ofNat (mask+max)::encodeGroups (n-max)

/-- The value of the continuation bytes, with what follows them -/
def decodeGroups : List UInt8 → Option (Nat×List UInt8)
  | [] => none
  | c::src =>
    if c.toNat<128 then some (c.toNat,src)
    else (decodeGroups src).map fun r => (c.toNat%128+128*r.1,r.2)

def decodeInt (max : Nat) : List UInt8 → Option (Nat×List UInt8)
  | [] => none
  | c::src =>
    if c.toNat%(max+1) < max then some (c.toNat%(max+1),src)
    else (decodeGroups src).map fun r => (max+r.1,r.2)

lemma toNat_ofNat_of_lt {n : Nat} (h : n<256) : (UInt8.ofNat n).toNat=n := by rw [UInt8.toNat_ofNat',Nat.mod_eq_of_lt h]

lemma encodeInt_ne_nil (max mask n : Nat) : encodeInt max mask n≠[] := by
  unfold encodeInt
  split_ifs <;> simp

lemma decodeGroups_encodeGroups (k : Nat) (rest : List UInt8) : decodeGroups (encodeGroups k++rest)=some (k,rest) := by
  induction k using Nat.strongRecOn with
  | ind k ih =>
    rw [encodeGroups]
    split_ifs with hk
    · rw [List.singleton_append,decodeGroups,toNat_ofNat_of_lt (by omega),if_pos hk]
    · have hc : (UInt8.ofNat (k%128+128)).toNat=k%128+128 := toNat_ofNat_of_lt (by omega)
      rw [List.cons_append,decodeGroups,hc,if_neg (by omega),ih (k/128) (by omega)]
      simp only [Option.map_some,show (k%128+128)%128+128*(k/128)=k by omega]
end VetWaf.Rfc7541
