import VetWaf.Base
import VetWaf.Rfc7541.IntRep

namespace VetWaf.Hpack
open Rfc7541 List Nat

/-- `HPACK_MAX_INT`, with eight bytes in an `unsigned long` -/
def hpackMaxInt : Nat := (8+6)/7+1

/-- The loop of `write_int` and the store after it -/
def writeGroups (index size : Nat) : Bytes×Nat :=
  if 0x7F < index then
    let r := writeGroups (index >>> 7) (size+1)
    (UInt8.ofNat (index &&& 0x7F ||| 0x80)::r.1,r.2)
  else ([UInt8.ofNat index],size)
termination_by index
decreasing_by simp only [shiftRight_eq_div_pow]; omega

def writeInt (index max mask : Nat) : Bytes×Nat :=
  if index < max then ([UInt8.ofNat (index ||| mask)],1)
  else
    let r := writeGroups (index-max) 2
    (UInt8.ofNat (max ||| mask)::r.1,r.2)

def intSizeLoop (index size : Nat) : Nat := if 0x7F < index then intSizeLoop (index >>> 7) (size+1) else size
termination_by index
decreasing_by simp only [shiftRight_eq_div_pow]; omega

def hpackIntSize (index max : Nat) : Nat := if index < max then 1 else intSizeLoop (index-max) 2

lemma writeGroups_eq (index size : Nat) : writeGroups index size=
    (encodeGroups index,size+(encodeGroups index).length-1) ∧
    intSizeLoop index size=size+(encodeGroups index).length-1 := by
  induction index using Nat.strongRecOn generalizing size with
  | ind index ih =>
    rw [writeGroups,intSizeLoop,encodeGroups]
    by_cases hl : index<128
    · simp [hl,show ¬127 < index by omega]
    · have hb : index &&& 0x7F ||| 0x80=index%128+128 := by
        rw [show 0x7F=2^7-1 by rfl,Nat.and_two_pow_sub_one_eq_mod,Nat.or_comm,add_comm]
        exact (Nat.two_pow_add_eq_or_of_lt (i := 7) (Nat.mod_lt _ (by decide)) 1).symm
      have hp : 0<(encodeGroups (index/128)).length := by
        rw [encodeGroups]
        split_ifs <;> simp
      obtain ⟨hw,hs⟩ := ih (index/128) (by omega) (size+1)
      have hlo : 127 < index := by omega
      simp only [if_pos hlo,if_neg hl,Nat.shiftRight_eq_div_pow,Nat.reducePow,hw,hs,hb,length_cons,
        Prod.mk.injEq,true_and]
      omega

lemma length_encodeGroups_le {k : Nat} : (encodeGroups k).length≤2 ↔ k<2^14 := by
  rw [encodeGroups]
  split_ifs with hk
  · simp only [length_singleton]
    omega
  · rw [encodeGroups]
    split_ifs with hk'
    · simp only [length_cons,length_nil]
      omega
    · have hp : 0<(encodeGroups (k/128/128)).length := by
        rw [encodeGroups]
        split_ifs <;> simp
      simp only [length_cons]
      omega

/-- `write_int` stores the representation of the RFC, inside its buffer exactly when the rest after the prefix is
below `2 ^ 14`. -/
theorem write_int_rfc (N mask index : Nat) (rest : Bytes) (hN : N≤8) (hmask : mask<256) (hfree : mask%2^N=0) :
    ((writeInt index (2^N-1) mask).1.length≤hpackMaxInt ↔ index<2^N-1+2^14) ∧
      (writeInt index (2^N-1) mask).2=(writeInt index (2^N-1) mask).1.length ∧
      (writeInt index (2^N-1) mask).2=hpackIntSize index (2^N-1) ∧
      decodeInt (2^N-1) ((writeInt index (2^N-1) mask).1++rest)=some (index,rest) := by
  have hp : 0<2^N := Nat.two_pow_pos N
  have hb : ∀i,i<2^N → (UInt8.ofNat (i ||| mask)).toNat%2^N=i := by
    intro i hi
    have ho : i ||| mask=mask+i := by
      obtain ⟨b,rfl⟩ := Nat.dvd_of_mod_eq_zero hfree
      rw [Nat.or_comm,Nat.two_pow_add_eq_or_of_lt hi]
    have hd : 2^N∣256 := Nat.pow_dvd_pow 2 hN
    rw [UInt8.toNat_ofNat',Nat.mod_mod_of_dvd _ hd,ho,Nat.add_mod,hfree,zero_add,Nat.mod_mod,Nat.mod_eq_of_lt hi]
  unfold writeInt hpackIntSize
  split_ifs with hs
  · refine ⟨?_,rfl,rfl,?_⟩
    · simp only [length_singleton,hpackMaxInt]
      omega
    · rw [singleton_append,decodeInt,Nat.sub_add_cancel hp,hb index (by omega),if_pos hs]
  · obtain ⟨hw,hsi⟩ := writeGroups_eq (index-(2^N-1)) 2
    have hl := length_encodeGroups_le (k := index-(2^N-1))
    rw [hw,hsi]
    refine ⟨?_,?_,rfl,?_⟩
    · simp only [length_cons,hpackMaxInt]
      omega
    · simp only [length_cons]
      omega
    · rw [cons_append,decodeInt,Nat.sub_add_cancel hp,hb (2^N-1) (by omega),if_neg (by omega),decodeGroups_encodeGroups]
      simp only [Option.map_some,Option.some.injEq,Prod.mk.injEq,and_true]
      omega

theorem write_int_rfc_index : (writeInt 1000 127 128).1.length≤hpackMaxInt ∧
    decodeInt 127 ((writeInt 1000 127 128).1++[7])=some (1000,[7]) :=
  have h := write_int_rfc 7 128 1000 [7] (by decide) (by decide) (by decide)
  ⟨h.1.2 (by decide),h.2.2.2⟩

/-- One byte past the buffer -/
theorem write_int_overruns : hpackMaxInt<(writeInt (127+2^14) 127 128).1.length := by
  simp [writeInt,writeGroups,hpackMaxInt]
end VetWaf.Hpack
