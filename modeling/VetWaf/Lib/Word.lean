import Mathlib

namespace VetWaf.Word
open Nat

/-- Truncation to an unsigned `w`-bit word. -/
def trunc (w a : Nat) : Nat := a%2^w

/-- Wrapping addition of unsigned `w`-bit words. -/
def add (w a b : Nat) : Nat := trunc w (a+b)

/-- Wrapping subtraction of unsigned `w`-bit words. -/
def sub (w a b : Nat) : Nat := trunc w (a+(2^w-trunc w b))

lemma trunc_lt (w a : Nat) : trunc w a<2^w := Nat.mod_lt _ (Nat.two_pow_pos w)

variable {w a b : Nat}
lemma trunc_of_lt (h : a<2^w) : trunc w a=a := mod_eq_of_lt h
lemma trunc_le (w a : Nat) : trunc w a≤a := mod_le _ _
lemma add_of_lt (h : a+b<2^w) : add w a b=a+b := trunc_of_lt h

/-- A sum of two words that does not fit wraps below both of them. -/
lemma add_of_ge (ha : a<2^w) (hb : b<2^w) (h : 2^w≤a+b) : add w a b=a+b-2^w := by
  unfold add trunc
  rw [mod_eq_sub_mod h,mod_eq_of_lt (by omega)]

lemma sub_of_le (ha : a<2^w) (h : b≤a) : sub w a b=a-b := by
  have hb : trunc w b=b := trunc_of_lt (by omega)
  have e : a+(2^w-b)=a-b+2^w := by omega
  unfold sub
  rw [hb,e]
  unfold trunc
  rw [add_mod_right,mod_eq_of_lt (by omega)]
end VetWaf.Word
