import VetWaf.Base

namespace VetWaf.Http

def cr : UInt8 := 0x0d
def lf : UInt8 := 0x0a
def semicolon : UInt8 := 0x3b
def equals : UInt8 := 0x3d

/-- The codes `token_a` accepts, row by row. -/
def tokenA : List Nat := [0,0,0,0,0,0,0,0,0,0,0,0,0,0,0,0,0,0,0,0,0,0,0,0,0,0,0,0,0,0,0,0,
  0,1,0,1,1,1,1,1,0,0,1,1,0,1,1,0,1,1,1,1,1,1,1,1,1,1,0,0,0,0,0,0,0,1,1,1,1,1,1,1,1,1,1,1,1,1,1,1,
  1,1,1,1,1,1,1,1,1,1,1,0,0,0,1,1,1,1,1,1,1,1,1,1,1,1,1,1,1,1,1,1,1,1,1,1,1,1,1,1,1,1,1,0,1,0,1,0]

def isToken (c : UInt8) : Bool := tokenA.getD c.toNat 0≠0
def isCrlf (c : UInt8) : Bool := c=cr ∨ c=lf
def isxdigit (c : UInt8) : Bool := (0x30≤c ∧ c≤0x39) ∨ (0x41≤c ∧ c≤0x46) ∨ (0x61≤c ∧ c≤0x66)

/-- `TFW_LC` -/
def lc (c : UInt8) : UInt8 := if 0x41≤c ∧ c≤0x5a then c+0x20 else c

/-- The kernel's `tolower`, which knows the letters of Latin-1. -/
def tolower (c : UInt8) : UInt8 := if 0x41≤c ∧ c≤0x5a ∨ 0xc0≤c ∧ c≤0xde ∧ c≠0xd7 then c+0x20 else c

/-- The kernel's `isspace`, which knows the space of Latin-1. -/
def isspace (c : UInt8) : Bool := c=0x20 ∨ 0x09≤c ∧ c≤0x0d ∨ c=0xa0

lemma forall_byte {P : UInt8 → Prop} (h : ∀n : Fin 256,P (UInt8.ofNat n.val)) (c : UInt8) : P c := by
  have hc := h ⟨c.toNat,c.toNat_lt⟩
  rwa [UInt8.ofNat_toNat] at hc

lemma not_crlf_of_isxdigit (c : UInt8) : isxdigit c=true → (isCrlf c || c=semicolon)=false := by
  apply forall_byte (P := fun c => isxdigit c=true → (isCrlf c || c=semicolon)=false)
  decide +kernel
end VetWaf.Http
