import Mathlib.Data.List.Induction
import VetWaf.Lib.Mem

namespace VetWaf.Str
open List Function

/-- A byte table and its two tables for vectors in `__CUSTOM` -/
structure Tables where
  a : Nat → UInt8 := fun _ => 0
  a0 : Nat → Nat := fun _ => 0
  a1 : Nat → Nat := fun _ => 0

def row (i : Nat) : Nat := (i &&& 0xf)+16*(if i &&& 0x80=0 then 0 else 1)
def bit (i : Nat) : Nat := (i &&& 0x70) >>> 4

def addSymbol (cfg : Nat → UInt8) (a0 : Nat → Nat) (i : Nat) : Nat → Nat :=
  if cfg i=0 then a0 else update a0 (row i) (a0 (row i) ||| 1 <<< bit i)

def initCustomA (t : Tables) (cfg : Nat → UInt8) : Tables :=
  let a0 := (range 256).foldl (addSymbol cfg) t.a0
  -- the second table is copied twice before the first one is doubled
  let a1 := Mem.copy (Mem.copy t.a1 0 a0 16 16) 16 a0 16 16
  {a:=Mem.copy t.a 0 cfg 0 256, a0:=Mem.copy a0 16 a0 0 16, a1}

inductive Alphabet where
  | uri | token | qetoken | nctl | ctextVchar | xff | cookie | etag

structure Custom where
  enabled : Nat → Bool := fun _ => false
  tables : Nat → Tables := fun _ => {}

def lowered (cfg : Nat → UInt8) (i : Nat) : UInt8 := if 0x41 ≤ i ∧ i≤0x5a then 0 else cfg i

/-- The places of `__CUSTOM` that a call sets; that for tokens keeps `custom_token_lc` in step. -/
def places : Alphabet×Option (Nat → UInt8) → List (Nat×(Nat → UInt8))
  | (_,none) => []
  | (.token,some cfg) => [(1,cfg),(8,lowered cfg)]
  | (x,some cfg) => [(x.ctorIdx,cfg)]

def setPlace (tables : Nat → Tables) (x : Nat×(Nat → UInt8)) : Nat → Tables :=
  update tables x.1 (initCustomA (tables x.1) x.2)

/-- The `tfw_init_custom_*` functions -/
def initCustom (s : Custom) (c : Alphabet×Option (Nat → UInt8)) : Custom :=
  {enabled:=update s.enabled c.1.ctorIdx c.2.isSome, tables:=(places c).foldl setPlace s.tables}

/-- The alphabets that some calls give to one place -/
def given (off : Nat) (cs : List (Alphabet×Option (Nat → UInt8))) : List (Nat → UInt8) :=
  ((cs.flatMap places).filter (·.1=off)).map Prod.snd

/-- Whether the tables for vectors allow a byte -/
def Tables.allows (t : Tables) (b : Nat) : Bool := ((if b<128 then t.a0 else t.a1) (b &&& 15)).testBit ((b >>> 4) &&& 7)

lemma tables_foldl (s : Custom) (cs : List (Alphabet×Option (Nat → UInt8))) (off : Nat) :
    (cs.foldl initCustom s).tables off=(given off cs).foldl initCustomA (s.tables off) := by
  have hcalls : (cs.foldl initCustom s).tables=(cs.flatMap places).foldl setPlace s.tables := by
    induction cs generalizing s with
    | nil => rfl
    | cons c cs ih =>
      rw [foldl_cons,ih,flatMap_cons,foldl_append]
      rfl
  rw [hcalls,given]
  generalize s.tables=tables,cs.flatMap places=xs
  induction xs generalizing tables with
  | nil => rfl
  | cons x xs ih =>
    rw [foldl_cons,ih,setPlace]
    by_cases h : x.1=off
    · simp [h]
    · simp [h,update_of_ne (Ne.symm h)]

variable {cfg : Nat → UInt8} {t : Tables} {b r : Nat}

/-- One symbol adds one bit. -/
lemma testBit_foldl (a0 : Nat → Nat) (is : List Nat) (j k : Nat) :
    (is.foldl (addSymbol cfg) a0 j).testBit k=true ↔ (a0 j).testBit k=true ∨ ∃i∈is,cfg i≠0 ∧ row i=j ∧ bit i=k := by
  induction is generalizing a0 with
  | nil => simp
  | cons i is ih =>
    have hadd : (addSymbol cfg a0 i j).testBit k=true ↔ (a0 j).testBit k=true ∨ cfg i≠0 ∧ row i=j ∧ bit i=k := by
      unfold addSymbol
      split_ifs with h0
      · simp [h0]
      · by_cases hj : row i=j
        · subst hj
          rw [update_self,Nat.testBit_or,Bool.or_eq_true,Nat.one_shiftLeft,Nat.testBit_two_pow]
          simp [h0]
        · rw [update_of_ne (Ne.symm hj)]
          simp [hj]
    rw [foldl_cons,ih,hadd,or_assoc,exists_mem_cons_iff]

lemma row_bit : ∀i<256,row i=i%16+16*(i/128) ∧ bit i=i/16%8 ∧ i &&& 15=i%16 ∧ (i >>> 4) &&& 7=i/16%8 := by
  decide +kernel

/-- The bit of a byte in the table before it is split -/
lemma testBit_symbol (hb : b<256) (a0 : Nat → Nat) :
    ((range 256).foldl (addSymbol cfg) a0 (row b)).testBit (bit b)=true ↔
      (a0 (row b)).testBit (bit b)=true ∨ cfg b≠0 := by
  rw [testBit_foldl]
  apply or_congr_right
  constructor
  · rintro ⟨i,hi,hc,hr,hk⟩
    have hi := row_bit i (mem_range.1 hi)
    have hb := row_bit b hb
    obtain rfl : i=b := by omega
    exact hc
  · exact fun hc => ⟨b,mem_range.2 hb,hc,rfl,rfl⟩

/-- What a table allows after an alphabet is added: the upper bytes also have the bits that the lower ones had. -/
lemma allows_initCustomA (hb : b<256) :
    (initCustomA t cfg).allows b=true ↔ (t.a0 (row b)).testBit (bit b)=true ∨ cfg b≠0 := by
  rw [← testBit_symbol hb]
  obtain ⟨hr,hk,hr',hk'⟩ := row_bit b hb
  rw [Tables.allows,hr',hk',← hk]
  split_ifs with hlt
  · have hr : row b=b%16 := by omega
    rw [hr]
    unfold initCustomA
    dsimp only
    rw [Mem.copy_below _ _ (by omega)]
  · have hr : row b=16+b%16 := by omega
    rw [hr]
    unfold initCustomA
    dsimp only
    rw [Mem.copy_below _ _ (by omega),Mem.copy_start _ _ (by omega)]

/-- The bits of the lower bytes are there twice, and none is ever cleared. -/
lemma testBit_a0 (As : List (Nat → UInt8)) (hb : b<256) :
    ((As.foldl initCustomA {}).a0 (row b)).testBit (bit b)=true ↔ ∃A∈As,A (b%128)≠0 := by
  induction As using reverseRecOn generalizing b with
  | nil => simp
  | append_singleton As A ih =>
    have hlt : b%128<256 := by omega
    obtain ⟨hr,hk,-⟩ := row_bit b hb
    obtain ⟨hr',hk',-⟩ := row_bit (b%128) hlt
    have hrow (t : Tables) : (initCustomA t A).a0 (row b)=(range 256).foldl (addSymbol A) t.a0 (row (b%128)) := by
      unfold initCustomA
      dsimp only
      by_cases h : b<128
      · rw [Nat.mod_eq_of_lt h]
        exact Mem.copy_below _ _ (by omega)
      · rw [show row b=16+row (b%128) by omega,Mem.copy_inside _ _ (by omega),Nat.zero_add]
    rw [foldl_concat,hrow,show bit b=bit (b%128) by omega,testBit_symbol hlt,ih hlt,Nat.mod_mod]
    simp [or_and_right,exists_or]

/-- The tables for vectors are those of the last alphabet just if it has every lower byte of the ones before it, and
with it the upper byte in the same place. -/
theorem custom_tables_exact_iff {off : Nat} {cs : List (Alphabet×Option (Nat → UInt8))} {As : List (Nat → UInt8)}
    {A : Nat → UInt8} (h : given off cs=As++[A]) :
    let t := (cs.foldl initCustom {}).tables off
    (∀b<256,(t.allows b=true ↔ A b≠0) ∧ (t.allows b=true ↔ t.a b≠0)) ↔ ∀A'∈As,∀c<128,A' c≠0 → A c≠0 ∧ A (c+128)≠0 := by
  intro t
  have ht : t=initCustomA (As.foldl initCustomA {}) A := by
    change (cs.foldl initCustom {}).tables off=_
    rw [tables_foldl,h,foldl_concat]
  have hal (b : Nat) (hb : b<256) : t.allows b=true ↔ (∃A'∈As,A' (b%128)≠0) ∨ A b≠0 := by
    rw [ht,allows_initCustomA hb,testBit_a0 As hb]
  have ha (b : Nat) (hb : b<256) : t.a b=A b := by
    rw [ht]
    exact (Mem.copy_start _ _ hb).trans (congrArg A (Nat.zero_add b))
  constructor
  · intro hex A' hA c hc hne
    constructor
    · apply (hex c (by omega)).1.1
      exact (hal c (by omega)).2 (.inl ⟨A',hA,by rwa [Nat.mod_eq_of_lt hc]⟩)
    · apply (hex (c+128) (by omega)).1.1
      exact (hal _ (by omega)).2 (.inl ⟨A',hA,by rwa [Nat.add_mod_right,Nat.mod_eq_of_lt hc]⟩)
  · intro hall b hb
    rw [ha b hb,and_self,hal b hb]
    apply or_iff_right_of_imp
    rintro ⟨A',hA,hne⟩
    have hlo := hall A' hA (b%128) (by omega) hne
    by_cases hlt : b<128
    · rw [Nat.mod_eq_of_lt hlt] at hlo
      exact hlo.1
    · rw [show b%128+128=b by omega] at hlo
      exact hlo.2

/-- `a` alone, and then `a` and `b` with the bytes above them. -/
theorem custom_tables_exact_wider : let A₁ : Nat → UInt8 := fun i => if i=0x61 then 1 else 0
    let A₂ : Nat → UInt8 := fun i => if i%128=0x61 ∨ i%128=0x62 then 1 else 0
    let t := ([(.uri,some A₁),(.token,none),(.uri,some A₂)].foldl initCustom {}).tables 0
    ∀b<256,(t.allows b=true ↔ A₂ b≠0) ∧ (t.allows b=true ↔ t.a b≠0) := by
  intro A₁ A₂
  exact (@custom_tables_exact_iff 0 _ [A₁] A₂ rfl).2 (by decide +kernel)

/-- After `A` and then `B`, the byte `A` and the one above it are still allowed. -/
theorem custom_tables_keep_old : let only (c i : Nat) : UInt8 := if i=c then 1 else 0
    let t := ([(.uri,some (only 0x41)),(.uri,some (only 0x42))].foldl initCustom {}).tables 0
    t.allows 0x41=true ∧ t.allows 0xc1=true ∧ t.a 0x41=0 ∧ t.a 0xc1=0 := by
  decide +kernel
end VetWaf.Str
