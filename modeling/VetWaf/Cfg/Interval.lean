import VetWaf.Base

namespace VetWaf.Cfg
open List Nat

/-- The kernel's `isalpha`, which knows the letters of Latin-1. -/
def isalpha (c : UInt8) : Bool := 0x41≤c ∧ c≤0x5a ∨ 0x61≤c ∧ c≤0x7a ∨ 0xc0≤c ∧ c≠0xd7 ∧ c≠0xf7

/-- The base and the string behind `0x` or `0b`. -/
def detectBase (s : Bytes) : Nat×Bytes :=
  if 2<s.length ∧ s.head?=some 0x30 ∧ (s[1]?.all isalpha)=true then
    (if s[1]?=some 0x78 ∨ s[1]?=some 0x58 then 16 else if s[1]?=some 0x62 ∨ s[1]?=some 0x42 then 2 else 0,s.drop 2)
  else (if s=[] then 0 else 10,s)

/-- The value of a digit in base 16. -/
def digit (c : UInt8) : Option Nat :=
  if 0x30≤c ∧ c≤0x39 then some (c.toNat-0x30)
  else if 0x61≤c|||0x20 ∧ c|||0x20≤0x66 then some ((c|||0x20).toNat-0x61+10)
  else none

def isDigit (base : Nat) (c : UInt8) : Bool := (digit c).any (·<base)

/-- The number, whether it overflowed, and the rest. -/
def parseInteger (base res : Nat) (ovf : Bool) : Bytes → Nat×Bool×Bytes
  | [] => (res,ovf,[])
  | c::s =>
    if isDigit base c then
      let val := (digit c).getD 0
      parseInteger base ((res*base+val)%2^64) (ovf || 2^60≤res ∧ (2^64-1-val)/base<res) s
    else (res,ovf,c::s)

lemma detectBase_length (s : Bytes) : (detectBase s).2.length ≤ s.length := by
  unfold detectBase
  split_ifs <;> simp

/-- The loop of `tfw_cfg_parse_intvl`; `second` is `v=i1`. -/
def intvlLoop (second : Bool) (i0 i1 : Nat) (s : Bytes) : Option (Nat×Nat) :=
  match s with
  | [] => if second ∧ i1=0 then none else some (i0,i1)
  | c::s =>
    if c=0x2d then if second then none else intvlLoop true i0 i1 s
    else
      let t := (detectBase (c::s)).2
      let r := parseInteger (detectBase (c::s)).1 0 false t
      if (detectBase (c::s)).1=0 ∨ r.2.1 then none
      else if _h : r.2.2.length<t.length then
        if !second then intvlLoop false r.1 i1 r.2.2
        else if r.1 ≤ i0 then none
        else intvlLoop true i0 r.1 r.2.2
      else none
termination_by s.length
decreasing_by
  · simp
  all_goals exact _h.trans_le (detectBase_length (c::s))

def parseIntvl (s : Bytes) : Option (Nat×Nat) := intvlLoop false 0 0 s

/-- The value of digits in a base. -/
def value (base : Nat) (ds : Bytes) : Nat := ds.foldl (fun n c => n*base+(digit c).getD 0) 0

def HasBase (pre : Bytes) (base : Nat) : Prop := base=10 ∧ pre=[] ∨ base=16 ∧ (pre=[0x30,0x78] ∨ pre=[0x30,0x58]) ∨
    base=2 ∧ (pre=[0x30,0x62] ∨ pre=[0x30,0x42])

structure Number (base : Nat) (pre ds : Bytes) (n : Nat) : Prop where
  hasBase : HasBase pre base
  ne : ds≠[]
  digits : ∀c∈ds,isDigit base c=true
  eq : n=value base ds
  lt : n < 2^64

/-- An integer literal below `2^64`. -/
def IsLit (s : Bytes) (n : Nat) : Prop := ∃base pre ds,s=pre++ds ∧ Number base pre ds n

lemma IsLit.ne_nil {s : Bytes} {n : Nat} (h : IsLit s n) : s≠[] := by
  obtain ⟨base,pre,ds,rfl,hn⟩ := h
  simp [hn.ne]

lemma parseInteger_spec {base n res : Nat} {rest s : Bytes} {ovf : Bool} (hb : 0<base ∧ base≤16)
    (h : parseInteger base res ovf s=(n,false,rest)) (hr : res<2^64) :
    ovf=false ∧ n<2^64 ∧ (∀c∈rest.head?,isDigit base c=false) ∧
      ∃ds,s=ds++rest ∧ (∀c∈ds,isDigit base c=true) ∧ n=ds.foldl (fun n c => n*base+(digit c).getD 0) res := by
  induction s generalizing res ovf with
  | nil =>
    cases h
    exact ⟨rfl,hr,nofun,[],rfl,nofun,rfl⟩
  | cons c s ih =>
    rw [parseInteger] at h
    split_ifs at h with hc
    · obtain ⟨ho,hn,hre,ds,rfl,hd,hva⟩ := ih h (mod_lt _ (by decide))
      rw [Bool.or_eq_false_iff,decide_eq_false_iff_not,not_and_or,not_le,not_lt,le_div_iff_mul_le hb.1] at ho
      have hdi : (digit c).getD 0<base := by
        obtain ⟨v,hv,hlt⟩ := (Option.any_eq_true _ _).1 hc
        rw [hv]
        exact of_decide_eq_true hlt
      have hm := mul_le_mul_left res hb.2
      refine ⟨ho.1,hn,hre,c::ds,rfl,forall_mem_cons.2 ⟨hc,hd⟩,?_⟩
      rw [hva,foldl_cons,mod_eq_of_lt (by omega)]
    · cases h
      refine ⟨rfl,hr,?_,[],rfl,nofun,rfl⟩
      simpa using hc

lemma detectBase_cases (s : Bytes) :
    (detectBase s).1=0 ∨ ∃pre,HasBase pre (detectBase s).1 ∧ s=pre++(detectBase s).2 := by
  match s with
  | [] => exact .inl rfl
  | [a] => exact .inr ⟨[],.inl ⟨rfl,rfl⟩,rfl⟩
  | a::b::s =>
    simp only [detectBase,getElem?_cons_succ,getElem?_cons_zero,head?_cons,Option.some.injEq]
    split_ifs with h hx hb h0
    · exact .inr ⟨[a,b],.inr (.inl ⟨rfl,by simp [h.2.1,hx]⟩),rfl⟩
    · exact .inr ⟨[a,b],.inr (.inr ⟨rfl,by simp [h.2.1,hb]⟩),rfl⟩
    · exact .inl rfl
    · cases h0
    · exact .inr ⟨[],.inl ⟨rfl,rfl⟩,rfl⟩

variable {second : Bool} {i0 i1 : Nat} {c : UInt8} {s : Bytes} {r : Nat×Nat}
lemma intvlLoop_number (hc : c≠0x2d) (h : intvlLoop second i0 i1 (c::s)=some r) :
    ∃base pre ds n rest,c::s=pre++ds++rest ∧ Number base pre ds n ∧ (∀d∈rest.head?,isDigit base d=false) ∧
      (second=true → i0<n) ∧ intvlLoop second (if second then i0 else n) (if second then n else i1) rest=some r := by
  rw [intvlLoop,if_neg hc] at h
  dsimp only at h
  rcases hp : parseInteger (detectBase (c::s)).1 0 false (detectBase (c::s)).2 with ⟨n,ovf,rest⟩
  rw [hp,Option.ite_none_left_eq_some,not_or,Bool.not_eq_true] at h
  obtain ⟨⟨hne,rfl⟩,h⟩ := h
  split_ifs at h with hlt hse hle
  all_goals
    obtain ⟨pre,hpr,hs⟩ := (detectBase_cases (c::s)).resolve_left hne
    have hb : 0<(detectBase (c::s)).1 ∧ (detectBase (c::s)).1≤16 := by rcases hpr with h | h | h <;> omega
    obtain ⟨-,hn,hr,ds,hd,hdi,hv⟩ := parseInteger_spec hb hp (by decide)
    refine ⟨_,pre,ds,n,rest,by rw [append_assoc,← hd,← hs],⟨hpr,fun h0 => ?_,hdi,hv,hn⟩,hr,?_⟩
    · rw [hd,h0] at hlt
      exact lt_irrefl _ hlt
  · obtain rfl : second=false := by simpa using hse
    exact ⟨nofun,h⟩
  · obtain rfl : second=true := by simpa using hse
    exact ⟨fun _ => not_le.1 hle,h⟩

lemma intvlLoop_digit (hc : c≠0x2d) (h : intvlLoop second i0 i1 (c::s)=some r) : isDigit 10 c=true := by
  obtain ⟨base,pre,ds,_,rest,hs,hn,-⟩ := intvlLoop_number hc h
  obtain ⟨rfl,rfl⟩ | ⟨-,rfl | rfl⟩ | ⟨-,rfl | rfl⟩ := hn.hasBase
  · obtain ⟨x,ds,rfl⟩ := exists_cons_of_ne_nil hn.ne
    cases hs
    exact hn.digits c (.head _)
  all_goals
    cases hs
    decide

/-- A binary literal and a decimal one directly behind it, whose value is taken instead. -/
def Doubled (ok : Nat → Prop) (s : Bytes) (n : Nat) : Prop :=
  ∃pre bs k d ds,s=pre++bs++d::ds ∧ Number 2 pre bs k ∧ ok k ∧ Number 10 [] (d::ds) n ∧ isDigit 2 d=false

/-- What is taken for an integer, where the values have to be `ok`. -/
def Item (ok : Nat → Prop) (s : Bytes) (n : Nat) : Prop := IsLit s n ∨ Doubled ok s n

/-- Behind an integer there is the end or a `-`. -/
lemma intvlLoop_item (hc : c≠0x2d) (h : intvlLoop second i0 i1 (c::s)=some r) :
    ∃item n rest,c::s=item++rest ∧ Item (fun k => second=true → i0<k) item n ∧ (second=true → i0<n) ∧
      (rest=[] ∨ ∃t,rest=0x2d::t) ∧
        intvlLoop second (if second then i0 else n) (if second then n else i1) rest=some r := by
  obtain ⟨base,pre,ds,n,rest,hs,hn,hr,hlo,hl⟩ := intvlLoop_number hc h
  by_cases hend : rest=[] ∨ ∃t,rest=0x2d::t
  · exact ⟨pre++ds,n,rest,hs,.inl ⟨base,pre,ds,rfl,hn⟩,hlo,hend,hl⟩
  -- Only a binary number can have another digit behind it, and then come the digits of a decimal one.
  obtain ⟨d,rest,rfl⟩ := exists_cons_of_ne_nil fun h => hend (.inl h)
  have hd : d≠0x2d := fun h => hend (.inr ⟨rest,by rw [h]⟩)
  have hdi := hr d rfl
  have ht := intvlLoop_digit hd hl
  obtain rfl : base=2 := by
    obtain ⟨v,hv,hlt⟩ := (Option.any_eq_true _ _).1 ht
    rw [isDigit,hv,Option.any_some,decide_eq_false_iff_not] at hdi
    have hlt := of_decide_eq_true hlt
    rcases hn.hasBase with h | h | h <;> omega
  obtain ⟨base',pre',ds',n',rest',hs',hn',hr',hlo',hl'⟩ := intvlLoop_number hd hl
  obtain ⟨rfl,rfl⟩ : base'=10 ∧ pre'=[] := by
    refine hn'.hasBase.resolve_right fun hp => ?_
    have h0 : d=0x30 := by rcases hp with ⟨-,rfl | rfl⟩ | ⟨-,rfl | rfl⟩ <;> cases hs' <;> rfl
    exact absurd hdi (by rw [h0]; decide)
  obtain ⟨x,ds',rfl⟩ := exists_cons_of_ne_nil hn'.ne
  obtain ⟨rfl,rfl⟩ := cons.inj hs'
  have hok : second=true → i0<n' := by
    rintro rfl
    exact hlo' rfl
  refine ⟨pre++ds++d::ds',n',rest',by rw [hs]; simp,.inr ⟨pre,ds,n,d,ds',rfl,hn,hlo,hn',hdi⟩,hok,?_,?_⟩
  · cases rest' with
    | nil => exact .inl rfl
    | cons e rest' =>
      refine .inr ⟨rest',?_⟩
      by_contra he
      have hde := intvlLoop_digit (fun h => he (by rw [h])) hl'
      exact absurd hde (by rw [hr' e rfl]; decide)
  · cases second <;> exact hl'

lemma le_foldl {base : Nat} (hb : 0<base) (ds : Bytes) (n : Nat) :
    n≤ds.foldl (fun n c => n*base+(digit c).getD 0) n := by
  induction ds generalizing n with
  | nil => exact le_rfl
  | cons c ds ih => exact ((Nat.le_mul_of_pos_right n hb).trans (Nat.le_add_right ..)).trans (ih _)

lemma parseInteger_append {base res : Nat} {ds rest : Bytes} (hb : 0<base) (hd : ∀c∈ds,isDigit base c=true)
    (hr : ∀d∈rest.head?,isDigit base d=false) (hlt : ds.foldl (fun n c => n*base+(digit c).getD 0) res<2^64) :
    parseInteger base res false (ds++rest)=(ds.foldl (fun n c => n*base+(digit c).getD 0) res,false,rest) := by
  induction ds generalizing res with
  | nil =>
    cases rest with
    | nil => rfl
    | cons d rest => rw [nil_append,parseInteger,if_neg (by simp [hr d rfl]),foldl_nil]
  | cons c ds ih =>
    rw [forall_mem_cons] at hd
    have hle := (le_foldl hb ds (res*base+(digit c).getD 0)).trans_lt hlt
    have hov : ¬(2^64-1-(digit c).getD 0)/base<res := by
      rw [not_lt,le_div_iff_mul_le hb]
      omega
    rw [cons_append,parseInteger,if_pos hd.1]
    simp only [mod_eq_of_lt hle,Bool.false_or,hov,and_false,decide_false]
    exact ih hd.2 hlt

lemma isalpha_digit (h : isDigit 10 c=true) : isalpha c=false := by
  unfold isDigit digit at h
  split_ifs at h with h₁ h₂
  · simp only [isalpha,UInt8.le_iff_toNat_le,UInt8.reduceToNat,decide_eq_false_iff_not] at h₁ ⊢
    omega
  · simp only [Option.any_some,decide_eq_true_eq] at h
    omega
  · cases h

lemma detectBase_append {base n : Nat} {pre ds rest : Bytes} (hn : Number base pre ds n)
    (hr : ∀d∈rest.head?,isalpha d=false) : detectBase (pre++ds++rest)=(base,ds++rest) := by
  obtain ⟨c,ds,rfl⟩ := exists_cons_of_ne_nil hn.ne
  obtain ⟨rfl,rfl⟩ | ⟨rfl,rfl | rfl⟩ | ⟨rfl,rfl | rfl⟩ := hn.hasBase
  · have ha : ¬(2<(c::(ds++rest)).length ∧ (c::(ds++rest)).head?=some 0x30 ∧
        ((c::(ds++rest))[1]?.all isalpha)=true) := by
      rintro ⟨hl,-,ha⟩
      rw [getElem?_cons_succ,← head?_eq_getElem?] at ha
      cases ds with
      | nil =>
        cases rest with
        | nil => simp at hl
        | cons d rest => simp [hr d rfl] at ha
      | cons d ds => simp [isalpha_digit (hn.digits d (by simp))] at ha
    rw [nil_append,cons_append,detectBase,if_neg ha,if_neg (by simp)]
  all_goals simp [detectBase,isalpha]

lemma intvlLoop_of_number (second : Bool) (i0 i1 : Nat) {base n : Nat} {pre ds rest : Bytes} (hn : Number base pre ds n)
    (hr : ∀d∈rest.head?,isDigit base d=false ∧ isalpha d=false) (hlo : second=true → i0<n) :
    intvlLoop second i0 i1 (pre++ds++rest)=
      intvlLoop second (if second then i0 else n) (if second then n else i1) rest := by
  have hbase : 0<base := by rcases hn.hasBase with h | h | h <;> omega
  have hdet := detectBase_append hn fun d hd => (hr d hd).2
  have hpar : parseInteger base 0 false (ds++rest)=(n,false,rest) := by
    rw [hn.eq]
    exact parseInteger_append hbase hn.digits (fun d hd => (hr d hd).1) (hn.eq.symm.trans_lt hn.lt)
  obtain ⟨c,t,hct,hc⟩ : ∃c t,pre++ds++rest=c::t ∧ c≠0x2d := by
    obtain ⟨x,ds,rfl⟩ := exists_cons_of_ne_nil hn.ne
    obtain ⟨rfl,rfl⟩ | ⟨-,rfl | rfl⟩ | ⟨-,rfl | rfl⟩ := hn.hasBase
    · exact ⟨x,_,rfl,fun h => absurd (hn.digits x mem_cons_self) (by rw [h]; decide)⟩
    all_goals exact ⟨_,_,rfl,by decide⟩
  have hlen : rest.length<(ds++rest).length := by
    rw [length_append]
    have hp := length_pos_of_ne_nil hn.ne
    omega
  rw [hct] at hdet ⊢
  rw [intvlLoop,if_neg hc]
  simp only [hdet,hpar]
  rw [if_neg (by simp [hbase.ne']),dif_pos hlen]
  cases second with
  | false => rfl
  | true => rw [if_neg (by decide),if_neg (not_le.2 (hlo rfl))]; rfl

lemma isDigit_minus (base : Nat) : isDigit base 0x2d=false := rfl

lemma intvlLoop_of_item (second : Bool) (i0 i1 : Nat) {n : Nat} {rest : Bytes}
    (h : Item (fun k => second=true → i0<k) s n)
    (hlo : second=true → i0<n) (hr : ∀d∈rest.head?,d=0x2d) :
    intvlLoop second i0 i1 (s++rest)=intvlLoop second (if second then i0 else n) (if second then n else i1) rest := by
  have hend (base : Nat) : ∀d∈rest.head?,isDigit base d=false ∧ isalpha d=false := fun d hd => by
    rw [hr d hd]
    exact ⟨isDigit_minus base,by decide⟩
  obtain ⟨base,pre,ds,rfl,hn⟩ | ⟨pre,bs,k,d,ds,rfl,hk,hlo',hn,hd⟩ := h
  · exact intvlLoop_of_number second i0 i1 hn (hend base) hlo
  · have hd' : isalpha d=false := isalpha_digit (hn.digits d mem_cons_self)
    have hdr : ∀e∈(d::ds++rest).head?,isDigit 2 e=false ∧ isalpha e=false := fun e he => by cases he; exact ⟨hd,hd'⟩
    have hfirst := intvlLoop_of_number second i0 i1 hk hdr hlo'
    rw [append_assoc,hfirst,← nil_append (d::ds++rest)]
    have hsecond := intvlLoop_of_number second (if second then i0 else k) (if second then k else i1) hn (hend 10)
      (by rintro rfl; exact hlo rfl)
    rw [← append_assoc,hsecond]
    cases second <;> rfl

lemma not_mem_number {base n : Nat} {pre ds : Bytes} (h : Number base pre ds n) : (0x2d : UInt8)∉pre++ds := by
  intro hm
  obtain hm | hm := mem_append.1 hm
  · obtain ⟨-,rfl⟩ | ⟨-,rfl | rfl⟩ | ⟨-,rfl | rfl⟩ := h.hasBase <;> revert hm <;> decide
  · exact absurd (h.digits _ hm) (by rw [isDigit_minus]; decide)

lemma Item.not_mem {ok : Nat → Prop} {n : Nat} (h : Item ok s n) : (0x2d : UInt8)∉s := by
  obtain ⟨base,pre,ds,rfl,hn⟩ | ⟨pre,bs,k,d,ds,rfl,hk,-,hn,-⟩ := h
  · exact not_mem_number hn
  · exact fun hm => (mem_append.1 hm).elim (not_mem_number hk) (not_mem_number hn)

lemma Doubled.not_isLit {ok : Nat → Prop} {n k : Nat} (h : Doubled ok s n) : ¬IsLit s k := by
  obtain ⟨pre,bs,j,d,ds,rfl,hj,-,-,hd⟩ := h
  rintro ⟨base,pre',ds',hs,hn⟩
  have hpre : pre=[0x30,0x62] ∨ pre=[0x30,0x42] := by rcases hj.hasBase with h | h | h <;> [omega;omega;exact h.2]
  obtain ⟨rfl,rfl⟩ | ⟨-,hp⟩ | ⟨rfl,hp⟩ := hn.hasBase
  · have hm (b : UInt8) (hb : b∈pre) : isDigit 10 b=true := hn.digits b (by rw [nil_append] at hs; simp [← hs,hb])
    rcases hpre with rfl | rfl
    · exact absurd (hm 0x62 (by simp)) (by decide)
    · exact absurd (hm 0x42 (by simp)) (by decide)
  · rcases hpre with rfl | rfl <;> rcases hp with rfl | rfl <;> cases hs
  · have hds : bs++d::ds=ds' := by rcases hpre with rfl | rfl <;> rcases hp with rfl | rfl <;> cases hs <;> rfl
    exact absurd (hn.digits d (by simp [← hds])) (by rw [hd]; decide)

/-- One literal, or two of them in order with a `-` between them. -/
def Interval (s : Bytes) (n m : Nat) : Prop := IsLit s n ∧ m=0 ∨ ∃a b,s=a++0x2d::b ∧ IsLit a n ∧ IsLit b m ∧ n < m

lemma parseIntvl_two {a b : Bytes} {n m : Nat} (ha : a=[] ∧ n=0 ∨ Item (fun _ => True) a n) (hb : Item (n < ·) b m)
    (hlt : n < m) : parseIntvl (a++0x2d::b)=some (n,m) := by
  have hfirst : parseIntvl (a++0x2d::b)=intvlLoop false n 0 (0x2d::b) := by
    obtain ⟨rfl,rfl⟩ | ha := ha
    · rfl
    · exact intvlLoop_of_item false 0 0 (by simpa using ha) nofun (by simp)
  have hnil : ∀d∈([] : Bytes).head?,d=0x2d := nofun
  have hsecond := intvlLoop_of_item true n 0 (by simpa using hb) (fun _ => hlt) hnil
  rw [append_nil] at hsecond
  rw [hfirst,intvlLoop,if_pos rfl,if_neg (by decide),hsecond,intvlLoop,if_neg (by simp; omega)]
  rfl

lemma intvlLoop_second {n m : Nat} (h : intvlLoop true i0 0 s=some (n,m)) : n=i0 ∧ Item (i0<·) s m ∧ i0 < m := by
  cases s with
  | nil => simp [intvlLoop] at h
  | cons c s =>
    have hc : c≠0x2d := by
      rintro rfl
      simp [intvlLoop] at h
    obtain ⟨item,k,rest,hs,hi,hlo,rfl | ⟨t,rfl⟩,hl⟩ := intvlLoop_item hc h
    · rw [if_pos rfl,if_pos rfl,intvlLoop] at hl
      split_ifs at hl
      cases hl
      rw [append_nil] at hs
      exact ⟨rfl,by simpa [hs] using hi,hlo rfl⟩
    · simp [intvlLoop] at hl

/-- What is accepted is an interval exactly if the string is not empty, is not a binary literal with a decimal one
behind it, and no bound of it is missing or such a pair; in the second bound both values have to be in order. -/
theorem parse_intvl_accepts (s : Bytes) : (∀n m,parseIntvl s=some (n,m) → Interval s n m) ↔
    s≠[] ∧ (∀n,¬Doubled (fun _ => True) s n) ∧ ∀a b n m,s=a++0x2d::b → (a=[] ∧ n=0 ∨ Item (fun _ => True) a n) →
      Item (n < ·) b m → n < m → IsLit a n ∧ IsLit b m := by
  constructor
  · intro h
    refine ⟨?_,fun n hd => ?_,fun a b n m hs ha hb hlt => ?_⟩
    · rintro rfl
      obtain ⟨hl,-⟩ | ⟨a,b,hs,-⟩ := h 0 0 (by rw [parseIntvl,intvlLoop]; rfl)
      · exact IsLit.ne_nil hl rfl
      · simp at hs
    · have hnil : ∀d∈([] : Bytes).head?,d=0x2d := nofun
      have hp := intvlLoop_of_item false 0 0 (.inr (by simpa using hd)) nofun hnil
      rw [append_nil,intvlLoop] at hp
      obtain ⟨hl,-⟩ | ⟨-,-,-,-,-,hlt⟩ := h n 0 hp
      · exact hd.not_isLit hl
      · omega
    · obtain ⟨-,rfl⟩ | ⟨a',b',hs',ha',hb',-⟩ := h n m (hs ▸ parseIntvl_two ha hb hlt)
      · omega
      · have hna : (0x2d : UInt8)∉a := ha.elim (fun h => by simp [h.1]) Item.not_mem
        obtain ⟨rfl,-,rfl⟩ := (append_cons_inj_of_notMem hna hb.not_mem).1 (hs.symm.trans hs')
        exact ⟨ha',hb'⟩
  · rintro ⟨hne,hone,htwo⟩ n m h
    obtain ⟨c,s,rfl⟩ := exists_cons_of_ne_nil hne
    by_cases hc : c=0x2d
    · subst hc
      rw [parseIntvl,intvlLoop,if_pos rfl,if_neg (by decide)] at h
      obtain ⟨rfl,hb,hlt⟩ := intvlLoop_second h
      exact absurd rfl (IsLit.ne_nil (htwo [] s 0 m rfl (.inl ⟨rfl,rfl⟩) hb hlt).1)
    · obtain ⟨item,k,rest,hs,hi,-,rfl | ⟨t,rfl⟩,hl⟩ := intvlLoop_item hc h
      · rw [intvlLoop] at hl
        cases hl
        rw [append_nil] at hs
        rw [hs]
        exact .inl ⟨hi.resolve_right (by simpa [← hs] using hone k),rfl⟩
      · rw [intvlLoop,if_pos rfl,if_neg (by decide)] at hl
        obtain ⟨rfl,hb,hlt⟩ := intvlLoop_second hl
        have hlit := htwo item t _ m hs (.inr (by simpa using hi)) hb hlt
        exact .inr ⟨item,t,hs,hlit.1,hlit.2,hlt⟩

/-- `1-0x1F` -/
theorem parse_intvl_accepts_hex : Interval [0x31,0x2d,0x30,0x78,0x31,0x46] 1 31 := by
  have hno {ok : Nat → Prop} {t : Bytes} {n : Nat} (ht : t<:+:[0x31,0x2d,0x30,0x78,0x31,0x46]) : ¬Doubled ok t n := by
    rintro ⟨pre,bs,k,d,ds,rfl,hk,-⟩
    obtain ⟨b,hb,hm⟩ : ∃b∈pre,b=0x62 ∨ b=0x42 := by
      rcases hk.hasBase with h | h | ⟨-,rfl | rfl⟩ <;> [omega;omega;exact ⟨0x62,by simp⟩;exact ⟨0x42,by simp⟩]
    have hmem := ht.subset (by simp [hb] : b∈pre++bs++d::ds)
    rcases hm with rfl | rfl <;> revert hmem <;> decide
  refine (parse_intvl_accepts _).2 ⟨by decide,fun n => hno (infix_refl _),fun a b n m hs ha hb hlt => ?_⟩ 1 31
    (by decide +kernel)
  obtain ⟨rfl,-⟩ | ha := ha
  · cases hs
  · exact ⟨ha.resolve_right (hno ⟨[],0x2d::b,hs.symm⟩),hb.resolve_right (hno ⟨a++[0x2d],[],by simp [hs]⟩)⟩

/-- The empty string, `-5` and `0b12` -/
theorem parse_intvl_not_literal : parseIntvl []=some (0,0) ∧ parseIntvl [0x2d,0x35]=some (0,5) ∧
    parseIntvl [0x30,0x62,0x31,0x32]=some (2,0) := by
  decide +kernel
end VetWaf.Cfg
