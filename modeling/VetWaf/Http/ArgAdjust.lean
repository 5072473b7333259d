import VetWaf.Http.Htype

namespace VetWaf.Http.ArgAdjust
open List

def star : UInt8 := 0x2a
def bslash : UInt8 := 0x5c

def escapePrePost (after : Bytes) : Bool → Bool → Bytes → Bytes
  | _, _, [] => []
  | first, escaped, c::str =>
    if c=star ∧ escaped=false ∧ (first=true ∨ str++after=[]) then escapePrePost after false escaped str
    else if c≠bslash ∨ escaped=true then c::escapePrePost after false false str
    else escapePrePost after false true str

def findSpaces (s : Bytes) : Nat×Nat :=
  let trail := (s.tail.reverse.takeWhile isspace).length
  (((s.take (s.length-trail)).takeWhile isspace).length,trail)

inductive Op where
  | eq
  | pre
  | suffix
  deriving DecidableEq

inductive Adjusted where
  | einval
  | wildcard
  | fault
  | ok (op : Op) (name pattern : Bytes)
  deriving DecidableEq

def argOp (arg : Bytes) (len : Nat) (suffixOk : Bool) : Op :=
  if arg=[star] ∨ 1<len ∧ arg[len-1]?=some star ∧ arg[len-2]?≠some bslash then .pre
  else if arg.head?=some star ∧ suffixOk=true then .suffix
  else .eq

/-- `off` bytes at the beginning and `endOff` at the end of the argument are spaces. -/
def adjust (arg : Bytes) (suffixOk : Bool) (name : Bytes) (off endOff : Nat) : Adjusted :=
  let len := arg.length-(off+endOff)
  .ok (argOp arg len suffixOk) name (escapePrePost (arg.drop (off+len)) true false ((arg.drop off).take len))

/-- `tfw_http_arg_adjust` without a regular expression. -/
def argAdjust (arg : Bytes) (cookie : Bool) (rawHdrName : Option Bytes) : Adjusted :=
  match rawHdrName with
  | none => if arg=[star] then .wildcard else adjust arg true [] 0 0
  | some raw =>
    if cookie then adjust arg true [] 0 0
    else
      let n := findSpaces raw
      let a := findSpaces arg
      if raw=[] ∨ n.1+n.2=raw.length then .einval
      else if arg=[] then .fault
      else if a.1+a.2=arg.length then .einval
      else adjust arg false ((raw.drop n.1).take (raw.length-(n.1+n.2))++[0x3a]) a.1 a.2

/-- Every escape is replaced by the escaped character. -/
def unescape : Bool → Bytes → Bytes
  | _, [] => []
  | escaped, c::s => if c=bslash ∧ escaped=false then unescape true s else c::unescape false s

/-- The last character is a star that is not escaped. -/
def finalStar : Bool → Bytes → Bool
  | _, [] => false
  | escaped, [c] => c=star ∧ escaped=false
  | escaped, c::s => finalStar (c=bslash ∧ escaped=false) s

/-- The argument without its wildcards. -/
def strip (arg : Bytes) : Bytes :=
  let s := if finalStar false arg then arg.dropLast else arg
  if s.head?=some star then s.tail else s

/-- The operator and the pattern agree on the wildcards of the argument. -/
structure Consistent (suffixOk : Bool) (arg : Bytes) (op : Op) (pattern : Bytes) : Prop where
  pre : op=.pre ↔ finalStar false arg=true
  suffix : suffixOk=true → (op=.suffix ↔ arg.head?=some star)
  eq : finalStar false arg=false → arg.head?≠some star → op=.eq
  pattern : pattern=unescape false (strip arg)

variable {s arg : Bytes} {escaped : Bool}
lemma escapePrePost_rest : escapePrePost [] false escaped s =
    unescape escaped (if finalStar escaped s then s.dropLast else s) := by
  induction s generalizing escaped with
  | nil => rfl
  | cons c s ih =>
    cases s with
    | nil =>
      by_cases hb : c=bslash
      · subst hb
        cases escaped <;> decide
      · by_cases hs : c=star <;> cases escaped <;> simp [escapePrePost,finalStar,unescape,hb,hs]
    | cons d s =>
      rw [escapePrePost,if_neg (by simp),ih,ih]
      by_cases hb : c=bslash <;> cases escaped <;> simp [finalStar,hb] <;> split_ifs <;> simp [unescape,hb]

lemma escapePrePost_strip (h : arg≠[]) : escapePrePost [] true false arg=unescape false (strip arg) := by
  obtain ⟨c,s,rfl⟩ := exists_cons_of_ne_nil h
  by_cases hc : c=star
  · subst hc
    rw [escapePrePost,if_pos (by simp),escapePrePost_rest]
    cases s with
    | nil => rfl
    | cons d s =>
      rw [strip,show finalStar false (star::d::s)=finalStar false (d::s) from rfl]
      cases finalStar false (d::s) <;> simp
  · have hf : escapePrePost [] true false (c::s)=escapePrePost [] false false (c::s) := by simp [escapePrePost,hc]
    rw [hf,escapePrePost_rest,strip]
    cases finalStar false (c::s) <;> cases s <;> simp [hc]

lemma escapePrePost_spaces {after : Bytes} (escaped : Bool) (s : Bytes) (ha : after≠[]) :
    escapePrePost after false escaped s=unescape escaped s := by
  induction s generalizing escaped with
  | nil => rfl
  | cons c s ih =>
    rw [escapePrePost,if_neg (by simp [ha]),ih,ih]
    by_cases hb : c=bslash <;> cases escaped <;> simp [unescape,hb]

lemma unescape_finalStar (h : finalStar escaped s=true) : unescape escaped s=unescape escaped s.dropLast++[star] := by
  induction s generalizing escaped with
  | nil => simp [finalStar] at h
  | cons c s ih =>
    cases s with
    | nil =>
      obtain ⟨rfl,rfl⟩ : c=star ∧ escaped=false := by simpa [finalStar] using h
      rfl
    | cons d s =>
      rw [finalStar] at h
      · have hu (l : Bytes) : unescape escaped (c::l)=
            if c=bslash ∧ escaped=false then unescape true l else c::unescape false l := rfl
        rw [dropLast_cons_cons,hu,hu]
        by_cases hc : c=bslash ∧ escaped=false
        · rw [if_pos hc,if_pos hc]
          exact ih (by simpa [hc] using h)
        · rw [if_neg hc,if_neg hc,ih (by simpa [hc] using h),cons_append]
      · simp

/-- A star before trailing spaces is not seen as the last character, unless it is the first one. -/
lemma escapePrePost_strip_iff {t after : Bytes} (h : t≠[]) :
    escapePrePost after true false t=unescape false (strip t) ↔ (finalStar false t=true → after=[] ∨ t=[star]) := by
  by_cases ha : after=[]
  · simp [ha,escapePrePost_strip h]
  obtain ⟨c,s,rfl⟩ := exists_cons_of_ne_nil h
  have hr (b : Bool) := escapePrePost_spaces b s ha
  by_cases hc : c=star
  · subst hc
    rw [escapePrePost,if_pos (by simp),hr]
    cases s with
    | nil => simp [strip,finalStar,unescape]
    | cons d s =>
      have hf : finalStar false (star::d::s)=finalStar false (d::s) := rfl
      rw [strip,hf]
      by_cases hd : finalStar false (d::s)=true
      · simp [hd,ha,unescape_finalStar hd]
      · simp [hd]
  · have he : escapePrePost after true false (c::s)=unescape false (c::s) := by
      rw [escapePrePost,if_neg (by simp [hc]),hr,hr]
      by_cases hb : c=bslash <;> simp [unescape,hb]
    rw [he,strip]
    by_cases hf : finalStar false (c::s)=true
    · have hh : (c::s).dropLast.head?≠some star := by cases s <;> simp [hc]
      simp [hf,hh,ha,hc,unescape_finalStar hf]
    · simp [hf,hc]

/-- The last character is a star, and the one before it is no backslash. -/
def StarSeen (s : Bytes) : Prop :=
  s.getLast?=some star ∧ s.dropLast.getLast?≠some bslash

instance (s : Bytes) : Decidable (StarSeen s) := inferInstanceAs (Decidable (_∧_))

/-- The argument's leading spaces, its text and the spaces behind it. Only for a raw header are they told apart. -/
def parts (raw : Bool) (arg : Bytes) : Bytes×Bytes×Bytes :=
  if raw then
    let rest := arg.dropWhile isspace
    (arg.takeWhile isspace,rest.rdropWhile isspace,rest.rtakeWhile isspace)
  else ([],arg,[])

lemma rdropWhile_ne_nil {c : UInt8} {r : Bytes} (hc : isspace c=false) : (c::r).rdropWhile isspace≠[] :=
  fun h => by simp [rdropWhile_eq_nil_iff.1 h c mem_cons_self] at hc

lemma length_split {c : UInt8} {r : Bytes} :
    (c::r).length=((c::r).rdropWhile isspace).length+((c::r).rtakeWhile isspace).length := by
  rw [← length_append,rdropWhile_append_rtakeWhile]

lemma findSpaces_append {lead r : Bytes} {c : UInt8} (hl : ∀x∈lead,isspace x=true) (hc : isspace c=false) :
    findSpaces (lead++c::r)=(lead.length,((c::r).rtakeWhile isspace).length) := by
  have hw (l m : Bytes) : (l++c::m).takeWhile isspace=l.takeWhile isspace := by
    induction l with
    | nil => simp [hc]
    | cons x l ih => by_cases hx : isspace x=true <;> simp [hx,ih]
  have ht : ((c::r).rtakeWhile isspace).length=(r.reverse.takeWhile isspace).length := by
    rw [rtakeWhile,length_reverse,reverse_cons,hw]
  have hs : ((lead++c::r).tail.reverse.takeWhile isspace).length=((c::r).rtakeWhile isspace).length := by
    rw [ht]
    cases lead with
    | nil => rfl
    | cons x l => rw [cons_append,tail_cons,reverse_append,reverse_cons,append_assoc,singleton_append,hw]
  have hk : (lead++c::r).take (lead.length+((c::r).rdropWhile isspace).length)=lead++(c::r).rdropWhile isspace := by
    rw [take_length_add_append,prefix_iff_eq_take.1 ( rdropWhile_prefix isspace (c::r))]
    simp
  obtain ⟨m,hm⟩ : ∃m,(c::r).rdropWhile isspace=c::m := by
    obtain ⟨x,m,hx⟩ := exists_cons_of_ne_nil (rdropWhile_ne_nil (r := r) hc)
    obtain ⟨k,hk⟩ := rdropWhile_prefix isspace (c::r)
    rw [hx,cons_append,cons.injEq] at hk
    exact ⟨m,by rw [hx,hk.1]⟩
  rw [findSpaces,hs,length_append,length_split,← Nat.add_assoc,Nat.add_sub_cancel,hk,hm,hw,takeWhile_eq_self_iff.2 hl]

lemma findSpaces_all (hne : s≠[]) (h : ∀c∈s,isspace c=true) : (findSpaces s).1+(findSpaces s).2=s.length := by
  obtain ⟨c,r,rfl⟩ := exists_cons_of_ne_nil hne
  have hr : r.reverse.takeWhile isspace=r.reverse := takeWhile_eq_self_iff.2 fun x hx => h x (by simp_all)
  simp [findSpaces,hr,h c mem_cons_self,Nat.add_comm]

lemma exists_split (h : ¬∀c∈s,isspace c=true) :
    ∃lead c r,s=lead++c::r ∧ (∀x∈lead,isspace x=true) ∧ isspace c=false := by
  have hd : s.dropWhile isspace≠[] := mt dropWhile_eq_nil_iff.1 h
  obtain ⟨c,r,hc⟩ := exists_cons_of_ne_nil hd
  refine ⟨s.takeWhile isspace,c,r,by rw [← hc,takeWhile_append_dropWhile],fun x hx => mem_takeWhile_imp hx,?_⟩
  have hn := head_dropWhile_not isspace hd
  simpa [hc] using hn

/-- The spaces cover the text exactly if it has nothing else. -/
lemma findSpaces_full : s=[] ∨ (findSpaces s).1+(findSpaces s).2=s.length ↔ ∀c∈s,isspace c=true := by
  constructor
  · intro h
    by_contra hn
    obtain ⟨lead,c,r,rfl,hl,hc⟩ := exists_split hn
    have hp := length_pos_of_ne_nil (rdropWhile_ne_nil (r := r) hc)
    have hd := length_split (c := c) (r := r)
    rw [findSpaces_append hl hc] at h
    simp only [append_eq_nil_iff,reduceCtorEq,and_false,false_or,length_append] at h
    omega
  · intro h
    by_cases hs : s=[]
    · exact .inl hs
    · exact .inr (findSpaces_all hs h)

lemma parts_append {lead r : Bytes} {c : UInt8} (hl : ∀x∈lead,isspace x=true) (hc : isspace c=false) :
    parts true (lead++c::r)=(lead,(c::r).rdropWhile isspace,(c::r).rtakeWhile isspace) := by
  simp [parts,takeWhile_append_of_pos hl,dropWhile_append_of_pos hl,hc]

variable {lead t trail : Bytes}
lemma starSeen_append {l u : Bytes} (hl : ∀c∈l,isspace c=true) : StarSeen (l++u) ↔ StarSeen u := by
  have hsp (c : UInt8) (h : l.getLast?=some c) : isspace c=true := hl c (mem_of_getLast? h)
  obtain rfl | ⟨v,x,rfl⟩ := eq_nil_or_concat u
  · rw [append_nil]
    refine ⟨fun h => absurd (hsp _ h.1) (by decide),fun h => by simp [StarSeen] at h⟩
  · obtain rfl | ⟨w,y,rfl⟩ := eq_nil_or_concat v
    · have hb : l.getLast?≠some bslash := fun h => absurd (hsp _ h) (by decide)
      simp [StarSeen,hb]
    · simp [StarSeen]

/-- What the code tests for a prefix: it counts the length of the trimmed text from the begin of the argument. -/
lemma tested_iff (trail : Bytes) (hl : ∀c∈lead,isspace c=true) (ht : t≠[]) :
    (lead++(t++trail)=[star] ∨ 1<t.length ∧ (lead++(t++trail))[t.length-1]?=some star ∧
      (lead++(t++trail))[t.length-2]?≠some bslash) ↔
    StarSeen (t.take (t.length-lead.length)) ∧ (trail=[] ∨ t≠[star]) := by
  have hn := length_pos_of_ne_nil ht
  have hw : (lead++(t++trail)).take t.length=lead.take t.length++t.take (t.length-lead.length) := by
    rw [take_append,take_append_of_le_length (Nat.sub_le _ _)]
  have hs : StarSeen ((lead++(t++trail)).take t.length) ↔ StarSeen (t.take (t.length-lead.length)) := by
    rw [hw,starSeen_append fun c hc => hl c (mem_of_mem_take hc)]
  have hlen : t.length≤(lead++(t++trail)).length := by simp; omega
  rw [← hs]
  obtain h₁ | h₁ : t.length=1 ∨ 1<t.length := by omega
  · -- A single character: it is seen only if nothing stands around it.
    obtain ⟨c,rfl⟩ := length_eq_one_iff.1 h₁
    cases lead with
    | nil => by_cases hc : c=star <;> simp [StarSeen,hc]
    | cons x l =>
      have hx : x≠star := fun h => absurd (hl x mem_cons_self) (by rw [h]; decide)
      simp [StarSeen,hx]
  · have hne : lead++(t++trail)≠[star] := fun h => by
      rw [h,length_singleton] at hlen
      omega
    have hts : t≠[star] := fun h => by simp [h] at h₁
    have hd : ((lead++(t++trail)).take t.length).dropLast=(lead++(t++trail)).take (t.length-1) := by
      rw [dropLast_eq_take,take_take,length_take_of_le hlen,Nat.min_eq_left (Nat.sub_le _ _)]
    have he (k : Nat) (hk : k<t.length) : ((lead++(t++trail)).take (k+1)).getLast?=(lead++(t++trail))[k]? := by
      rw [getLast?_eq_getElem?,length_take_of_le (by omega),Nat.add_sub_cancel,getElem?_take_of_lt (Nat.lt_succ_self k)]
    have h₂ := he (t.length-1) (by omega)
    have h₃ := he (t.length-2) (by omega)
    rw [show t.length-1+1=t.length by omega] at h₂
    rw [show t.length-2+1=t.length-1 by omega] at h₃
    simp only [StarSeen,hd,h₂,h₃,hne,hts,h₁,false_or,true_and,ne_eq,not_false_eq_true,or_true,and_true]

lemma consistent_iff (suffixOk : Bool) (trail : Bytes) (hl : ∀c∈lead,isspace c=true) (ht : t≠[])
    (hok : suffixOk=true → lead=[] ∧ trail=[]) :
    Consistent suffixOk t (argOp (lead++(t++trail)) t.length suffixOk) (escapePrePost trail true false t) ↔
      (finalStar false t=true → trail=[]) ∧ (finalStar false t=true ↔ StarSeen (t.take (t.length-lead.length))) ∧
        (suffixOk=true → ¬(finalStar false t=true ∧ t.head?=some star)) := by
  have hT := tested_iff trail hl ht
  have hF : finalStar false t=false → t≠[star] := by
    rintro h rfl
    simp [finalStar] at h
  have hh : suffixOk=true → (lead++(t++trail)).head?=t.head? := fun h => by simp [hok h]
  rw [argOp]
  constructor
  · rintro ⟨hp,hs,-,hpat⟩
    rw [escapePrePost_strip_iff ht] at hpat
    split_ifs at hp hs with h₁ h₂ <;> rw [hT] at h₁ <;> simp_all
    tauto
  · rintro ⟨h₁,h₂,h₃⟩
    refine ⟨?_,fun hok => ?_,fun hf hne => ?_,(escapePrePost_strip_iff ht).2 fun h => .inl (h₁ h)⟩ <;>
      split_ifs with h₄ h₅ <;> rw [hT] at h₄ <;> simp_all

lemma adjust_append (suffixOk : Bool) (name lead t trail : Bytes) :
    adjust (lead++(t++trail)) suffixOk name lead.length trail.length=
    .ok (argOp (lead++(t++trail)) t.length suffixOk) name (escapePrePost trail true false t) := by
  have hn : (lead++(t++trail)).length-(lead.length+trail.length)=t.length := by
    simp only [length_append]
    omega
  rw [adjust,hn,drop_length_add_append,drop_left,drop_left,take_left]

lemma consistent_whole (arg name : Bytes) : ∃op pattern,adjust arg true name 0 0=.ok op name pattern ∧
    (Consistent true arg op pattern ↔ (finalStar false arg=true ↔ StarSeen arg) ∧
      ¬(finalStar false arg=true ∧ arg.head?=some star)) := by
  have ha := adjust_append true name [] arg []
  rw [nil_append,append_nil] at ha
  refine ⟨_,_,ha,?_⟩
  by_cases h : arg=[]
  · subst h
    refine ⟨fun _ => by simp [finalStar,StarSeen],fun _ => ⟨?_,?_,?_,rfl⟩⟩ <;> simp [argOp,finalStar]
  · have hc := @consistent_iff [] arg true [] (by simp) h fun _ => ⟨rfl,rfl⟩
    simpa using hc

lemma argAdjust_whole {cookie : Bool} {rawHdrName : Option Bytes} (h : (rawHdrName.isSome && !cookie)=false) :
    argAdjust arg cookie rawHdrName=if rawHdrName=none ∧ arg=[star] then .wildcard else adjust arg true [] 0 0 := by
  cases rawHdrName with
  | none => simp [argAdjust]
  | some rawName =>
    obtain rfl : cookie=true := by simpa using h
    simp [argAdjust]

/-- The name and the argument need a character that is not a space, and what spaces stand around it is cut off. -/
lemma argAdjust_raw (arg rawName : Bytes) : (∃name,argAdjust arg false (some rawName)=
      adjust arg false name (findSpaces arg).1 (findSpaces arg).2) ∧ (∀text∈[rawName,arg],∃c∈text,isspace c=false) ∨
    (∀op name pattern,argAdjust arg false (some rawName)≠.ok op name pattern) ∧
      ¬∀text∈[rawName,arg],∃c∈text,isspace c=false := by
  have hall (text : Bytes) : (∃c∈text,isspace c=false) ↔
      ¬(text=[] ∨ (findSpaces text).1+(findSpaces text).2=text.length) := by
    rw [findSpaces_full]
    simp
  simp only [forall_mem_cons,not_mem_nil,false_implies,implies_true,and_true,hall,argAdjust]
  rw [if_neg Bool.false_ne_true]
  split_ifs with h₂ h₃ h₄
  · exact .inr ⟨nofun,fun h => h.1 h₂⟩
  · exact .inr ⟨nofun,fun h => h.2 (.inl h₃)⟩
  · exact .inr ⟨nofun,fun h => h.2 (.inr h₄)⟩
  · exact .inl ⟨⟨_,rfl⟩,h₂,not_or.2 ⟨h₃,h₄⟩⟩

/-- Whatever spaces stand around the argument, the operator and the pattern agree exactly if a star at the end of the
text has no space behind it, the test for a star, which leaves out as many characters at the end of the text as there
are leading spaces, finds an unescaped star at the end, and there are not wildcards at both ends where suffixes
exist. -/
theorem arg_adjust_iff (arg : Bytes) (cookie : Bool) (rawHdrName : Option Bytes) (raw : Bool) (lead t trail : Bytes)
    (hraw : (rawHdrName.isSome && !cookie)=raw) (hparts : parts raw arg=(lead,t,trail)) :
    ((∃op name pattern,argAdjust arg cookie rawHdrName=.ok op name pattern) ↔ (rawHdrName=none → arg≠[star]) ∧
      (raw=true → ∀text∈[rawHdrName.getD [],arg],∃c∈text,isspace c=false)) ∧
    ∀op name pattern,argAdjust arg cookie rawHdrName=.ok op name pattern → (Consistent (!raw) t op pattern ↔
      (finalStar false t=true → trail=[]) ∧ (finalStar false t=true ↔ StarSeen (t.take (t.length-lead.length))) ∧
        (raw=false → ¬(finalStar false t=true ∧ t.head?=some star))) := by
  cases raw with
  | false =>
    obtain ⟨rfl,rfl,rfl⟩ : [] = lead ∧ arg=t ∧ [] = trail := by simpa [parts] using hparts
    obtain ⟨op,pattern,ha,hc⟩ := consistent_whole arg []
    rw [argAdjust_whole hraw,ha]
    by_cases hw : rawHdrName=none ∧ arg=[star]
    · simp [hw]
    · simp only [if_neg hw]
      refine ⟨⟨fun _ => ⟨fun h₁ h₂ => hw ⟨h₁,h₂⟩,nofun⟩,fun _ => ⟨_,_,_,rfl⟩⟩,?_⟩
      rintro _ _ _ ⟨⟩
      simpa using hc
  | true =>
    rw [Bool.and_eq_true,Option.isSome_iff_exists,Bool.not_eq_true'] at hraw
    obtain ⟨⟨rawName,rfl⟩,rfl⟩ := hraw
    obtain ⟨⟨name,hadj⟩,htext⟩ | ⟨hno,htext⟩ := argAdjust_raw arg rawName
    · obtain ⟨x,hx,hspace⟩ := htext arg (by simp)
      obtain ⟨l,c,r,rfl,hl,hc⟩ := exists_split (s := arg) fun h => by simp [h x hx] at hspace
      rw [parts_append hl hc,Prod.mk.injEq,Prod.mk.injEq] at hparts
      obtain ⟨rfl,rfl,rfl⟩ := hparts
      have happ := adjust_append false name l ((c::r).rdropWhile isspace) ((c::r).rtakeWhile isspace)
      have hcon := consistent_iff false ((c::r).rtakeWhile isspace) hl (rdropWhile_ne_nil (r := r) hc) nofun
      rw [rdropWhile_append_rtakeWhile] at happ hcon
      rw [hadj,findSpaces_append hl hc,happ]
      refine ⟨⟨fun _ => ⟨nofun,fun _ => htext⟩,fun _ => ⟨_,_,_,rfl⟩⟩,?_⟩
      rintro _ _ _ ⟨⟩
      simpa using hcon
    · refine ⟨⟨fun ⟨op,name,pattern,h⟩ => absurd h (hno op name pattern),fun h => absurd (h.2 rfl) htext⟩,?_⟩
      exact fun op name pattern h => absurd h (hno op name pattern)

/-- ` *a\* `: of the two stars between the spaces one is dropped and one is escaped. -/
theorem arg_adjust_iff_spaces : ∃op pattern,
    argAdjust [0x20,star,0x61,bslash,star,0x20] false (some [0x78])=.ok op [0x78,0x3a] pattern ∧
      Consistent false [star,0x61,bslash,star] op pattern :=
  ⟨.eq,[0x61,star],by decide,((arg_adjust_iff [0x20,star,0x61,bslash,star,0x20] false (some [0x78]) true [0x20]
    [star,0x61,bslash,star] [0x20] rfl (by decide)).2 .eq [0x78,0x3a] [0x61,star] (by decide)).2
    ⟨by decide,by decide,nofun⟩⟩

/-- `a\\*`: the star is dropped, the operator is `EQ`. -/
theorem arg_adjust_inconsistent : argAdjust [0x61,bslash,bslash,star] false none=.ok .eq [] [0x61,bslash] ∧
      argAdjust [star,0x20] false (some [0x78])=.ok .eq [0x78,0x3a] [] ∧
      argAdjust [0x20,0x61,star] false (some [0x78])=.ok .eq [0x78,0x3a] [0x61] ∧
      argAdjust [star,0x61,star] false none=.ok .pre [] [0x61] := by
  decide
end VetWaf.Http.ArgAdjust
