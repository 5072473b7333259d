import VetWaf.Http.Htype

namespace VetWaf.Cfg
open List Http

inductive Sym where
  | lbrace
  | rbrace
  | semicolon
  | eqsign
  | deqsign
  | neqsign
  | arrow
  | regex
  deriving DecidableEq

/-- `token_t`, the symbols apart -/
inductive Token where
  | na
  | literal
  | sym (s : Sym)
  deriving DecidableEq

/-- `TfwCfgParserState`, with the text from `lit` and from `pos` on up to its NUL; an `int` holds every `litLen`. -/
structure Ps where
  t : Token := .na
  lit : Bytes := []
  litLen : Nat := 0
  pos : Bytes
  prevC : UInt8 := 0

/-- The characters that end a literal: blanks and `"#{};=`. -/
def endsLiteral (c : UInt8) : Bool := isspace c || [0x22,0x23,0x7b,0x7d,0x3b,0x3d].contains c

/-- `TS_LITERAL_ACCUMULATE` with `TS_LITERAL_ACC_ESCAPE` and `TS_DOUBLE_CHARACTER_FIRST_CHAR`; there is no result when
`pos` would go beyond the NUL. -/
def literalAccumulate (lit : Bytes) (litLen : Nat) (prevC : UInt8) : Bytes → Option Ps
  | [] => some ⟨if litLen=0 then .na else .literal,lit,litLen,[],prevC⟩
  | c::s =>
    if c=0x5c then
      match s with
      | [] => none
      | d::s => literalAccumulate lit (litLen+2) d s
    else if endsLiteral c then some ⟨.literal,lit,litLen,c::s,prevC⟩
    else if c=0x2d ∧ s.head?=some 0x3e ∨ c=0x21 ∧ s.head?=some 0x3d then some ⟨.literal,lit,litLen,s,c⟩
    else literalAccumulate lit (litLen+1) c s

/-- `TS_QUOTED_LITERAL_ACCUMULATE` with `TS_QUOTED_LIT_ACC_ESCAPE` -/
def quotedAccumulate (lit : Bytes) (litLen : Nat) (prevC : UInt8) : Bytes → Option Ps
  | [] => some ⟨.na,lit,litLen,[],prevC⟩
  | c::s =>
    if c=0x5c then
      match s with
      | [] => none
      | d::s => quotedAccumulate lit (litLen+2) d s
    else if c=0x22 then some ⟨.literal,lit,litLen,s,c⟩
    else quotedAccumulate lit (litLen+1) c s

/-- `TS_DCHAR`: a `!` or a `-` was read. -/
def dchar (c : UInt8) : Bytes → Option Ps
  | [] => some {pos:=[], prevC:=c}
  | d::s =>
    if d=0x3d ∧ c=0x21 then some {t:=.sym .neqsign, pos:=s, prevC:=d}
    else if d=0x3e ∧ c=0x2d then some {t:=.sym .arrow, pos:=s, prevC:=d}
    else literalAccumulate (c::d::s) 1 c (d::s)

def eqsign : Bytes → Option Ps
  | [] => some {pos:=[], prevC:=0x3d}
  | d::s =>
    if d=0x3d then some {t:=.sym .deqsign, pos:=s, prevC:=d}
    else some {t:=.sym .eqsign, pos:=d::s, prevC:=0x3d}

/-- `TS_START_NEW_TOKEN` and `TS_COMMENT` -/
def startNewToken (comment : Bool) (prevC : UInt8) : Bytes → Option Ps
  | [] => some {pos:=[], prevC}
  | c::s =>
    if comment then startNewToken (c≠0x0a) c s
    else if c=0x5c then literalAccumulate (c::s) 0 prevC (c::s)
    else if isspace c then startNewToken false c s
    else if c=0x22 then quotedAccumulate s 0 c s
    else if c=0x23 then startNewToken true c s
    else if c=0x7b then some {t:=.sym .lbrace, pos:=s, prevC:=c}
    else if c=0x7d then some {t:=.sym .rbrace, pos:=s, prevC:=c}
    else if c=0x3b then some {t:=.sym .semicolon, pos:=s, prevC:=c}
    else if c=0x21 ∨ c=0x2d then dchar c s
    else if c=0x3d ∧ prevC=0x21 then some {t:=.sym .neqsign, pos:=s, prevC:=c}
    else if c=0x3e ∧ prevC=0x2d then some {t:=.sym .arrow, pos:=s, prevC:=c}
    else if c=0x3d then eqsign s
    else if c=0x7e then some {t:=.sym .regex, pos:=s, prevC:=c}
    else literalAccumulate (c::s) 0 prevC (c::s)

def readNextToken (ps : Ps) : Option Ps := startNewToken false ps.prevC ps.pos

/-- `__alloc_and_copy_literal` -/
def copyLiteral (keepBs escaped : Bool) : Bytes → Bytes
  | [] => []
  | c::s => if c≠0x5c ∨ escaped ∨ keepBs then c::copyLiteral keepBs false s else copyLiteral keepBs true s

/-- The state after some calls. -/
def readTokens : Nat → Ps → Option Ps
  | 0, ps => some ps
  | n+1, ps => (readNextToken ps).bind (readTokens n)

/-- A call has left `pos` and a literal inside the text. -/
def Inside (text : Bytes) (ps : Ps) : Prop :=
  ps.pos<:+text ∧ (ps.t=.literal → ps.lit<:+text ∧ ps.litLen ≤ ps.lit.length)

inductive Mode where
  | plain
  | quoted
  | comment
  deriving DecidableEq

/-- The text ends in the middle of an escape. There are none in comments. -/
def endsEscaped (m : Mode) : Bytes → Bool
  | [] => false
  | c::s =>
    if m=.comment then endsEscaped (if c=0x0a then .plain else .comment) s
    else if c=0x5c then
      match s with
      | [] => true
      | _::s => endsEscaped m s
    else if c=0x22 then endsEscaped (if m=.plain then .quoted else .plain) s
    else endsEscaped (if c=0x23 ∧ m=.plain then .comment else m) s

/-- A call that begins at `s` in the mode `m` stays inside the text, and is stopped only by an escape at the end. -/
def Kept (text : Bytes) (m : Mode) (s : Bytes) (k : Nat) : Option Ps → Prop
  | none => endsEscaped m s=true
  | some ps => Inside text ps ∧ endsEscaped .plain ps.pos=endsEscaped m s ∧ ps.pos.length≤k

section
variable {text lit s : Bytes} {litLen k : Nat} {m : Mode} {r : Option Ps} {c : UInt8}
lemma suffix_tail (h : c::s<:+text) : s<:+text := (suffix_cons c s).trans h

lemma Kept.of_eq {m₁ : Mode} {t : Bytes} {n : Nat} (h : Kept text m s k r) (he : endsEscaped m s=endsEscaped m₁ t)
    (hk : k≤n) : Kept text m₁ t n r := by
  cases r with
  | none => exact he.symm.trans h
  | some ps => exact ⟨h.1,h.2.1.trans he,h.2.2.trans hk⟩

lemma endsEscaped_plain (hb : c≠0x5c) (hq : c≠0x22) (hh : c≠0x23) :
    endsEscaped .plain s=endsEscaped .plain (c::s) := by
  rw [endsEscaped.eq_def _ (c::s)]
  simp [hb,hq,hh]

lemma endsEscaped_quoted (hb : c≠0x5c) :
    endsEscaped (if c=0x22 then .plain else .quoted) s=endsEscaped .quoted (c::s) := by
  rw [endsEscaped.eq_def _ (c::s)]
  by_cases hq : c=0x22 <;> simp [hb,hq]

lemma endsEscaped_escape (d : UInt8) (hm : m≠.comment) : endsEscaped m s=endsEscaped m (0x5c::d::s) := by
  rw [endsEscaped.eq_def _ (0x5c::d::s)]
  simp [hm]

lemma endsEscaped_end (hm : m≠.comment) : endsEscaped m [0x5c]=true := by
  rw [endsEscaped.eq_def]
  simp [hm]

lemma not_ends (h : endsLiteral c=false) : isspace c=false ∧ c≠0x22 ∧ c≠0x23 := by
  rw [endsLiteral,Bool.or_eq_false_iff] at h
  refine ⟨h.1,?_,?_⟩ <;> rintro rfl <;> simp at h

lemma literalAccumulate_kept (litLen : Nat) (prevC : UInt8) (hs : s<:+text) (hli : lit<:+text)
    (hl : lit.length=litLen+s.length) :
    Kept text .plain s s.length (literalAccumulate lit litLen prevC s) := by
  fun_induction literalAccumulate lit litLen prevC s with
  | case1 => exact ⟨⟨hs,fun _ => ⟨hli,hl.ge⟩⟩,rfl,le_rfl⟩
  | case2 => exact endsEscaped_end (by decide)
  | case3 litLen _ d s ih =>
    rw [length_cons,length_cons] at hl ⊢
    exact (ih (suffix_tail (suffix_tail hs)) (by omega)).of_eq (endsEscaped_escape d (by decide)) (by omega)
  | case4 => exact ⟨⟨hs,fun _ => ⟨hli,by dsimp only; omega⟩⟩,rfl,le_rfl⟩
  | case5 litLen prevC c s hb he hd =>
    obtain ⟨-,hq,hh⟩ := not_ends (by simpa using he)
    exact ⟨⟨suffix_tail hs,fun _ => ⟨hli,by dsimp only; omega⟩⟩,endsEscaped_plain hb hq hh,by simp⟩
  | case6 litLen _ c s hb he hd ih =>
    obtain ⟨-,hq,hh⟩ := not_ends (by simpa using he)
    rw [length_cons] at hl ⊢
    exact (ih (suffix_tail hs) (by omega)).of_eq (endsEscaped_plain hb hq hh) (by omega)

/-- A literal takes at least its first character. -/
lemma literalAccumulate_first (prevC : UInt8) (hs : c::s<:+text)
    (hc : c≠0x5c → endsLiteral c=false ∧ c≠0x21 ∧ c≠0x2d) :
    Kept text .plain (c::s) s.length (literalAccumulate (c::s) 0 prevC (c::s)) := by
  rw [literalAccumulate.eq_def]
  by_cases hb : c=0x5c
  · subst hb
    cases s with
    | nil => exact endsEscaped_end (by decide)
    | cons d s =>
      have hk := literalAccumulate_kept 2 d (suffix_tail (suffix_tail hs)) hs (by simp; omega)
      exact hk.of_eq (endsEscaped_escape d (by decide)) (by simp)
  · obtain ⟨he,h₁,h₂⟩ := hc hb
    obtain ⟨-,hq,hh⟩ := not_ends he
    simp only [hb,he,h₁,h₂,false_and,or_self,Bool.false_eq_true,if_false]
    exact (literalAccumulate_kept _ c (suffix_tail hs) hs (by simp; omega)).of_eq (endsEscaped_plain hb hq hh) le_rfl

lemma quotedAccumulate_kept (prevC : UInt8) (hs : s<:+text) (hli : lit<:+text) (hl : lit.length=litLen+s.length) :
    Kept text .quoted s s.length (quotedAccumulate lit litLen prevC s) := by
  fun_induction quotedAccumulate lit litLen prevC s with
  | case1 => exact ⟨⟨hs,nofun⟩,rfl,le_rfl⟩
  | case2 => exact endsEscaped_end (by decide)
  | case3 litLen _ d s ih =>
    rw [length_cons,length_cons] at hl ⊢
    exact (ih (suffix_tail (suffix_tail hs)) (by omega)).of_eq (endsEscaped_escape d (by decide)) (by omega)
  | case4 =>
    refine ⟨⟨suffix_tail hs,fun _ => ⟨hli,by dsimp only; omega⟩⟩,?_,by simp⟩
    exact endsEscaped_quoted (c := 0x22) (by decide)
  | case5 litLen _ c s hb hq ih =>
    rw [length_cons] at hl ⊢
    refine (ih (suffix_tail hs) (by omega)).of_eq ?_ (by omega)
    rw [← endsEscaped_quoted hb,if_neg hq]

lemma kept_sym {t : Token} {prevC : UInt8} (hs : s<:+text) (ht : t≠.literal)
    (he : endsEscaped .plain s=endsEscaped m (c::s)) : Kept text m (c::s) s.length (some {t, pos:=s, prevC}) :=
  ⟨⟨hs,fun h => absurd h ht⟩,he,le_rfl⟩

lemma dchar_kept (hs : c::s<:+text) (hc : c=0x21 ∨ c=0x2d) : Kept text .plain (c::s) s.length (dchar c s) := by
  have hp : endsEscaped .plain s=endsEscaped .plain (c::s) := by
    apply endsEscaped_plain <;> rcases hc with rfl | rfl <;> decide
  fun_cases dchar c s with
  | case1 => exact ⟨⟨suffix_tail hs,nofun⟩,hp,le_rfl⟩
  | case2 d s h | case3 d s _ h =>
    have hd : endsEscaped .plain s=endsEscaped .plain (d::s) := by
      apply endsEscaped_plain <;> rw [h.1] <;> decide
    exact ⟨⟨suffix_tail (suffix_tail hs),nofun⟩,hd.trans hp,by simp⟩
  | case4 d s => exact (literalAccumulate_kept _ c (suffix_tail hs) hs (by simp; omega)).of_eq hp le_rfl

lemma eqsign_kept (hs : 0x3d::s<:+text) : Kept text .plain (0x3d::s) s.length (eqsign s) := by
  have hp := endsEscaped_plain (c := 0x3d) (s := s) (by decide) (by decide) (by decide)
  fun_cases eqsign s with
  | case1 | case3 => exact ⟨⟨suffix_tail hs,nofun⟩,hp,le_rfl⟩
  | case2 =>
    exact ⟨⟨suffix_tail (suffix_tail hs),nofun⟩,
      (endsEscaped_plain (by decide) (by decide) (by decide)).trans hp,by simp⟩

lemma startNewToken_kept (comment : Bool) (prevC : UInt8) (hs : s<:+text) :
    Kept text (if comment then .comment else .plain) s (s.length-1) (startNewToken comment prevC s) := by
  induction s generalizing comment prevC with
  | nil => exact ⟨⟨hs,nofun⟩,rfl,by simp⟩
  | cons c s ih =>
    have hts := suffix_tail hs
    rw [length_cons,Nat.add_sub_cancel,startNewToken]
    cases comment with
    | true =>
      refine (ih (c≠0x0a) c hts).of_eq ?_ (by omega)
      rw [endsEscaped.eq_def _ (c::s)]
      by_cases hn : c=0x0a <;> simp [hn]
    | false =>
      simp only [Bool.false_eq_true,if_false]
      by_cases hb : c=0x5c
      · rw [if_pos hb]
        exact literalAccumulate_first prevC hs fun h => absurd hb h
      rw [if_neg hb]
      by_cases hsp : isspace c=true
      · rw [if_pos hsp]
        refine (ih false c hts).of_eq (endsEscaped_plain hb ?_ ?_) (by omega) <;> rintro rfl <;> revert hsp <;> decide
      rw [if_neg hsp]
      by_cases hq : c=0x22
      · subst hq
        rw [if_pos rfl]
        refine (quotedAccumulate_kept _ hts hts (by simp)).of_eq ?_ le_rfl
        rw [endsEscaped.eq_def _ (0x22::s)]
        simp
      rw [if_neg hq]
      by_cases hh : c=0x23
      · subst hh
        rw [if_pos rfl]
        refine (ih true _ hts).of_eq ?_ (by omega)
        rw [endsEscaped.eq_def _ (0x23::s)]
        simp
      rw [if_neg hh]
      have hp := endsEscaped_plain (s := s) hb hq hh
      split_ifs with h₁ h₂ h₃ h₄ h₅ h₆ h₇ h₈
      all_goals try exact kept_sym hts nofun hp
      · exact dchar_kept hs h₄
      · rw [h₇] at hs ⊢
        exact eqsign_kept hs
      · rw [not_or] at h₄
        refine literalAccumulate_first prevC hs fun _ => ⟨?_,h₄⟩
        simp [endsLiteral,hsp,hq,hh,h₁,h₂,h₃,h₇]

lemma readTokens_inside {ps : Ps} (h : Inside text ps) (he : endsEscaped .plain ps.pos=false) (n : Nat) :
    ∃ps',readTokens n ps=some ps' ∧ Inside text ps' := by
  induction n generalizing ps with
  | zero => exact ⟨ps,rfl,h⟩
  | succ n ih =>
    have hk := startNewToken_kept false ps.prevC h.1
    rw [readTokens,readNextToken]
    cases hp : startNewToken false ps.prevC ps.pos with
    | none =>
      rw [hp] at hk
      exact absurd (he.symm.trans hk) (by decide)
    | some ps' =>
      rw [hp] at hk
      exact ih hk.1 (hk.2.1.trans he)

/-- Every call but one at the end of the text moves on, so an escape at the end is reached. -/
lemma readTokens_beyond {ps : Ps} (h : Inside text ps) (he : endsEscaped .plain ps.pos=true) :
    ∃n,readTokens n ps=none := by
  induction hn : ps.pos.length using Nat.strong_induction_on generalizing ps with
  | _ k ih =>
    have hk := startNewToken_kept false ps.prevC h.1
    have hpos : ps.pos≠[] := fun h0 => by simp [h0,endsEscaped] at he
    cases hp : startNewToken false ps.prevC ps.pos with
    | none => exact ⟨1,by rw [readTokens,readNextToken,hp]; rfl⟩
    | some ps' =>
      rw [hp] at hk
      have hlt := length_pos_of_ne_nil hpos
      obtain ⟨n,hr⟩ := ih _ (by have hle := hk.2.2; omega) hk.1 (hk.2.1.trans he) rfl
      exact ⟨n+1,by rw [readTokens,readNextToken,hp]; exact hr⟩
end

/-- No call leaves the text, if and only if it does not end in the middle of an escape. -/
theorem tokens_inside (text : Bytes) :
    (∀n,∃ps,readTokens n {pos:=text}=some ps ∧ Inside text ps) ↔ endsEscaped .plain text=false := by
  have hi : Inside text {pos:=text} := ⟨suffix_rfl,nofun⟩
  refine ⟨fun h => ?_,readTokens_inside hi⟩
  by_contra he
  obtain ⟨n,hn⟩ := readTokens_beyond hi (by simpa using he)
  obtain ⟨ps,hs,-⟩ := h n
  exact absurd (hn.symm.trans hs) (by simp)

/-- `a\b #\`: the last backslash is in a comment. -/
theorem tokens_inside_escaped : ∃ps,readTokens 2 {pos:=[0x61,0x5c,0x62,0x23,0x5c]}=some ps ∧
    Inside [0x61,0x5c,0x62,0x23,0x5c] ps :=
  (tokens_inside _).2 (by decide) 2

/-- `a\` -/
theorem token_beyond_text : (readTokens 1 {pos:=[0x61,0x5c]}).isNone=true := by decide

def Sym.spelling : Sym → Bytes
  | .lbrace => [0x7b]
  | .rbrace => [0x7d]
  | .semicolon => [0x3b]
  | .eqsign => [0x3d]
  | .deqsign => [0x3d,0x3d]
  | .neqsign => [0x21,0x3d]
  | .arrow => [0x2d,0x3e]
  | .regex => [0x7e]

def escape (b : Bytes) : Bytes := b.flatMap fun c => if c=0x22 ∨ c=0x5c then [0x5c,c] else [c]

/-- A symbol or a literal in quotes -/
def printToken : Sym⊕Bytes → Bytes
  | .inl s => s.spelling
  | .inr b => 0x22::escape b++[0x22]

def printTokens (ts : List (Sym⊕Bytes)) : Bytes := ts.flatMap fun t => printToken t++[0x20]

/-- The tokens of some calls up to `TOKEN_NA`, with the copies of the literals. -/
def readAll : Nat → Ps → Option (List (Token×Bytes))
  | 0, _ => some []
  | n+1, ps => (readNextToken ps).bind fun ps =>
    if ps.t=.na then some []
    else (readAll n ps).map ((ps.t,copyLiteral false false (ps.lit.take ps.litLen))::·)

def asRead : Sym⊕Bytes → Token×Bytes
  | .inl s => (.sym s,[])
  | .inr b => (.literal,b)

lemma copyLiteral_escape (b : Bytes) : copyLiteral false false (escape b)=b := by
  induction b with
  | nil => rfl
  | cons c b ih =>
    rw [escape,flatMap_cons,← escape]
    by_cases hc : c=0x22 ∨ c=0x5c
    · rw [if_pos hc,cons_append,singleton_append]
      simp [copyLiteral,ih]
    · rw [if_neg hc,singleton_append]
      simp [copyLiteral,ih,(not_or.1 hc).2]

lemma quotedAccumulate_escape (lit b rest : Bytes) (litLen : Nat) (prevC : UInt8) :
    quotedAccumulate lit litLen prevC (escape b++0x22::rest)=
      some ⟨.literal,lit,litLen+(escape b).length,rest,0x22⟩ := by
  induction b generalizing litLen prevC with
  | nil =>
    rw [quotedAccumulate.eq_def]
    simp [escape]
  | cons c b ih =>
    rw [escape,flatMap_cons,← escape,append_assoc,quotedAccumulate.eq_def]
    by_cases hc : c=0x22 ∨ c=0x5c
    · rw [if_pos hc]
      simp [ih,add_assoc]
      omega
    · rw [if_neg hc]
      simp [ih,not_or.1 hc,add_assoc,add_comm]

lemma readNextToken_print (t : Sym⊕Bytes) (rest : Bytes) {prevC : UInt8} (hp : prevC≠0x21 ∧ prevC≠0x2d) :
    ∃ps,startNewToken false prevC (printToken t++0x20::rest)=some ps ∧ ps.pos=0x20::rest ∧ ps.t≠.na ∧
      (ps.t,copyLiteral false false (ps.lit.take ps.litLen))=asRead t := by
  cases t with
  | inl s => cases s <;> simp [printToken,Sym.spelling,startNewToken,isspace,dchar,eqsign,hp,asRead,copyLiteral]
  | inr b =>
    have hr := quotedAccumulate_escape (escape b++0x22::0x20::rest) b (0x20::rest) 0 0x22
    refine ⟨_,Eq.trans ?_ hr,rfl,nofun,?_⟩
    · simp [printToken,startNewToken,isspace]
    · simp [asRead,copyLiteral_escape]

/-- What is printed token by token is read back. -/
theorem tokens_round_trip (ts : List (Sym⊕Bytes)) (n : Nat) :
    readAll (ts.length+n+1) {pos:=printTokens ts}=some (ts.map asRead) := by
  have hr (prevC : UInt8) (hpr : prevC≠0x21 ∧ prevC≠0x2d) (ps : Ps)
      (hps : readNextToken ps=startNewToken false prevC (printTokens ts)) :
      readAll (ts.length+n+1) ps=some (ts.map asRead) := by
    induction ts generalizing prevC ps with
    | nil => rw [readAll,hps]; rfl
    | cons t ts ih =>
      obtain ⟨ps',h,hp,hne,ht⟩ := readNextToken_print t (printTokens ts) hpr
      have hte : printTokens (t::ts)=printToken t++0x20::printTokens ts := by
        rw [printTokens,flatMap_cons,append_assoc]
        rfl
      rw [readAll,hps,hte,h,Option.bind_some,if_neg hne,length_cons,Nat.add_right_comm _ 1,ih 0x20 (by decide) ps',ht]
      · rfl
      · rw [readNextToken,hp]
        rfl
  exact hr 0 (by decide) _ rfl
end VetWaf.Cfg
