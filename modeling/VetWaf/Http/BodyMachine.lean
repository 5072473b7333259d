import VetWaf.Http.RespBody
import VetWaf.Lib.Transducer

namespace VetWaf.Http.BodyMachine
open List Fragments Transducer Nat

inductive Phase where
  | start
  | size (acc cnt : Nat)
  | ext (k : Nat)
  | cr (k : Option Nat)
  | data (k : Nat)
  | dataEnd
  | done
  | dropped
  deriving DecidableEq

def lineEnd : Option Nat → Phase
  | none => .start
  | some 0 => .done
  | some (k+1) => .data (k+1)

def afterCr (k : Option Nat) (c : UInt8) : Phase := if c=lf then lineEnd k else .dropped
def eol (k : Option Nat) (c : UInt8) : Phase := if c=Http.cr then .cr k else afterCr k c
def inExt (k : Nat) (c : UInt8) : Phase := if c=semicolon ∨ c=equals ∨ isToken c then .ext k else eol (some k) c

def inSize (acc cnt : Nat) (c : UInt8) : Phase :=
  if isCrlf c || c=semicolon then if acc > longMax then .dropped else inExt acc c
  else if !isxdigit c then .dropped
  else if cnt ≥ 16 then .dropped
  else .size (hexShift acc c) (cnt+1)

def next : Phase → UInt8 → Phase
  | .start, c => if !isxdigit c then .dropped else inSize 0 0 c
  | .size acc cnt, c => inSize acc cnt c
  | .ext k, c => inExt k c
  | .cr k, c => afterCr k c
  | .data k, _ => if k≤1 then .dataEnd else .data (k-1)
  | .dataEnd, c => eol none c
  | .done, _ => .done
  | .dropped, _ => .dropped

def Phase.frames : Phase → Bool
  | .data _ => false
  | _ => true

def Phase.live : Phase → Bool
  | .done => false
  | .dropped => false
  | _ => true

def step (ph : Phase) (x : Pos×UInt8) : Phase×List (Pos×Bool) := (next ph x.2,if ph.live then [(x.1,ph.frames)] else [])
abbrev Trace := List (Pos×Bool)
def framed (t : Trace) : List Pos := (t.filter (·.2)).map Prod.fst
lemma framed_append (t u : Trace) : framed (t++u)=framed t++framed u := by simp [framed]

variable (xs : List (Pos×UInt8))
lemma feed_done : feed step .done xs=.done := feed_absorbing step (fun _ => rfl) xs
lemma emit_done : emit step .done xs=[] := emit_absorbing step (fun _ => rfl) xs
lemma feed_dropped : feed step .dropped xs=.dropped := feed_absorbing step (fun _ => rfl) xs

/-- The string holds the closed ranges `closed`. -/
inductive Rep : CutStr → List Seg → Option Pos → Prop where
  | plainOpen (d : Pos) : Rep (.plain ⟨d,0⟩) [] (some d)
  | plainClosed (s : Seg) (hs : 0<s.len) : Rep (.plain s) [s] none
  | compoundOpen (closed : List Seg) (d : Pos) (hc : ∀s∈closed,0<s.len) :
      Rep (.compound closed ⟨d,0⟩ (closed.map Seg.len).sum) closed (some d)
  | compoundClosed (chunks : List Seg) (last : Seg) (hc : ∀s∈chunks,0<s.len) (hl : 0<last.len) :
      Rep (.compound chunks last ((chunks++[last]).map Seg.len).sum) (chunks++[last]) none

variable {cut : CutStr} {closed : List Seg} {grow : Nat → Bool}
lemma Rep.curr_len_open {d : Pos} (h : Rep cut closed (some d)) : cut.curr.len=0 := by cases h <;> rfl

lemma Rep.curr_len_closed (h : Rep cut closed none) : cut.curr.len≠0 := by
  cases h with
  | plainClosed s hs => exact ne_of_gt hs
  | compoundClosed chunks last hc hl => exact ne_of_gt hl

lemma Rep.openChunk (grow : Nat → Bool) (p : Pos) (h : Rep cut closed none) :
    (∃n,grow n=false ∧ cut.openChunk grow p=none) ∨
      ∃cut',cut.openChunk grow p=some cut' ∧ Rep cut' closed (some p) := by
  cases h with
  | plainClosed s hs =>
    cases hg : grow 0 with
    | false => exact Or.inl ⟨0,hg,by simp [CutStr.openChunk,hg]⟩
    | true =>
      refine Or.inr ⟨_,if_pos hg,?_⟩
      have hr := Rep.compoundOpen [s] p (by simpa using hs)
      simpa using hr
  | compoundClosed chunks last hc hl =>
    cases hg : grow (chunks.length+1) with
    | false => exact Or.inl ⟨_,hg,by simp [CutStr.openChunk,hg]⟩
    | true =>
      refine Or.inr ⟨_,if_pos hg,?_⟩
      apply Rep.compoundOpen
      intro s hs
      obtain hs | hs := mem_append.1 hs
      · exact hc s hs
      · rw [mem_singleton.1 hs]
        exact hl

lemma Rep.reopen (p : Pos) {d : Pos} (h : Rep cut closed (some d)) : Rep (cut.reopen p) closed (some p) := by
  cases h with
  | plainOpen d => exact Rep.plainOpen p
  | compoundOpen closed d hc => exact Rep.compoundOpen closed p hc

variable {i p : Nat} {st : BodyState} {t : Trace} {b : RespBody} {ph : Phase}
lemma Rep.updlen {q : Nat} (h : Rep cut closed (some ⟨i,q⟩)) (hq : q<p) (hp : p<2^32) :
    ∃cut',cut.updlen ⟨i,p⟩=some cut' ∧ Rep cut' (closed++[⟨⟨i,q⟩,p-q⟩]) none := by
  have ht : Word.trunc 32 (p-q)=p-q := Word.trunc_of_lt (by omega)
  cases h with
  | plainOpen d =>
    refine ⟨.plain ⟨⟨i,q⟩,p-q⟩,?_,?_⟩
    · simp [CutStr.updlen,ht,le_of_lt hq]
    · exact Rep.plainClosed _ (by change 0<p-q; omega)
  | compoundOpen closed d hc =>
    have hr := Rep.compoundClosed closed ⟨⟨i,q⟩,p-q⟩ hc (by change 0<p-q; omega)
    refine ⟨_,?_,hr⟩
    simp [CutStr.updlen,ht,hq]

lemma Rep.pieces (h : Rep cut closed none) :
    cut.pieces=closed ∧ cut.len=(closed.map Seg.len).sum ∧ ∀s∈closed,0<s.len := by
  cases h with
  | plainClosed s hs => exact ⟨rfl,by simp [CutStr.len],by simpa using hs⟩
  | compoundClosed chunks last hc hl =>
    refine ⟨rfl,rfl,?_⟩
    intro s hs
    obtain hs | hs := mem_append.1 hs
    · exact hc s hs
    · rw [mem_singleton.1 hs]
      exact hl

/-- `parser->to_read` while the line in question is read. -/
def toReadOf : Option Nat → Int
  | none => -1
  | some k => k

/-- About to run the code of a label, the parser is in this phase. -/
inductive AtPhase : BodyState → RespBody → Phase → Prop where
  | init {b : RespBody} (ht : b.toRead = -1) (ha : b.acc=0) (hc : b.cnt=0) : AtPhase .bodyParseInit b .start
  | chunked {b : RespBody} (ht : b.toRead = -1) (ha : b.acc=0) (hc : b.cnt=0) : AtPhase .bodyChunked b .start
  | chunkLen {b : RespBody} : AtPhase .bodyChunkLen b (.size b.acc b.cnt)
  | chunkExt {b : RespBody} {k : Nat} (ht : b.toRead=k) (ha : b.acc=0) (hc : b.cnt=0) : AtPhase .bodyChunkExt b (.ext k)
  | bodyCR {b : RespBody} {k : Option Nat} (ht : b.toRead=toReadOf k) (ha : b.acc=0)
      (hc : b.cnt=0) : AtPhase .bodyCR b (.cr k)
  | descEnd {b : RespBody} {k : Nat} (hk : 0<k) (ht : b.toRead=k) (ha : b.acc=0)
      (hc : b.cnt=0) : AtPhase .bodyDescEnd b (.data k)
  | readData {b : RespBody} {k : Nat} (hk : 0<k) (ht : b.toRead=k) (ha : b.acc=0)
      (hc : b.cnt=0) : AtPhase .bodyReadData b (.data k)
  | dataEnd {b : RespBody} (ht : b.toRead = -1) (ha : b.acc=0) (hc : b.cnt=0) : AtPhase .chunkDataEnd b .dataEnd

def inFraming : BodyState → Bool
  | .bodyReadData => false
  | .chunkDataEnd => false
  | _ => true

/-- The framing bytes of the trace are those of the closed ranges and of the range from where the
current one was opened, at `p` or before, up to `p`. -/
def OpenAt (cut : CutStr) (i p : Nat) (t : Trace) : Prop :=
  ∃closed q,Rep cut closed (some ⟨i,q⟩) ∧ q≤p ∧ cover closed++span i q p=framed t

def ClosedAt (cut : CutStr) (t : Trace) : Prop := ∃closed o,Rep cut closed o ∧ cover closed=framed t

/-- The same for the code of a label. -/
def Cursor (st : BodyState) (cut : CutStr) (i p : Nat) (t : Trace) : Prop :=
  if inFraming st then
    ∃closed q,Rep cut closed (some ⟨i,q⟩) ∧ (q<p ∨ (q=0 ∧ p=0)) ∧ cover closed++span i q p=framed t
  else ClosedAt cut t

lemma Cursor.openAt (hst : inFraming st=true) (h : Cursor st cut i p t) : OpenAt cut i p t := by
  rw [Cursor,if_pos hst] at h
  obtain ⟨closed,q,hr,hq,hc⟩ := h
  exact ⟨closed,q,hr,by omega,hc⟩

lemma Cursor.closedAt (hst : inFraming st=false) (h : Cursor st cut i p t) : ClosedAt cut t := by
  rw [Cursor,hst,if_neg Bool.false_ne_true] at h
  exact h

/-- The trace of `n` bytes read from offset `p` on, all of them framing or none. -/
def marks (i p n : Nat) (framing : Bool) : Trace := (span i p (p+n)).map (·,framing)

@[simp] lemma length_marks (i p n : Nat) (framing : Bool) : (marks i p n framing).length=n := by simp [marks]
lemma marks_zero (i p : Nat) (framing : Bool) : marks i p 0 framing=[] := by simp [marks]

lemma marks_succ (i p n : Nat) (framing : Bool) : marks i p (n+1) framing=(⟨i,p⟩,framing)::marks i (p+1) n framing := by
  rw [marks,span_cons,map_cons,marks]

lemma framed_marks_true (i p n : Nat) : framed (marks i p n true)=span i p (p+n) := by
  have ha : ∀m∈(span i p (p+n)).map (·,true),m.2=true := by simp
  rw [framed,marks,filter_eq_self.2 ha,map_map]
  exact map_id _

lemma framed_marks_false (i p n : Nat) : framed (marks i p n false)=[] := by simp [framed,marks]

lemma OpenAt.read (n : Nat) (h : OpenAt cut i p t) : ∃closed q,Rep cut closed (some ⟨i,q⟩) ∧ q≤p ∧
      cover closed++span i q (p+n)=framed (t++marks i p n true) := by
  obtain ⟨closed,q,hr,hq,hc⟩ := h
  refine ⟨closed,q,hr,hq,?_⟩
  have hs := span_append i q (p-q) n
  rw [Nat.add_sub_cancel' hq] at hs
  rw [← hs,← append_assoc,hc,framed_append,framed_marks_true]

lemma OpenAt.cursor_add {n : Nat} (hst : inFraming st=true)
    (hn : 0<n) (h : OpenAt cut i p t) : Cursor st cut i (p+n) (t++marks i p n true) := by
  obtain ⟨closed,q,hr,hq,hc⟩ := h.read n
  rw [Cursor,if_pos hst]
  exact ⟨closed,q,hr,Or.inl (by omega),hc⟩

/-- What the end of a label's code says about the machine. -/
def LabelOk (grow : Nat → Bool) (st : BodyState) (i p : Nat) (src : Bytes) (ph : Phase) (t : Trace) : LabelEnd → Prop
  | .move b nxt n fixup =>
    n ≤ src.length ∧ (n=0 → st=.bodyChunkLen ∧ nxt=.bodyChunkExt) ∧ fixup=inFraming nxt ∧
      ∃ph' out,AtPhase nxt b ph' ∧ out.length=n ∧ Cursor nxt b.cut i (p+n) (t++out) ∧
        feed step ph (locate i p src)=feed step ph' (locate i (p+n) (src.drop n)) ∧
        emit step ph (locate i p src)=out++emit step ph' (locate i (p+n) (src.drop n))
  | .drop => feed step ph (locate i p src)=.dropped ∨ ∃n,grow n=false
  | .parsed b n =>
    ∃out closed,n=p+out.length ∧ feed step ph (locate i p src)=.done ∧
      emit step ph (locate i p src)=out ∧ Rep b.cut closed none ∧ cover closed=framed (t++out)
  | .bug => False

section
variable {st : BodyState} {i p : Nat} {c : UInt8} {src : Bytes} {ph : Phase} {t : Trace} {b : RespBody}
lemma labelOk_move_one {nxt : BodyState} {ph' : Phase} (hl : ph.live=true)
    (hf : ph.frames=true) (hn : next ph c=ph') (ha : AtPhase nxt b ph')
    (hin : inFraming nxt=true) (ho : OpenAt b.cut i p t) : LabelOk grow st i p (c::src) ph t (.move b nxt 1 true) := by
  refine ⟨by simp,by omega,hin.symm,ph',marks i p 1 true,ha,length_marks i p 1 true,ho.cursor_add hin one_pos,?_,?_⟩
  · rw [locate,feed_cons,step,hn]
    rfl
  · rw [locate,emit_cons,step,hn,if_pos hl,hf,marks_succ,marks_zero]
    rfl

lemma feed_of_next_dropped (hn : next ph c=.dropped) : feed step ph (locate i p (c::src))=.dropped := by
  rw [locate,feed_cons,step,hn,feed_dropped]

lemma labelOk_drop (hn : next ph c=.dropped) :
    LabelOk grow st i p (c::src) ph t .drop := Or.inl (feed_of_next_dropped hn)

lemma bodyCR_ok {k : Option Nat} (hp : p+1<2^32) (hli : ph.live=true)
    (hf : ph.frames=true) (hn : next ph c=afterCr k c) (ht : b.toRead=toReadOf k)
    (ha : b.acc=0) (hc : b.cnt=0) (ho : OpenAt b.cut i p t) :
    LabelOk grow st i p (c::src) ph t (Http.bodyCR b ⟨i,p⟩ c) := by
  rw [Http.bodyCR]
  by_cases hl : c=lf
  · rw [if_neg (not_not_intro hl)]
    rw [afterCr,if_pos hl] at hn
    cases k with
    | none =>
      change b.toRead = -1 at ht
      rw [if_pos ht]
      exact labelOk_move_one hli hf hn (AtPhase.chunked ht ha hc) rfl ho
    | some k =>
      have hne : b.toRead ≠ -1 := by rw [ht,toReadOf]; omega
      rw [if_neg hne]
      cases k with
      | zero =>
        have hnp : ¬ b.toRead > 0 := by rw [ht]; decide
        rw [if_neg hnp]
        -- the last-chunk line: the current range is closed for good
        obtain ⟨closed,q,hr,hq,hco⟩ := ho.read 1
        obtain ⟨cut',hu,hr'⟩ := hr.updlen (lt_succ_of_le hq) hp
        rw [hu]
        refine ⟨marks i p 1 true,_,by rw [length_marks],?_,?_,hr',?_⟩
        · rw [locate,feed_cons,step,hn]
          exact feed_done _
        · rw [locate,emit_cons,step,hn,if_pos hli,hf,marks_succ,marks_zero]
          exact congrArg _ (emit_done _)
        · rw [cover_concat,← hco,Seg.cells]
          congr 2
          change q+(p+1-q)=p+1
          omega
      | succ k =>
        have hpo : b.toRead > 0 := by rw [ht,toReadOf]; omega
        rw [if_pos hpo]
        exact labelOk_move_one hli hf hn (AtPhase.descEnd k.succ_pos ht ha hc) rfl ho
  · rw [if_pos hl]
    rw [afterCr,if_neg hl] at hn
    exact labelOk_drop hn

lemma bodyEoL_ok {k : Option Nat} (hp : p+1<2^32) (hl : ph.live=true)
    (hf : ph.frames=true) (hn : next ph c=eol k c) (ht : b.toRead=toReadOf k)
    (ha : b.acc=0) (hc : b.cnt=0) (ho : OpenAt b.cut i p t) :
    LabelOk grow st i p (c::src) ph t (bodyEoL b ⟨i,p⟩ c) := by
  rw [bodyEoL]
  by_cases hcr : c=Http.cr
  · rw [if_pos hcr]
    rw [eol,if_pos hcr] at hn
    exact labelOk_move_one hl hf hn (AtPhase.bodyCR ht ha hc) rfl ho
  · rw [if_neg hcr]
    rw [eol,if_neg hcr] at hn
    exact bodyCR_ok hp hl hf hn ht ha hc ho

variable {k : Nat}
lemma bodyChunkExt_ok (hp : p+1<2^32) (ht : b.toRead=k) (ha : b.acc=0) (hc : b.cnt=0) (ho : OpenAt b.cut i p t) :
    LabelOk grow st i p (c::src) (.ext k) t (bodyChunkExt b ⟨i,p⟩ c) := by
  rw [bodyChunkExt]
  by_cases he : c=semicolon ∨ c=equals ∨ isToken c
  · rw [if_pos he]
    have hn : next (.ext k) c=.ext k := by rw [next,inExt,if_pos he]
    exact labelOk_move_one rfl rfl hn (AtPhase.chunkExt ht ha hc) rfl ho
  · rw [if_neg he]
    have hn : next (.ext k) c=eol (some k) c := by rw [next,inExt,if_neg he]
    exact bodyEoL_ok hp rfl rfl hn ht ha hc ho

lemma chunkDataEnd_ok (hp : p+1<2^32) (ht : b.toRead = -1) (ha : b.acc=0) (hc : b.cnt=0)
    (hcl : ClosedAt b.cut t) : LabelOk grow st i p (c::src) .dataEnd t (chunkDataEnd grow b ⟨i,p⟩ c) := by
  rw [chunkDataEnd]
  obtain ⟨closed,o,hr,hco⟩ := hcl
  have ho {cut' : CutStr} (hr' : Rep cut' closed (some ⟨i,p⟩)) : OpenAt cut' i p t :=
    ⟨closed,p,hr',le_refl p,by rw [span_self,append_nil,hco]⟩
  cases o with
  | none =>
    rw [if_pos hr.curr_len_closed]
    obtain ⟨n,hg,hn⟩ | ⟨cut',hs,hr'⟩ := hr.openChunk grow ⟨i,p⟩
    · rw [hn]
      exact Or.inr ⟨n,hg⟩
    · rw [hs]
      exact bodyEoL_ok (b := {b with cut:=cut'}) (k := none) hp rfl rfl rfl ht ha hc (ho hr')
  | some d =>
    -- an empty range may point before the data, or into an earlier fragment
    rw [if_neg (not_not_intro hr.curr_len_open)]
    exact bodyEoL_ok (b := {b with cut:=b.cut.reopen ⟨i,p⟩}) (k := none) hp rfl rfl rfl ht ha hc
      (ho (hr.reopen ⟨i,p⟩))

lemma parseIntHex_spec (src : Bytes) (acc cnt n p : Nat) : match parseIntHex src acc cnt n with
    | .postpone acc' cnt' => feed step (.size acc cnt) (locate i p src)=.size acc' cnt' ∧
        emit step (.size acc cnt) (locate i p src)=marks i p src.length true
    | .badlen => feed step (.size acc cnt) (locate i p src)=.dropped
    | .neq => feed step (.size acc cnt) (locate i p src)=.dropped
    | .done m acc' => ∃j,m=n+j ∧ j<src.length ∧ (j=0 → ∀c∈src.head?,isxdigit c=false) ∧
        feed step (.size acc cnt) (locate i p src)=feed step (.ext acc') (locate i (p+j) (src.drop j)) ∧
        emit step (.size acc cnt) (locate i p src) =
          marks i p j true++emit step (.ext acc') (locate i (p+j) (src.drop j)) := by
  induction src generalizing acc cnt n p with
  | nil => simp [parseIntHex,locate,marks_zero]
  | cons c src ih =>
    rw [parseIntHex]
    by_cases hen : (isCrlf c || c=semicolon)=true
    · rw [if_pos hen]
      by_cases hb : acc > longMax
      · rw [if_pos hb]
        have hn : next (.size acc cnt) c=.dropped := by rw [next,inSize,if_pos hen,if_pos hb]
        exact feed_of_next_dropped hn
      · rw [if_neg hb]
        have hn : next (.size acc cnt) c=next (.ext acc) c := by rw [next,inSize,if_pos hen,if_neg hb,next]
        refine ⟨0,rfl,by simp,?_,?_,?_⟩
        · intro _ c' hc'
          cases hc'
          cases hx : isxdigit c with
          | false => rfl
          | true => rw [not_crlf_of_isxdigit c hx] at hen; cases hen
        · rw [add_zero,drop_zero,locate,feed_cons,feed_cons,step,step,hn]
        · rw [add_zero,drop_zero,locate,emit_cons,emit_cons,step,step,hn,marks_zero]
          rfl
    · rw [if_neg hen]
      by_cases hh : isxdigit c=true
      · rw [if_neg (by simp [hh])]
        by_cases hc : cnt ≥ 16
        · rw [if_pos hc]
          have hn : next (.size acc cnt) c=.dropped := by rw [next,inSize,if_neg hen,if_neg (by simp [hh]),if_pos hc]
          exact feed_of_next_dropped hn
        · rw [if_neg hc]
          have hn : next (.size acc cnt) c=.size (hexShift acc c) (cnt+1) := by
            rw [next,inSize,if_neg hen,if_neg (by simp [hh]),if_neg hc]
          have hfe : feed step (.size acc cnt) (locate i p (c::src)) =
              feed step (.size (hexShift acc c) (cnt+1)) (locate i (p+1) src) := by
            rw [locate,feed_cons,step,hn]
          have hem : emit step (.size acc cnt) (locate i p (c::src))=(⟨i,p⟩,true) ::
              emit step (.size (hexShift acc c) (cnt+1)) (locate i (p+1) src) := by
            rw [locate,emit_cons,step,hn]
            rfl
          have hre := ih (hexShift acc c) (cnt+1) (n+1) (p+1)
          rw [hfe,hem]
          cases hr : parseIntHex src (hexShift acc c) (cnt+1) (n+1) with
          | postpone acc' cnt' =>
            rw [hr] at hre
            exact ⟨hre.1,by rw [hre.2,length_cons,marks_succ]⟩
          | badlen =>
            rw [hr] at hre
            exact hre
          | neq =>
            rw [hr] at hre
            exact hre
          | done m acc' =>
            rw [hr] at hre
            obtain ⟨j,hm,hj,-,hf,he⟩ := hre
            refine ⟨j+1,by omega,by simpa using hj,by omega,?_,?_⟩
            · rw [hf,drop_succ_cons,add_right_comm,add_assoc]
            · rw [he,marks_succ,cons_append,drop_succ_cons,add_right_comm,add_assoc]
      · rw [if_pos (by simp [hh])]
        have hn : next (.size acc cnt) c=.dropped := by rw [next,inSize,if_neg hen,if_pos (by simp [hh])]
        exact feed_of_next_dropped hn

lemma bodyChunkLen_ok (hst : st=.bodyChunkLen ∨ isxdigit c=true) (hc : Cursor .bodyChunkLen b.cut i p t) :
    LabelOk grow st i p (c::src) (.size b.acc b.cnt) t (bodyChunkLen b (c::src)) := by
  rw [bodyChunkLen]
  have hs := parseIntHex_spec (i := i) (c::src) b.acc b.cnt 0 p
  cases hr : parseIntHex (c::src) b.acc b.cnt 0 with
  | postpone acc cnt =>
    rw [hr] at hs
    refine ⟨le_rfl,by simp,rfl,.size acc cnt,marks i p (c::src).length true,
      AtPhase.chunkLen,length_marks _ _ _ _,?_,?_,?_⟩
    · exact (hc.openAt rfl).cursor_add rfl (by simp)
    · rw [drop_length]
      exact hs.1
    · rw [drop_length]
      exact hs.2.trans (append_nil _).symm
  | badlen =>
    rw [hr] at hs
    exact Or.inl hs
  | neq =>
    rw [hr] at hs
    exact Or.inl hs
  | done n acc =>
    rw [hr] at hs
    obtain ⟨j,hm,hj,h0,hf,he⟩ := hs
    rw [zero_add] at hm
    subst hm
    refine ⟨le_of_lt hj,?_,rfl,.ext acc,marks i p n true,AtPhase.chunkExt rfl rfl rfl,length_marks _ _ _ _,?_,hf,he⟩
    · intro hn
      obtain hst | hh := hst
      · exact ⟨hst,rfl⟩
      · rw [h0 hn c rfl] at hh
        cases hh
    · cases n with
      | zero =>
        rw [marks_zero,append_nil]
        exact hc
      | succ n => exact (hc.openAt rfl).cursor_add rfl n.succ_pos

lemma LabelOk.congr {ph' : Phase} {e : LabelEnd} (hf : feed step ph (locate i p src)=feed step ph' (locate i p src))
    (he : emit step ph (locate i p src)=emit step ph' (locate i p src))
    (h : LabelOk grow st i p src ph' t e) : LabelOk grow st i p src ph t e := by
  cases e with
  | bug => exact h
  | _ => simpa only [LabelOk,hf,he] using h

lemma bodyChunked_ok (ha : b.acc=0) (hc : b.cnt=0) (hcu : Cursor .bodyChunked b.cut i p t) :
    LabelOk grow st i p (c::src) .start t (bodyChunked b c (c::src)) := by
  rw [bodyChunked]
  by_cases hh : isxdigit c=true
  · rw [if_neg (by simp [hh])]
    have hn : next .start c=next (.size b.acc b.cnt) c := by rw [next,if_neg (by simp [hh]),next,ha,hc]
    have hf : feed step .start (locate i p (c::src))=feed step (.size b.acc b.cnt) (locate i p (c::src)) := by
      rw [locate,feed_cons,feed_cons,step,step,hn]
    have he : emit step .start (locate i p (c::src))=emit step (.size b.acc b.cnt) (locate i p (c::src)) := by
      rw [locate,emit_cons,emit_cons,step,step,hn]
      rfl
    exact LabelOk.congr hf he (bodyChunkLen_ok (Or.inr hh) hcu)
  · rw [if_pos (by simp [hh])]
    exact labelOk_drop (by rw [next,if_pos (by simp [hh])])

/-- The phase once `n` of `k` data bytes are read. -/
def afterData (k n : Nat) : Phase := if n<k then .data (k-n) else .dataEnd

lemma feed_data {n : Nat} (src : Bytes) (p : Nat) (hk : 0<k) (hn : n≤k) (hl : n ≤ src.length) :
    feed step (.data k) (locate i p src)=feed step (afterData k n) (locate i (p+n) (src.drop n)) ∧
      emit step (.data k) (locate i p src) =
        marks i p n false++emit step (afterData k n) (locate i (p+n) (src.drop n)) := by
  induction n generalizing k src p with
  | zero =>
    rw [afterData,if_pos hk,marks_zero]
    exact ⟨rfl,rfl⟩
  | succ n ih =>
    cases src with
    | nil => simp at hl
    | cons c src =>
      rw [locate,feed_cons,emit_cons,step,marks_succ,drop_succ_cons,← add_assoc,add_right_comm p n 1]
      by_cases ho : k=1
      · have h0 : n=0 := by omega
        subst ho h0
        rw [marks_zero]
        exact ⟨rfl,rfl⟩
      · have hnx : next (.data k) c=.data (k-1) := by rw [next,if_neg (by omega)]
        have ha : afterData k (n+1)=afterData (k-1) n := by
          have hs : k-(n+1)=k-1-n := by omega
          rw [afterData,afterData,hs]
          congr 1
          exact propext (by omega)
        have hr := ih (k := k-1) src (p+1) (by omega) (by omega) (by simpa using hl)
        rw [hnx,ha,hr.1,hr.2]
        exact ⟨rfl,rfl⟩

lemma bodyReadData_ok (hk : 0<k) (ht : b.toRead=k) (ha : b.acc=0) (hc : b.cnt=0) (hcl : ClosedAt b.cut t) :
    LabelOk grow st i p (c::src) (.data k) t (bodyReadData true b ⟨i,p⟩ (c::src)) := by
  have hp : 0<(c::src).length := by simp
  generalize (c::src)=data at hp
  rw [bodyReadData,if_neg (by omega)]
  obtain ⟨n,hn⟩ : ∃n,n=min k data.length := ⟨_,rfl⟩
  have hs : min (k : Int).toNat data.length=n := by rw [Int.toNat_natCast,hn]
  obtain ⟨hf,he⟩ := feed_data (i := i) data p hk (show n≤k by omega) (by omega)
  have hco : ClosedAt b.cut (t++marks i p n false) := by
    obtain ⟨closed,o,hr,hco⟩ := hcl
    exact ⟨closed,o,hr,by rw [framed_append,framed_marks_false,append_nil,hco]⟩
  simp only [ht,hs]
  by_cases hl : (k : Int)-n≠0
  · rw [if_pos hl]
    rw [afterData,if_pos (by omega)] at hf he
    exact ⟨by omega,by omega,rfl,.data (k-n),marks i p n false,
      AtPhase.readData (by omega) (by change (k : Int)-n=(k-n : Nat); omega) ha hc,length_marks _ _ _ _,hco,hf,he⟩
  · rw [if_neg hl,if_pos trivial]
    rw [afterData,if_neg (by omega)] at hf he
    exact ⟨by omega,by omega,rfl,.dataEnd,marks i p n false,AtPhase.dataEnd rfl ha hc,length_marks _ _ _ _,hco,hf,he⟩

lemma bodyDescEnd_ok (hp : p<2^32) (hk : 0<k) (ht : b.toRead=k) (ha : b.acc=0)
    (hc : b.cnt=0) (hcu : Cursor .bodyDescEnd b.cut i p t) :
    LabelOk grow st i p (c::src) (.data k) t (bodyDescEnd true b ⟨i,p⟩ (c::src)) := by
  rw [bodyDescEnd]
  rw [Cursor,if_pos (by rfl)] at hcu
  obtain ⟨closed,q,hr,hq,hco⟩ := hcu
  by_cases ho : p > 0
  · rw [if_pos ho]
    obtain ⟨cut',hu,hr'⟩ := hr.updlen (p := p) (by omega) hp
    rw [hu]
    refine bodyReadData_ok (b := {b with cut:=cut'}) hk ht ha hc ⟨_,none,hr',?_⟩
    rw [cover_concat,← hco,Seg.cells]
    congr 2
    change q+(p-q)=p
    omega
  · -- the size line ended with the fragment before: its range is closed already
    rw [if_neg ho]
    refine bodyReadData_ok hk ht ha hc ⟨closed,_,hr,?_⟩
    have hqp : q=p := by omega
    rw [← hco,hqp,span_self,append_nil]

lemma label_ok (hp : p+1<2^32) (hat : AtPhase st b ph) (hcu : Cursor st b.cut i p t) :
    LabelOk grow st i p (c::src) ph t (label grow true b ⟨i,p⟩ st c (c::src)) := by
  cases hat with
  | init ht ha hc =>
    rw [label,bodyParseInit,if_pos ht]
    exact bodyChunked_ok ha hc hcu
  | chunked ht ha hc => exact bodyChunked_ok ha hc hcu
  | chunkLen => exact bodyChunkLen_ok (Or.inl rfl) hcu
  | chunkExt ht ha hc => exact bodyChunkExt_ok hp ht ha hc (hcu.openAt rfl)
  | bodyCR ht ha hc => exact bodyCR_ok hp rfl rfl rfl ht ha hc (hcu.openAt rfl)
  | descEnd hk ht ha hc => exact bodyDescEnd_ok (by omega) hk ht ha hc hcu
  | readData hk ht ha hc => exact bodyReadData_ok hk ht ha hc (hcu.closedAt rfl)
  | dataEnd ht ha hc => exact chunkDataEnd_ok hp ht ha hc (hcu.closedAt rfl)

end

/-- Before fragment `i`. -/
def Parked (st : BodyState) (cut : CutStr) (i : Nat) (t : Trace) : Prop :=
  ∃closed o,Rep cut closed o ∧ cover closed=framed t ∧ (inFraming st=true → o=none ∨ o=some ⟨i,0⟩)

def CallOk (grow : Nat → Bool) (i p : Nat) (src : Bytes) (ph : Phase) (t : Trace) : BodyRc×RespBody → Prop
  | (.postpone,b) =>
    AtPhase b.iSt b (feed step ph (locate i p src)) ∧ Parked b.iSt b.cut (i+1) (t++emit step ph (locate i p src))
  | (.drop,_) => feed step ph (locate i p src)=.dropped ∨ ∃n,grow n=false
  | (.parsed n,b) =>
    feed step ph (locate i p src)=.done ∧ n=p+(emit step ph (locate i p src)).length ∧
      ∃closed,Rep b.cut closed none ∧ cover closed=framed (t++emit step ph (locate i p src))

lemma AtPhase.congr {b' : RespBody} (h : AtPhase st b ph)
    (ht : b'.toRead=b.toRead) (ha : b'.acc=b.acc) (hc : b'.cnt=b.cnt) : AtPhase st b' ph := by
  cases h with
  | init h1 h2 h3 => exact .init (ht.trans h1) (ha.trans h2) (hc.trans h3)
  | chunked h1 h2 h3 => exact .chunked (ht.trans h1) (ha.trans h2) (hc.trans h3)
  | chunkLen => rw [← ha,← hc]; exact .chunkLen
  | chunkExt h1 h2 h3 => exact .chunkExt (ht.trans h1) (ha.trans h2) (hc.trans h3)
  | bodyCR h1 h2 h3 => exact .bodyCR (ht.trans h1) (ha.trans h2) (hc.trans h3)
  | descEnd hk h1 h2 h3 => exact .descEnd hk (ht.trans h1) (ha.trans h2) (hc.trans h3)
  | readData hk h1 h2 h3 => exact .readData hk (ht.trans h1) (ha.trans h2) (hc.trans h3)
  | dataEnd h1 h2 h3 => exact .dataEnd (ht.trans h1) (ha.trans h2) (hc.trans h3)

lemma AtPhase.live (h : AtPhase st b ph) : ph.live=true := by cases h <;> rfl

lemma length_emit_of_live {xs : List (Pos×UInt8)}
    (h : (feed step ph xs).live=true) : (emit step ph xs).length=xs.length := by
  induction xs generalizing ph with
  | nil => rfl
  | cons x xs ih =>
    have hl : ph.live=true := by
      cases ph with
      | done => rw [feed_done] at h; exact h
      | dropped => rw [feed_dropped] at h; exact h
      | _ => rfl
    rw [emit_cons,length_append,ih h,step,if_pos hl,length_singleton,length_cons,add_comm]

lemma suspend_ok (hp : p<2^32) (hpo : 0<p) (ha : AtPhase st b ph) (hc : Cursor st b.cut i p t) :
    ∃b',suspend b ⟨i,p⟩ st (inFraming st)=some (.postpone,b') ∧ AtPhase b'.iSt b' ph ∧
      Parked b'.iSt b'.cut (i+1) t := by
  rw [suspend]
  cases hin : inFraming st with
  | true =>
    rw [Cursor,if_pos hin] at hc
    obtain ⟨closed,q,hr,hq,hco⟩ := hc
    obtain ⟨cut',hu,hr'⟩ := hr.updlen (p := p) (by omega) hp
    refine ⟨_,by rw [if_pos rfl,hu]; rfl,?_,_,none,hr',?_,fun _ => Or.inl rfl⟩
    · exact ha.congr rfl rfl rfl
    rw [cover_concat,← hco,Seg.cells]
    congr 2
    change q+(p-q)=p
    omega
  | false =>
    obtain ⟨closed,o,hr,hco⟩ := hc.closedAt hin
    refine ⟨_,if_neg Bool.false_ne_true,?_,closed,o,hr,hco,?_⟩
    · exact ha.congr rfl rfl rfl
    intro hin'
    change inFraming st=true at hin'
    rw [hin] at hin'
    cases hin'

lemma bodyLoop_follows (fuel : Nat) {src : Bytes} (hne : src≠[])
    (hfl : 2*src.length+(if st=.bodyChunkLen then 1 else 0)≤fuel)
    (hp : p+src.length<2^32) (ha : AtPhase st b ph) (hc : Cursor st b.cut i p t) :
    ∃r,bodyLoop grow true i fuel st b p src=some r ∧ CallOk grow i p src ph t r := by
  induction fuel generalizing st b ph p t src with
  | zero =>
    have := length_pos_iff.2 hne
    omega
  | succ fuel ih =>
    cases src with
    | nil => exact absurd rfl hne
    | cons c src =>
      rw [length_cons] at hfl hp
      have hok : LabelOk grow st i p (c::src) ph t (label grow true b ⟨i,p⟩ st c (c::src)) := label_ok (by omega) ha hc
      rw [bodyLoop]
      cases hen : label grow true b ⟨i,p⟩ st c (c::src) with
      | bug =>
        rw [hen] at hok
        exact hok.elim
      | drop =>
        rw [hen] at hok
        exact ⟨_,rfl,hok⟩
      | parsed b' n =>
        rw [hen] at hok
        obtain ⟨out,closed,hn,hf,he,hr,hco⟩ := hok
        exact ⟨_,rfl,hf,by rw [he]; exact hn,closed,hr,by rw [he]; exact hco⟩
      | move b' nxt n fixup =>
        rw [hen] at hok
        obtain ⟨hn,h0,hfi,ph',out,ha',hl,hc',hf,he⟩ := hok
        rw [length_cons] at hn
        by_cases hfu : src.length+1≤n
        · have heq : n=src.length+1 := le_antisymm hn hfu
          obtain ⟨b'',hs,ha'',hpa⟩ := suspend_ok (by omega) (by omega) ha' hc'
          have hdp : (c::src).drop n=[] := drop_eq_nil_of_le (by simp [heq])
          rw [hdp,locate,feed_nil] at hf
          rw [hdp,locate,emit_nil,append_nil] at he
          simp only [if_pos hfu,hfi]
          refine ⟨_,hs,?_,?_⟩
          · rw [hf]
            exact ha''
          · rw [he]
            exact hpa
        · simp only [if_neg hfu]
          have hd : ((c::src).drop n).length=src.length+1-n := by simp
          have hdn : (c::src).drop n≠[] := by
            intro hni
            rw [hni,length_nil] at hd
            omega
          have hf' : 2*((c::src).drop n).length+(if nxt=.bodyChunkLen then 1 else 0)≤fuel := by
            rw [hd]
            obtain hn0 | hnp := Nat.eq_zero_or_pos n
            · obtain ⟨h1,h2⟩ := h0 hn0
              rw [if_pos h1] at hfl
              rw [h2,if_neg (by decide)]
              omega
            · split_ifs <;> omega
          obtain ⟨r,hru,hca⟩ := ih hdn hf' (by omega) ha' hc'
          refine ⟨r,hru,?_⟩
          -- what the rest of the loop says, put behind the bytes just read
          obtain ⟨rc,b''⟩ := r
          cases rc with
          | postpone =>
            rw [CallOk,hf,he,← append_assoc]
            exact hca
          | drop =>
            rw [CallOk,hf]
            exact hca
          | parsed m =>
            obtain ⟨hdo,hm,hcu⟩ := hca
            rw [CallOk,hf,he,← append_assoc]
            refine ⟨hdo,?_,hcu⟩
            rw [hm,length_append,hl,add_assoc]

lemma respParseBody_follows {data : Bytes} (hne : data≠[]) (hl : data.length<2^32) (ha : AtPhase b.iSt b ph)
    (hp : Parked b.iSt b.cut i t) : ∃r,respParseBody grow true i data b=some r ∧ CallOk grow i 0 data ph t r := by
  have hf : 2*data.length+(if b.iSt=.bodyChunkLen then 1 else 0)≤2*data.length+1 := by split_ifs <;> omega
  have hc {cut : CutStr} {closed : List Seg} {d : Pos} (hr : Rep cut closed (some d))
      (hco : cover closed=framed t) (hd : inFraming b.iSt=true → d=⟨i,0⟩) : Cursor b.iSt cut i 0 t := by
    rw [Cursor]
    split_ifs with hin
    · rw [hd hin] at hr
      exact ⟨closed,0,hr,Or.inr ⟨rfl,rfl⟩,by rw [span_self,append_nil,hco]⟩
    · exact ⟨closed,_,hr,hco⟩
  rw [respParseBody]
  obtain ⟨closed,o,hr,hco,ho⟩ := hp
  cases o with
  | none =>
    rw [if_pos hr.curr_len_closed]
    obtain ⟨n,hg,hn⟩ | ⟨cut',hs,hr'⟩ := hr.openChunk grow ⟨i,0⟩
    · rw [hn]
      exact ⟨_,rfl,Or.inr ⟨n,hg⟩⟩
    · rw [hs]
      exact bodyLoop_follows _ hne hf (by omega) (ha.congr rfl rfl rfl) (hc hr' hco fun _ => rfl)
  | some d =>
    rw [if_neg (not_not_intro hr.curr_len_open)]
    refine bodyLoop_follows _ hne hf (by omega) ha (hc hr hco ?_)
    intro hin
    obtain h | h := ho hin
    · cases h
    · exact Option.some.inj h

lemma parseFragments_follows (grow : Nat → Bool) {fs : List Bytes}
    (hne : ∀f∈fs,f≠[]) (hl : ∀f∈fs,f.length<2^32) (hat : AtPhase b.iSt b ph) (hp : Parked b.iSt b.cut i t) :
    ∃k rc b',parseFragments grow true i b fs=some (k,rc,b') ∧ match rc with
      | .postpone => ∃ph',ph'.live=true ∧ feed step ph (located i fs)=ph'
      | .drop => feed step ph (located i fs)=.dropped ∨ ∃n,grow n=false
      | .parsed n => feed step ph (located i fs)=.done ∧
          i≤k ∧ (fs.take (k-i)).flatten.length+n=(emit step ph (located i fs)).length ∧ ∃closed,Rep b'.cut closed none ∧
            cover closed=framed (t++emit step ph (located i fs)) := by
  induction fs generalizing i b ph t with
  | nil => exact ⟨i,.postpone,b,rfl,ph,hat.live,rfl⟩
  | cons f fs ih =>
    obtain ⟨⟨rc,b'⟩,hca,hok⟩ : ∃r,respParseBody grow true i f b=some r ∧ CallOk grow i 0 f ph t r :=
      respParseBody_follows (hne f (.head _)) (hl f (.head _)) hat hp
    rw [parseFragments,hca,located,feed_append,emit_append]
    cases rc with
    | drop =>
      refine ⟨i,.drop,b',rfl,?_⟩
      obtain hdp | hgr := hok
      · left
        rw [hdp,feed_dropped]
      · exact Or.inr hgr
    | parsed n =>
      obtain ⟨hd,hn,closed,hr,hc⟩ := hok
      refine ⟨i,.parsed n,b',rfl,?_,le_refl i,?_,closed,hr,?_⟩
      · rw [hd,feed_done]
      · rw [hd,emit_done,append_nil,Nat.sub_self,hn]
        simp
      · rw [hd,emit_done,append_nil,hc]
    | postpone =>
      obtain ⟨ha',hp'⟩ := hok
      obtain ⟨k,rc,b'',hru,hre⟩ := ih (fun g hg => hne g (mem_cons_of_mem f hg))
        (fun g hg => hl g (mem_cons_of_mem f hg)) ha' hp'
      refine ⟨k,rc,b'',hru,?_⟩
      cases rc with
      | postpone => exact hre
      | drop => exact hre
      | parsed n =>
        obtain ⟨hd,hk,hn,closed,hr,hc⟩ := hre
        refine ⟨hd,by omega,?_,closed,hr,?_⟩
        · have hs : k-i=(k-(i+1))+1 := by omega
          have ha : (emit step ph (locate i 0 f)).length=f.length := by
            rw [length_emit_of_live ha'.live,← length_map,map_snd_locate]
          rw [hs,take_succ_cons,flatten_cons,length_append,length_append,ha,← hn,add_assoc]
        · rw [hc,append_assoc]
end VetWaf.Http.BodyMachine
