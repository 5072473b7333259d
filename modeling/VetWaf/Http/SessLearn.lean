import VetWaf.Http.AccessLogFit
import VetWaf.Http.Htype
import VetWaf.Lib.Word

namespace VetWaf.Sess
open List Outcome AccessLog Mem

def stickyKeyMaxLen : Nat := 256

/-- `TFW_LC` unless the case counts -/
def fold (cs : Bool) (b : Bytes) : Bytes := b.map (cond cs id Http.lc)

/-- The loop of `__tfw_strcmp` over what is left of the chunks, from the `int` offsets `off₁` and `off₂` in them on.
There is no result where one of the `int` variables would not hold its value. -/
def strcmpLoop : Nat → Nat → Nat → List Bytes → List Bytes → Option Bool
  | 0, _, _, _, _ => some true
  | n+1, off₁, off₂, c₁::cs₁, c₂::cs₂ =>
    let cn := min c₁.length c₂.length
    if 2^31≤off₁ ∨ 2^31≤off₂ ∨ 2^31≤cn then none
    else if c₁.take cn≠c₂.take cn then some false
    else strcmpLoop (n+1-cn) (if cn=c₁.length then 0 else off₁+cn) (if cn=c₂.length then 0 else off₂+cn)
      (if cn=c₁.length then cs₁ else c₁.drop cn::cs₁) (if cn=c₂.length then cs₂ else c₂.drop cn::cs₂)
  | _ + 1, _, _, _, _ => none
termination_by _ _ _ cs₁ cs₂ => cs₁.length+cs₂.length
decreasing_by split_ifs <;> simp only [length_cons] <;> omega

/-- `__tfw_strcmp` up to `out`: whether the strings agree as far as both go -/
def strcmpCommon (cs : Bool) (s₁ s₂ : AccessLog.TfwStrForm) : Option Bool :=
  if s₁.len=0 ∨ s₂.len=0 then some true
  else strcmpLoop (min s₁.len s₂.len) 0 0 (s₁.chunks.map (fold cs)) (s₂.chunks.map (fold cs))

/-- `tfw_strcmp`: whether it gives 0, where an `int` holds the difference of the lengths -/
def tfwStrcmp (s₁ s₂ : AccessLog.TfwStrForm) : Option Bool :=
  (strcmpCommon true s₁ s₂).map (· && s₁.len=s₂.len)

structure TfwVhost where
  name : Bytes
  learn : Bool
  sessLifetime : Nat

structure TfwHttpSess where
  expires : Nat
  vhost : Option TfwVhost
  keyLen : Nat
  hmac : Bytes
  cval : Buf

structure EqCtx where
  vhost : TfwVhost
  cookieVal : AccessLog.TfwStrForm
  hmac : Bytes
  ts : Nat

/-- `basic_stricmp_fast`: whether it gives 0 -/
def basicStricmp (a b : Bytes) : Bool := a.length=b.length && fold false a=fold false b

def expiresAt (hz ts lifetime : Nat) : Nat := Word.trunc 64 (ts+lifetime*hz)

def tfwSessEntInit (hz jiffies : Nat) (ctx : EqCtx) : Except Stop TfwHttpSess :=
  if ctx.vhost.learn then do
    let (cval,_) ← tfwStrToCstr ctx.cookieVal (fun _ => 0) 0 stickyKeyMaxLen
    .ok ⟨expiresAt hz jiffies ctx.vhost.sessLifetime,some ctx.vhost,ctx.cookieVal.len,[],cval⟩
  else .ok ⟨expiresAt hz ctx.ts ctx.vhost.sessLifetime,some ctx.vhost,0,ctx.hmac,fun _ => 0⟩

def tfwHttpSessLearn (hz jiffies : Nat) (ctx : EqCtx) : Option (Except Stop TfwHttpSess) :=
  if ctx.vhost.learn=false ∨ ctx.cookieVal.len=0 ∨ stickyKeyMaxLen<ctx.cookieVal.len then none
  else some (tfwSessEntInit hz jiffies ctx)

def tfwHttpSessEq (jiffies : Nat) (sess : TfwHttpSess) (ctx : EqCtx) : Option Bool :=
  match sess.vhost with
  | none => some false
  | some vhost =>
    if sess.expires<jiffies then some false
    else do
      let same ← if ctx.vhost.learn then
          tfwStrcmp (.plain (slice sess.cval 0 sess.keyLen)) ctx.cookieVal
        else some (ctx.hmac=sess.hmac)
      some (same && basicStricmp vhost.name ctx.vhost.name)

lemma take_append_eq_iff {c₁ c₂ : Bytes} (r1 r2 : Bytes) {k n : Nat} (h1 : k≤c₁.length) (h2 : k≤c₂.length)
    (hn : k≤n) : (c₁++r1).take n=(c₂++r2).take n ↔
      c₁.take k=c₂.take k ∧ (c₁.drop k++r1).take (n-k)=(c₂.drop k++r2).take (n-k) := by
  have hs : ∀c r : Bytes,k≤c.length → (c++r).take n=c.take k++(c.drop k++r).take (n-k) := by
    intro c r hc
    have hl : (c.take k).length=k := by rw [length_take,min_eq_left hc]
    calc (c++r).take n
        = (c.take k++(c.drop k++r)).take n := by rw [← append_assoc,take_append_drop]
      _ = c.take k++(c.drop k++r).take (n-k) := by rw [take_append,hl,take_of_length_le (by omega)]
  rw [hs c₁ r1 h1,hs c₂ r2 h2]
  have hl : (c₁.take k).length=(c₂.take k).length := by
    rw [length_take,length_take]
    omega
  exact ⟨fun h => append_inj h hl,fun h => by rw [h.1,h.2]⟩

lemma flatten_rest (c : Bytes) (cs : List Bytes) (k : Nat) :
    (if k=c.length then cs else c.drop k::cs).flatten=c.drop k++cs.flatten := by
  split_ifs with hk
  · rw [hk,drop_length,nil_append]
  · rw [flatten_cons]

/-- The `int` variables of the loop hold what is left of one string: all of it, or the rest of each chunk. -/
def Holds (n off : Nat) : List Bytes → Prop
  | [] => True
  | c::cs => off+n<2^31 ∨ off+c.length<2^31 ∧ ∀d∈cs,d.length<2^31

lemma Holds.next {n k off : Nat} {c : Bytes} {cs : List Bytes} (h : Holds n off (c::cs)) (hk : k≤c.length) (hn : k≤n) :
    Holds (n-k) (if k=c.length then 0 else off+k) (if k=c.length then cs else c.drop k::cs) := by
  split_ifs with hc
  · cases cs with
    | nil => trivial
    | cons d cs =>
      obtain h | ⟨-,h⟩ := h
      · exact .inl (by omega)
      · refine .inr ⟨?_,fun e he => h e (mem_cons_of_mem _ he)⟩
        have hd := h d mem_cons_self
        omega
  · obtain h | ⟨ho,h⟩ := h
    · exact .inl (by omega)
    · refine .inr ⟨?_,h⟩
      rw [length_drop]
      omega

lemma strcmpLoop_eq {n off₁ off₂ : Nat} {cs₁ cs₂ : List Bytes} (hn : n=min cs₁.flatten.length cs₂.flatten.length)
    (h₁ : Holds n off₁ cs₁) (h₂ : Holds n off₂ cs₂) :
    strcmpLoop n off₁ off₂ cs₁ cs₂=some (decide (cs₁.flatten.take n=cs₂.flatten.take n)) := by
  fun_induction strcmpLoop n off₁ off₂ cs₁ cs₂ with
  | case1 off₁ off₂ cs₁ cs₂ => simp
  | case2 n off₁ off₂ c₁ cs₁ c₂ cs₂ cn hint =>
    rw [flatten_cons,flatten_cons,length_append,length_append] at hn
    rw [Holds] at h₁ h₂
    omega
  | case3 n off₁ off₂ c₁ cs₁ c₂ cs₂ cn hint hne =>
    rw [flatten_cons,flatten_cons,length_append,length_append] at hn
    have hi := take_append_eq_iff cs₁.flatten cs₂.flatten (min_le_left c₁.length c₂.length)
      (min_le_right c₁.length c₂.length) (show min c₁.length c₂.length≤n+1 by omega)
    rw [flatten_cons,flatten_cons,decide_eq_false (fun heq => hne (hi.1 heq).1)]
  | case4 n off₁ off₂ c₁ cs₁ c₂ cs₂ cn hint heq ih =>
    rw [flatten_cons,flatten_cons,length_append,length_append] at hn
    have hi := take_append_eq_iff cs₁.flatten cs₂.flatten (min_le_left c₁.length c₂.length)
      (min_le_right c₁.length c₂.length) (show min c₁.length c₂.length≤n+1 by omega)
    simp only [dite_eq_ite,flatten_rest] at ih
    rw [ih (by simp only [length_append,length_drop]; omega) (h₁.next (min_le_left _ _) (by omega))
      (h₂.next (min_le_right _ _) (by omega)),flatten_cons,flatten_cons]
    refine congrArg some (decide_eq_decide.2 ?_)
    rw [hi]
    exact (and_iff_right (not_ne_iff.1 heq)).symm
  | case5 n off₁ off₂ cs₁ cs₂ hni =>
    cases cs₁ with
    | nil => simp at hn
    | cons c₁ cs₁ =>
      cases cs₂ with
      | nil => simp at hn
      | cons c₂ cs₂ => exact absurd rfl (hni c₁ cs₁ c₂ cs₂ rfl)

/-- What the strings have in common is compared right if an `int` holds its length or that of each chunk. -/
lemma strcmpCommon_eq {cs : Bool} {s₁ s₂ : AccessLog.TfwStrForm}
    (h : min s₁.len s₂.len<2^31 ∨ ∀c∈s₁.chunks++s₂.chunks,c.length<2^31) : strcmpCommon cs s₁ s₂ =
      some (decide ((fold cs s₁.data).take (min s₁.len s₂.len)=(fold cs s₂.data).take (min s₁.len s₂.len))) := by
  have hf (s : AccessLog.TfwStrForm) : (s.chunks.map (fold cs)).flatten=fold cs s.data := map_flatten.symm
  have hl (s : AccessLog.TfwStrForm) : (fold cs s.data).length=s.len := length_map _
  have hh (l : List Bytes) (hc : ∀c∈l,c.length<2^31) : Holds (min s₁.len s₂.len) 0 (l.map (fold cs)) := by
    cases l with
    | nil => trivial
    | cons c l => exact .inr (by simpa [fold] using hc)
  have hh' (l : List Bytes) (hm : min s₁.len s₂.len<2^31) : Holds (min s₁.len s₂.len) 0 l := by
    cases l with
    | nil => trivial
    | cons c l => exact .inl (by omega)
  rw [strcmpCommon]
  split_ifs with he
  · simp [show min s₁.len s₂.len=0 by omega]
  · rw [strcmpLoop_eq (by rw [hf,hf,hl,hl]) (h.elim (hh' _) fun h => hh _ fun c hc => h c (mem_append_left _ hc))
      (h.elim (hh' _) fun h => hh _ fun c hc => h c (mem_append_right _ hc)),hf,hf]

lemma take_min_eq_iff {a b : Bytes} :
    a.take (min a.length b.length)=b.take (min a.length b.length) ∧ a.length=b.length ↔ a=b := by
  constructor
  · rintro ⟨hs,heq⟩
    rwa [← heq,min_self,take_length,heq,take_length] at hs
  · rintro rfl
    exact ⟨rfl,rfl⟩

lemma tfwStrcmp_eq {s₁ : AccessLog.TfwStrForm} (s₂ : AccessLog.TfwStrForm) (h : s₁.len<2^31) :
    tfwStrcmp s₁ s₂=some (decide (s₁.data=s₂.data)) := by
  have hfold (b : Bytes) : fold true b=b := map_id b
  rw [tfwStrcmp,strcmpCommon_eq (.inl ((min_le_left _ _).trans_lt h)),hfold,hfold,Option.map_some,← Bool.decide_and]
  exact congrArg some (decide_eq_decide.2 take_min_eq_iff)

lemma copied_of_notMem {s : AccessLog.TfwStrForm} (h : (0 : UInt8)∉s.data) : s.copied=s.data := by
  refine (AccessLog.copied_eq_iff s).2 fun chunk hc => ?_
  have hw : chunk.dropWhile (· != 0)=[] := by
    refine dropWhile_eq_nil_iff.2 fun b hb => bne_iff_ne.2 ?_
    rintro rfl
    exact h (mem_flatten.2 ⟨chunk,hc,hb⟩)
  unfold AccessLog.Unbroken
  rw [hw]
  exact nofun

lemma tfwSessEntInit_stored (hz now : Nat) {ctx : EqCtx} (hlr : ctx.vhost.learn=true)
    (hl : ctx.cookieVal.len ≤ stickyKeyMaxLen) (hn : (0 : UInt8)∉ctx.cookieVal.data) :
    ∃sess,tfwSessEntInit hz now ctx=.ok sess ∧ sess.vhost=some ctx.vhost ∧ sess.keyLen ≤ stickyKeyMaxLen ∧
      (slice sess.cval 0 sess.keyLen=ctx.cookieVal.data ↔ ctx.cookieVal.len<stickyKeyMaxLen) := by
  have hco : ctx.cookieVal.Narrow := by
    intro chunk hc
    have hs := (sublist_flatten_of_mem hc).length_le
    have hle : chunk.length≤256 := hs.trans hl
    omega
  obtain ⟨cval,hcs,hsl,-,he⟩ := tfwStrToCstr_spec (fun _ => 0) 0 stickyKeyMaxLen hco (by decide) (by decide)
  refine ⟨⟨expiresAt hz now ctx.vhost.sessLifetime,some ctx.vhost,ctx.cookieVal.len,[],cval⟩,?_,rfl,hl,?_⟩
  · simp only [tfwSessEntInit,hlr,if_true,hcs,ok_bind]
  · rw [copied_of_notMem hn] at hsl
    rw [show stickyKeyMaxLen-1=255 from rfl] at hsl he
    rw [show stickyKeyMaxLen=256 from rfl] at hl ⊢
    constructor
    · intro hw
      by_contra hf
      have hla : cval 255∈slice cval 0 ctx.cookieVal.len := by
        refine mem_map.2 ⟨255,mem_range.2 (by omega),by rw [zero_add]⟩
      rw [zero_add,min_eq_left (by omega)] at he
      rw [hw,he] at hla
      exact hn hla
    · intro hlt
      rw [min_eq_right (by omega)] at hsl
      rw [hsl]
      exact take_of_length_le (show ctx.cookieVal.data.length≤255 from Nat.le_of_lt_succ hlt)

lemma tfwHttpSessEq_eq {now : Nat} {sess : TfwHttpSess} {ctx : EqCtx} {vhost : TfwVhost}
    (hv : sess.vhost=some vhost) (hl : now ≤ sess.expires) (hlr : ctx.vhost.learn=true)
    (hn : ctx.vhost.name=vhost.name) (hk : sess.keyLen ≤ stickyKeyMaxLen) :
    tfwHttpSessEq now sess ctx=some (decide (slice sess.cval 0 sess.keyLen=ctx.cookieVal.data)) := by
  have hs : basicStricmp vhost.name ctx.vhost.name=true := by simp [basicStricmp,hn]
  have hd : (AccessLog.TfwStrForm.plain (slice sess.cval 0 sess.keyLen)).data=
    slice sess.cval 0 sess.keyLen := append_nil _
  have hlen : (AccessLog.TfwStrForm.plain (slice sess.cval 0 sess.keyLen)).len=sess.keyLen := by
    rw [AccessLog.TfwStrForm.len,hd]
    simp [slice]
  have hc := tfwStrcmp_eq ctx.cookieVal (hlen.trans_lt (hk.trans_lt (by decide)))
  rw [hd] at hc
  simp only [tfwHttpSessEq,hv,if_neg (Nat.not_lt.2 hl),hlr,if_true,hc,hs,Bool.and_true]
  rfl

/-- A learned session is found again by the requests with the same value, and by no others, exactly when the value is
shorter than `STICKY_KEY_MAX_LEN`. -/
theorem tfwHttpSessEq_learned_iff (hz now : Nat) (ctx : EqCtx) (hlearn : ctx.vhost.learn=true)
    (hpos : 0<ctx.cookieVal.len) (hlen : ctx.cookieVal.len ≤ stickyKeyMaxLen) (hnul : (0 : UInt8)∉ctx.cookieVal.data) :
    ∃sess,tfwHttpSessLearn hz now ctx=some (.ok sess) ∧
      ((∀now' ctx',now' ≤ sess.expires → ctx'.vhost.learn=true → ctx'.vhost.name=ctx.vhost.name →
          (tfwHttpSessEq now' sess ctx'=some true ↔ ctx'.cookieVal.data=ctx.cookieVal.data)) ↔
        ctx.cookieVal.len<stickyKeyMaxLen) := by
  obtain ⟨sess,hinit,hv,hk,hst⟩ := tfwSessEntInit_stored hz now hlearn hlen hnul
  refine ⟨sess,?_,?_⟩
  · have ha : ¬(ctx.vhost.learn=false ∨ ctx.cookieVal.len=0 ∨ stickyKeyMaxLen<ctx.cookieVal.len) := by
      rw [hlearn]
      simp only [Bool.true_eq_false,false_or]
      omega
    rw [tfwHttpSessLearn,if_neg ha,hinit]
  · rw [← hst]
    constructor
    · intro hf
      have hs := (hf 0 ctx zero_le hlearn rfl).2 rfl
      rw [tfwHttpSessEq_eq hv zero_le hlearn rfl hk] at hs
      simpa using hs
    · intro hw now' ctx' hl hl' hn
      rw [tfwHttpSessEq_eq hv hl hl' hn hk,hw]
      simp [eq_comm]

def learnCtx (val : AccessLog.TfwStrForm) : EqCtx := ⟨⟨[],true,3600⟩,val,[],0⟩

theorem tfwHttpSessEq_learned_iff_short :
    ∃sess,tfwHttpSessLearn 100 7 (learnCtx (.compound [65,66] [[67]]))=some (.ok sess) ∧
      tfwHttpSessEq 0 sess (learnCtx (.plain [65,66,67]))=some true := by
  obtain ⟨sess,hl,hi⟩ := tfwHttpSessEq_learned_iff 100 7 (learnCtx (.compound [65,66] [[67]])) rfl
    (by decide) (by decide) (by decide)
  exact ⟨sess,hl,(hi.2 (by decide) 0 (learnCtx (.plain [65,66,67])) zero_le rfl rfl).2 rfl⟩

/-- A value of 256 bytes is accepted, and the same value in the next request is not found. -/
theorem tfwHttpSessEq_full_value : ∃sess,tfwHttpSessLearn 100 0 (learnCtx (.plain (replicate 256 65)))=some (.ok sess) ∧
      tfwHttpSessEq 0 sess (learnCtx (.plain (replicate 256 65)))=some false := by
  have hn : (0 : UInt8)∉(learnCtx (.plain (replicate 256 65))).cookieVal.data := by decide +kernel
  have hl : (learnCtx (.plain (replicate 256 65))).cookieVal.len=stickyKeyMaxLen := by decide +kernel
  obtain ⟨sess,hinit,hv,hk,hs⟩ := tfwSessEntInit_stored 100 0 rfl hl.le hn
  refine ⟨sess,?_,?_⟩
  · rw [tfwHttpSessLearn,hl,hinit]
    rfl
  · have hc := fun hw => hl.not_lt (hs.1 hw)
    rw [tfwHttpSessEq_eq hv zero_le rfl rfl hk,decide_eq_false hc]
end VetWaf.Sess
