import VetWaf.Http.SessLearn

namespace VetWaf.AccessLog
open List Sess Word

/-- `__tfw_strcmp`: whether it gives 0; the difference of the lengths becomes an `int`. -/
def strcmp (cs : Bool) (s₁ s₂ : TfwStrForm) : Option Bool :=
  (strcmpCommon cs s₁ s₂).map (· && trunc 32 s₁.len=trunc 32 s₂.len)

/-- The loop of `tfw_str_eq_cstr`; `pre` is `TFW_STR_EQ_PREFIX`. A chunk whose length is no `int` gives
no result. -/
def eqCstr (cs pre : Bool) : List Bytes → Bytes → Option Bool
  | [], cstr => some cstr.isEmpty
  | chunk::rest, cstr =>
    let len := min cstr.length chunk.length
    if 2^31≤chunk.length then none
    else if fold cs (cstr.take len)≠fold cs (chunk.take len) then some false
    else if cstr.length<chunk.length then some pre
    else eqCstr cs pre rest (cstr.drop len)

/-- The chunks that the loop of `tfw_str_eq_cstr_off` leaves. -/
def skip : List Bytes → Nat → List Bytes
  | [], _ => []
  | c::cs, offset => if c.length≤offset then skip cs (offset-c.length) else c.drop offset::cs

/-- `tfw_str_eq_cstr_off`, with its `BUG_ON` for an empty C string -/
def eqCstrOff (cs pre : Bool) (s : TfwStrForm) (offset : Nat) (cstr : Bytes) : Option Bool :=
  if cstr=[] then none
  else if offset=0 then eqCstr cs pre s.chunks cstr
  else if s.len<offset+cstr.length then some false
  else eqCstr cs pre (skip s.chunks offset) cstr

variable {cs pre : Bool}
lemma fold_append (a b : Bytes) : fold cs (a++b)=fold cs a++fold cs b := map_append

/-- The flat meaning of `tfw_str_eq_cstr` -/
def Begins (cs pre : Bool) (data cstr : Bytes) : Prop :=
  fold cs cstr<+:fold cs data ∧ (pre=true ∨ cstr.length=data.length)

instance (data cstr : Bytes) : Decidable (Begins cs pre data cstr) := inferInstanceAs (Decidable (_∧_))

lemma eqCstr_eq {chunks : List Bytes} (h : ∀c∈chunks,c.length<2^31) (cstr : Bytes) :
    eqCstr cs pre chunks cstr=some (decide (Begins cs pre chunks.flatten cstr)) := by
  induction chunks generalizing cstr with
  | nil => cases cstr <;> simp [eqCstr,Begins,fold]
  | cons chunk rest ih =>
    have hc := h chunk mem_cons_self
    have hb : Begins cs pre (chunk::rest).flatten cstr ↔ fold cs cstr<+:fold cs chunk++fold cs rest.flatten ∧
        (pre=true ∨ cstr.length=(chunk++rest.flatten).length) := by
      rw [Begins,flatten_cons,fold_append]
    rw [eqCstr,if_neg (by omega),decide_eq_decide.2 hb]
    split_ifs with hne hlt
    · rw [decide_eq_false]
      intro h
      obtain ⟨t,ht⟩ := h.1
      have hta := congrArg (take (min cstr.length chunk.length)) ht
      rw [take_append_of_le_length (by simp [fold]),take_append_of_le_length (by simp [fold]),fold,fold,
        ← map_take,← map_take] at hta
      exact hne hta
    · rw [not_not,min_eq_left hlt.le,take_length] at hne
      have hp : fold cs cstr<+:fold cs chunk++fold cs rest.flatten := by
        rw [hne]
        exact (( take_prefix _ _).map _).trans (prefix_append _ _)
      have hl : cstr.length≠(chunk++rest.flatten).length := by
        rw [length_append]
        omega
      simp only [hp,hl,or_false,true_and,Bool.decide_eq_true]
    · rw [not_not,min_eq_right (by omega),take_length] at hne
      have hs : fold cs cstr=fold cs chunk++fold cs (cstr.drop chunk.length) := by
        rw [← hne,← fold_append,take_append_drop]
      rw [min_eq_right (by omega),ih fun c hc => h c (mem_cons_of_mem _ hc)]
      refine congrArg some (decide_eq_decide.2 ?_)
      rw [hs,prefix_append_right_inj,length_append]
      refine and_congr_right fun _ => or_congr_right ?_
      rw [length_drop]
      omega

lemma flatten_skip (chunks : List Bytes) (offset : Nat) : (skip chunks offset).flatten=chunks.flatten.drop offset := by
  induction chunks generalizing offset with
  | nil => simp [skip]
  | cons c cs ih =>
    rw [skip,flatten_cons,drop_append]
    split_ifs with h
    · rw [ih,drop_eq_nil_of_le h,nil_append]
    · rw [flatten_cons,Nat.sub_eq_zero_of_le (by omega),drop_zero]

lemma length_of_mem_skip {chunks : List Bytes} {offset k : Nat} (h : ∀c∈chunks,c.length<k) :
    ∀c∈skip chunks offset,c.length<k := by
  induction chunks generalizing offset with
  | nil => simp [skip]
  | cons c cs ih =>
    rw [skip]
    split_ifs
    · exact ih fun d hd => h d (mem_cons_of_mem _ hd)
    · rw [forall_mem_cons,length_drop]
      exact ⟨(Nat.sub_le _ _).trans_lt (h c mem_cons_self),fun d hd => h d (mem_cons_of_mem _ hd)⟩

lemma strcmp_iff {s₁ s₂ : TfwStrForm} (h : min s₁.len s₂.len<2^31 ∨ ∀c∈s₁.chunks++s₂.chunks,c.length<2^31) :
    strcmp cs s₁ s₂=some (decide (fold cs s₁.data=fold cs s₂.data)) ↔
      (s₁.len≠s₂.len → s₁.len%2^32=s₂.len%2^32 →
        (fold cs s₁.data).take (min s₁.len s₂.len)≠(fold cs s₂.data).take (min s₁.len s₂.len)) := by
  have hl (s : TfwStrForm) : (fold cs s.data).length=s.len := length_map _
  have hi := @take_min_eq_iff (fold cs s₁.data) (fold cs s₂.data)
  rw [hl,hl] at hi
  rw [strcmp,strcmpCommon_eq h,Option.map_some,← Bool.decide_and,Option.some_inj,decide_eq_decide,← hi,trunc,trunc]
  constructor
  · intro he hne hmod heq
    exact hne (he.1 ⟨heq,hmod⟩).2
  · intro himp
    refine ⟨fun he => ⟨he.1,?_⟩,fun he => ⟨he.1,by rw [he.2]⟩⟩
    by_contra hne
    exact himp hne he.2 he.1

lemma eqCstrOff_eq {s : TfwStrForm} {offset : Nat} {cstr : Bytes} (h : ∀c∈s.chunks,c.length<2^31) (hne : cstr≠[]) :
    eqCstrOff cs pre s offset cstr=some (decide (Begins cs pre (s.data.drop offset) cstr)) := by
  rw [eqCstrOff,if_neg hne]
  split_ifs with h0 hl
  · rw [h0]
    exact eqCstr_eq h cstr
  · rw [decide_eq_false]
    intro hb
    have hle := hb.1.length_le
    rw [fold,fold,length_map,length_map,length_drop] at hle
    have hp := length_pos_of_ne_nil hne
    exact absurd (show s.len<offset+cstr.length from hl) (by unfold TfwStrForm.len; omega)
  · rw [eqCstr_eq (length_of_mem_skip h),flatten_skip]
    rfl

end VetWaf.AccessLog
