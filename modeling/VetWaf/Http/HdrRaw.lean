import VetWaf.Http.Htype

namespace VetWaf.Http.HdrRaw
open List Nat

structure Chunk where
  data : Nat
  len : Nat
  ows : Bool

def Chunk.bytes (mem : Nat → UInt8) (c : Chunk) : Bytes := (range' c.data c.len).map mem

/-- `__str_cmp`: whether it gives 0 -/
def strCmp : Bytes → Bytes → Bool
  | [], _ => true
  | _::_, [] => false
  | a::p, b::s => (a=b ∨ a=tolower b) && strCmp p s

/-- `__cmp_hdr_raw_name`: the chunks behind the name. -/
def cmpHdrRawName (mem : Nat → UInt8) : List Chunk → Bytes → Option (List Chunk)
  | [], _ => none
  | c::cs, p =>
    if p.length<c.len ∨ strCmp (p.take c.len) (c.bytes mem)=false then none
    else if p.length=c.len then some cs
    else cmpHdrRawName mem cs (p.drop c.len)

def isTailOws (mem : Nat → UInt8) : Nat → List Chunk → Bool
  | _, [] => true
  | pos, c::cs => ((range' pos (c.data+c.len-pos)).map mem).all isspace && isTailOws mem (max pos (c.data+c.len)) cs

/-- `__cmp_hdr_raw_value_str` with `tail_ows`. -/
def cmpHdrRawValueStr (mem : Nat → UInt8) (pre : Bool) : List Chunk → Bytes → Bool
  | [], p => p.isEmpty
  | c::cs, p =>
    let len := min p.length c.len
    if strCmp (p.take len) (c.bytes mem)=false then false
    else if p.length<c.len then pre || isTailOws mem (c.data+len) (c::cs)
    else cmpHdrRawValueStr mem pre cs (p.drop len)

def matchHdrRawH1 (mem : Nat → UInt8) (name value : Bytes) (pre : Bool) (hdr : List (List Chunk)) : Bool :=
  hdr.any fun dup =>
    match cmpHdrRawName mem dup name with
    | none => false
    | some cs => cmpHdrRawValueStr mem pre (cs.dropWhile Chunk.ows) value

def text (mem : Nat → UInt8) (cs : List Chunk) : Bytes := cs.flatMap (Chunk.bytes mem)

/-- The rule's text, against the letters of the request in either case. -/
def Same (p s : Bytes) : Prop := Forall₂ (fun a b => a=b ∨ a=tolower b) p s

/-- The value without the white space at its end. -/
def trimmed (v : Bytes) : Bytes := v.rdropWhile isspace

/-- What a rule asks of a header. -/
def Matches (name value : Bytes) (pre : Bool) (hname hvalue : Bytes) : Prop :=
  Same name hname ∧ if pre=true then ∃t,t <+: hvalue ∧ Same value t else Same value (trimmed hvalue)

/-- What is left of the chunks behind their first `n` bytes -/
def restChunks : Nat → List Chunk → List Chunk
  | _, [] => []
  | n, c::cs => if n<c.len then {c with data:=c.data+n, len:=c.len-n}::cs else restChunks (n-c.len) cs

def maxEnd (pos : Nat) (cs : List Chunk) : Nat := cs.foldl (fun e c => max e (c.data+c.len)) pos

/-- The memory from the first of the chunks to the greatest of their ends -/
def spanned (mem : Nat → UInt8) : List Chunk → Bytes
  | [] => []
  | c::cs => (range' c.data (maxEnd (c.data+c.len) cs-c.data)).map mem

variable {mem : Nat → UInt8} {p s t : Bytes} {cs : List Chunk} {c : Chunk}
lemma length_bytes (mem : Nat → UInt8) (c : Chunk) : (c.bytes mem).length=c.len := by simp [Chunk.bytes]

lemma strCmp_append (h : s.length≤p.length) :
    strCmp p (s++t)=(strCmp (p.take s.length) s && strCmp (p.drop s.length) t) := by
  induction s generalizing p with
  | nil => simp [strCmp]
  | cons b s ih =>
    obtain ⟨a,p,rfl⟩ := exists_cons_of_length_pos (lt_of_lt_of_le s.length.succ_pos h)
    simp [strCmp,ih (le_of_succ_le_succ h),Bool.and_assoc]

lemma strCmp_left (h : p.length ≤ s.length) : strCmp p (s++t)=strCmp p s := by
  induction p generalizing s with
  | nil => simp [strCmp]
  | cons a p ih =>
    obtain ⟨b,s,rfl⟩ := exists_cons_of_length_pos (lt_of_lt_of_le p.length.succ_pos h)
    simp [strCmp,ih (le_of_succ_le_succ h)]

@[simp] lemma text_cons : text mem (c::cs)=c.bytes mem++text mem cs := by simp [text]

lemma le_maxEnd (pos : Nat) (cs : List Chunk) : pos ≤ maxEnd pos cs := by
  induction cs generalizing pos with
  | nil => exact le_rfl
  | cons c cs ih => exact (le_max_left ..).trans (ih _)

/-- The loop looks at all the memory up to the greatest end. -/
lemma isTailOws_eq (pos : Nat) (cs : List Chunk) :
    isTailOws mem pos cs=((range' pos (maxEnd pos cs-pos)).map mem).all isspace := by
  induction cs generalizing pos with
  | nil => simp [isTailOws,maxEnd]
  | cons c cs ih =>
    have hle := le_maxEnd (max pos (c.data+c.len)) cs
    have he : maxEnd pos (c::cs)=maxEnd (max pos (c.data+c.len)) cs := rfl
    have hr : range' pos (maxEnd pos (c::cs)-pos)=range' pos (c.data+c.len-pos) ++
        range' (max pos (c.data+c.len)) (maxEnd pos (c::cs)-max pos (c.data+c.len)) := by
      rw [he,show max pos (c.data+c.len)=pos+(c.data+c.len-pos) by omega] at *
      rw [range'_append_1]
      congr 1
      omega
    rw [isTailOws,ih,hr,map_append,all_append,he]

lemma text_restChunks (n : Nat) (cs : List Chunk) : text mem (restChunks n cs)=(text mem cs).drop n := by
  induction cs generalizing n with
  | nil => simp [restChunks,text]
  | cons c cs ih =>
    rw [restChunks,text_cons]
    split_ifs with hlt
    · rw [text_cons,drop_append_of_le_length (by rw [length_bytes]; exact hlt.le)]
      simp only [Chunk.bytes,← map_drop,drop_range',mul_one]
    · rw [ih,drop_append,length_bytes,@drop_eq_nil_of_le _ (c.bytes mem) _ (by rw [length_bytes]; omega),nil_append]

lemma cmpHdrRawValueStr_pre : cmpHdrRawValueStr mem true cs p=strCmp p (text mem cs) := by
  induction cs generalizing p with
  | nil => cases p <;> rfl
  | cons c cs ih =>
    rw [cmpHdrRawValueStr,text_cons]
    obtain h | h := lt_or_ge p.length c.len
    · simp [min_eq_left h.le,h,strCmp_left (length_bytes mem c ▸ h.le)]
    · simp [min_eq_right h,h.not_gt,ih,strCmp_append (length_bytes mem c ▸ h),length_bytes]

lemma cmpHdrRawValueStr_eq : cmpHdrRawValueStr mem false cs p =
    (strCmp p (text mem cs) && (spanned mem (restChunks p.length cs)).all isspace) := by
  induction cs generalizing p with
  | nil => cases p <;> rfl
  | cons c cs ih =>
    rw [cmpHdrRawValueStr,restChunks]
    obtain hlt | hge := lt_or_ge p.length c.len
    · have hs : maxEnd (c.data+p.length) (c::cs)=maxEnd (c.data+p.length+(c.len-p.length)) cs := by
        rw [maxEnd,foldl_cons,← maxEnd]
        congr 1
        omega
      rw [min_eq_left hlt.le,take_length,if_pos hlt,if_pos hlt,isTailOws_eq,spanned,hs,text_cons,
        strCmp_left (length_bytes mem c ▸ hlt.le)]
      cases strCmp p (c.bytes mem) <;> simp
    · rw [min_eq_right hge,if_neg hge.not_gt,if_neg hge.not_gt,ih,length_drop,text_cons,
        strCmp_append (length_bytes mem c ▸ hge),length_bytes]
      cases strCmp (p.take c.len) (c.bytes mem) <;> simp

lemma same_iff : Same p s ↔ p.length=s.length ∧ strCmp p s=true := by
  induction p generalizing s with
  | nil => cases s <;> simp [Same,strCmp]
  | cons a p ih =>
    cases s with
    | nil => simp [Same,strCmp]
    | cons b s =>
      have hi := @ih s
      simp only [Same] at hi
      simp only [Same,forall₂_cons,hi,strCmp,length_cons,Bool.and_eq_true,decide_eq_true_eq,add_right_cancel_iff]
      tauto

lemma strCmp_length (h : strCmp p s=true) : p.length ≤ s.length := by
  induction p generalizing s with
  | nil => simp
  | cons a p ih =>
    cases s with
    | nil => simp [strCmp] at h
    | cons b s =>
      simp only [strCmp,Bool.and_eq_true] at h
      exact succ_le_succ (ih h.2)

lemma strCmp_iff : strCmp p s=true ↔ ∃t,t <+: s ∧ Same p t := by
  constructor
  · intro h
    have hl := strCmp_length h
    refine ⟨s.take p.length, take_prefix p.length s,same_iff.2 ⟨by simp [hl],?_⟩⟩
    rwa [← strCmp_left (t := s.drop p.length) (by simp [hl]),take_append_drop]
  · rintro ⟨t,⟨u,rfl⟩,hs⟩
    obtain ⟨hl,hc⟩ := same_iff.1 hs
    rwa [strCmp_left hl.le]

lemma isspace_tolower : ∀b : UInt8,isspace (tolower b)=isspace b := by
  apply forall_byte
  decide +kernel

lemma Same.getLast? (h : Same p s) : p.getLast?.map isspace=s.getLast?.map isspace := by
  induction h with
  | nil => rfl
  | @cons a b p s hab hps ih =>
    cases hps with
    | nil =>
      obtain rfl | rfl := hab
      · rfl
      · simp [isspace_tolower]
    | cons ha' hp' =>
      rw [getLast?_cons_cons,getLast?_cons_cons]
      exact ih

/-- No white space at the end -/
def Closed (v : Bytes) : Prop := ∀a∈v.getLast?,isspace a=false

lemma Same.closed_iff (h : Same p s) : Closed p ↔ Closed s := by
  have hl := h.getLast?
  unfold Closed
  cases hp : p.getLast? <;> cases hs : s.getLast? <;> simp_all

lemma closed_trimmed (s : Bytes) : Closed (trimmed s) := by
  intro a ha
  have hne : trimmed s≠[] := fun h0 => by simp [h0] at ha
  rw [getLast?_eq_some_getLast hne,Option.mem_some] at ha
  rw [← ha,← Bool.not_eq_true]
  exact rdropWhile_last_not _ _ hne

lemma trimmed_append (h : s.all isspace=true) (ht : Closed t) : trimmed (t++s)=t := by
  rw [trimmed,rdropWhile,reverse_append,dropWhile_append_of_pos (by simpa using h),← rdropWhile,rdropWhile_eq_self_iff]
  intro hne hs
  rw [ht _ (getLast?_eq_some_getLast hne)] at hs
  cases hs

/-- A rule's value with no white space at its end, behind which a header's value has only white space -/
lemma same_trimmed : Same p (trimmed s) ↔
    strCmp p s=true ∧ Closed p ∧ (s.drop p.length).all isspace=true := by
  constructor
  · intro h
    obtain ⟨hl,hc⟩ := same_iff.1 h
    have hs : trimmed s++s.rtakeWhile isspace=s := rdropWhile_append_rtakeWhile
    refine ⟨strCmp_iff.2 ⟨trimmed s,⟨_,hs⟩,h⟩,h.closed_iff.2 (closed_trimmed s),?_⟩
    rw [← hs,hl,drop_left,all_eq_true]
    exact fun _ => mem_rtakeWhile_imp
  · rintro ⟨hc,hp,ha⟩
    obtain ⟨t,⟨u,rfl⟩,hsa⟩ := strCmp_iff.1 hc
    rw [(same_iff.1 hsa).1,drop_left] at ha
    rwa [trimmed_append ha (hsa.closed_iff.1 hp)]

lemma cmpHdrRawName_strCmp {rest : List Chunk} (h : cmpHdrRawName mem cs p=some rest) :
    strCmp p (text mem cs)=true := by
  induction cs generalizing p with
  | nil => simp [cmpHdrRawName] at h
  | cons c cs ih =>
    rw [cmpHdrRawName] at h
    split_ifs at h with hb hl
    · simp only [not_or,Bool.not_eq_false] at hb
      rw [text_cons,strCmp_left (by rw [length_bytes,hl])]
      rw [← hb.2,take_of_length_le hl.le]
    · simp only [not_or,Bool.not_eq_false,not_lt] at hb
      rw [text_cons,strCmp_append (by rw [length_bytes]; exact hb.1),length_bytes,hb.2,ih h]
      rfl

lemma cmpHdrRawName_eq {rest : List Chunk} (hne : cs≠[]) (hl : ∀c∈cs,0<c.len)
    (h : p.length=(text mem cs).length) (hc : strCmp p (text mem cs)=true) :
    cmpHdrRawName mem (cs++rest) p=some rest := by
  induction cs generalizing p with
  | nil => exact absurd rfl hne
  | cons c cs ih =>
    rw [text_cons,length_append,length_bytes] at h
    rw [text_cons,strCmp_append (by rw [length_bytes]; omega),length_bytes,Bool.and_eq_true] at hc
    rw [cons_append,cmpHdrRawName,if_neg (by simp [hc.1]; omega)]
    cases cs with
    | nil => rw [if_pos (by simpa [text] using h),nil_append]
    | cons d cs =>
      have hd := hl d (by simp)
      rw [if_neg (by simp [length_bytes] at h; omega)]
      exact ih (by simp) (fun e he => hl e (by simp [he])) (by simp at h ⊢; omega) hc.2

/-- A header as the parser stores it. -/
structure Header (mem : Nat → UInt8) where
  nameChunks : List Chunk
  owsChunks : List Chunk
  valueChunks : List Chunk
  name : Bytes
  text_name : text mem nameChunks=name++[0x3a]
  no_colon : 0x3a∉name
  name_len : ∀c∈nameChunks,0<c.len
  ows : ∀c∈owsChunks,c.ows=true
  value : ∀c∈valueChunks,c.ows=false

namespace Header

def chunks (h : Header mem) : List Chunk := h.nameChunks++(h.owsChunks++h.valueChunks)

lemma dropWhile_ows (h : Header mem) : (h.owsChunks++h.valueChunks).dropWhile Chunk.ows=h.valueChunks := by
  rw [dropWhile_append_of_pos h.ows]
  match hv : h.valueChunks with
  | [] => rfl
  | c::cs => rw [dropWhile_cons_of_neg]; simp [h.value c (by simp [hv])]

end Header

lemma eq_colon_of : ∀b : UInt8,(0x3a=b ∨ 0x3a=tolower b) → b=0x3a := by
  apply forall_byte
  decide +kernel

lemma colon_eq_of : ∀a : UInt8,(a=0x3a ∨ a=tolower 0x3a) → a=0x3a := by
  apply forall_byte
  decide +kernel

lemma strCmp_colon (hp : 0x3a∉p) (hs : 0x3a∉s) (h : strCmp (p++[0x3a]) (s++0x3a::t)=true) : Same p s := by
  induction p generalizing s with
  | nil =>
    cases s with
    | nil => exact .nil
    | cons b s =>
      simp only [nil_append,cons_append,strCmp,Bool.and_true,decide_eq_true_eq] at h
      exact absurd (by simp [eq_colon_of b h]) hs
  | cons a p ih =>
    cases s with
    | nil =>
      simp only [nil_append,cons_append,strCmp,Bool.and_eq_true,decide_eq_true_eq] at h
      exact absurd (by simp [colon_eq_of a h.1]) hp
    | cons b s =>
      simp only [cons_append,strCmp,Bool.and_eq_true,decide_eq_true_eq] at h
      exact .cons h.1 (ih (fun hm => hp (mem_cons_of_mem a hm)) (fun hm => hs (mem_cons_of_mem b hm)) h.2)

lemma Same.append (h : Same p s) : Same (p++t) (s++t) := rel_append h (forall₂_same.2 fun _ _ => Or.inl rfl)

lemma cmpHdrRawName_header {name : Bytes} (hn : 0x3a∉name) (h : Header mem) :
    cmpHdrRawName mem h.chunks (name++[0x3a])=some (h.owsChunks++h.valueChunks) ∧ Same name h.name ∨
      cmpHdrRawName mem h.chunks (name++[0x3a])=none ∧ ¬Same name h.name := by
  by_cases hs : Same name h.name
  · obtain ⟨hl,hc⟩ := same_iff.1 (hs.append (t := [0x3a]))
    have hne : h.nameChunks≠[] := by
      intro he
      have ht := h.text_name
      simp [he,text] at ht
    exact Or.inl ⟨cmpHdrRawName_eq hne h.name_len (by rw [h.text_name,hl]) (by rw [h.text_name,hc]),hs⟩
  · refine Or.inr ⟨Option.eq_none_iff_forall_ne_some.2 fun rest hr => hs ?_,hs⟩
    have hc := cmpHdrRawName_strCmp hr
    have ht : text mem h.chunks=h.name++0x3a::text mem (h.owsChunks++h.valueChunks) := by
      rw [Header.chunks,text,flatMap_append,← text,h.text_name,append_assoc]
      rfl
    rw [ht] at hc
    exact strCmp_colon hn h.no_colon hc

/-- Behind the rule's value the memory up to the greatest end of the chunks is white space exactly when the rest of the
header's value is and the rule's has none at its end. -/
def TailSeen (mem : Nat → UInt8) (value : Bytes) (cs : List Chunk) : Prop :=
  (spanned mem (restChunks value.length cs)).all isspace=true ↔
    Closed value ∧ (text mem (restChunks value.length cs)).all isspace=true

/-- A rule holds of a header when it holds of one of its duplicates. It holds of those that it describes: always for a
prefix, and for an exact value that the header's begins with exactly when the tail is seen as it is. -/
theorem match_hdr_raw_iff {name value : Bytes} {pre : Bool} {hdr : List (Header mem)} (hname : 0x3a∉name) :
    (matchHdrRawH1 mem (name++[0x3a]) value pre (hdr.map Header.chunks)=true ↔
      ∃h∈hdr,matchHdrRawH1 mem (name++[0x3a]) value pre [h.chunks]=true) ∧
    ∀h∈hdr,((matchHdrRawH1 mem (name++[0x3a]) value pre [h.chunks]=true ↔
        Matches name value pre h.name (text mem h.valueChunks)) ↔
      (pre=false → Same name h.name → (∃t,t <+: text mem h.valueChunks ∧ Same value t) →
        TailSeen mem value h.valueChunks)) := by
  refine ⟨by simp [matchHdrRawH1],fun h _ => ?_⟩
  simp only [matchHdrRawH1,any_cons,any_nil,Bool.or_false]
  obtain ⟨he,hs⟩ | ⟨he,hs⟩ := cmpHdrRawName_header hname h
  · simp only [he,Matches,hs,true_and,h.dropWhile_ows,forall_true_left]
    cases pre with
    | true => simp [cmpHdrRawValueStr_pre,strCmp_iff]
    | false =>
      rw [if_neg Bool.false_ne_true,cmpHdrRawValueStr_eq,same_trimmed,Bool.and_eq_true,TailSeen,text_restChunks,
        ← strCmp_iff]
      simp only [forall_true_left]
      tauto
  · simp [he,Matches,hs]

def sampleMem (i : Nat) : UInt8 :=
  if i=0 then 0x58 else if i=1 then 0x3a else if i=20 then 0x61 else if i=10 then 0x62 else 0x20

/-- `X: a `, followed by a chunk at a lower address if there is one. -/
def sample (low : List Chunk) (h : ∀c∈low,c.ows=false) : Header sampleMem where
  nameChunks := [⟨0,2,false⟩]
  owsChunks := [⟨5,1,true⟩]
  valueChunks := ⟨20,2,false⟩::low
  name := [0x58]
  text_name := by decide
  no_colon := by decide
  name_len := by decide
  ows := by decide
  value := by simpa using h

theorem match_hdr_raw_iff_x :
    matchHdrRawH1 sampleMem ([0x78]++[0x3a]) [0x61] false [(sample [] (by simp)).chunks]=true ↔
      Matches [0x78] [0x61] false [0x58] (text sampleMem (sample [] (by simp)).valueChunks) :=
  ((@match_hdr_raw_iff _ _ _ _ [sample [] (by simp)] (by decide)).2 _ (.head _)).2 fun _ _ _ =>
    iff_of_true (by decide) ⟨by rintro a ⟨rfl⟩; decide,by decide⟩

/-- The rest `b` of the value lies below the position reached, and is taken for white space. -/
theorem match_hdr_raw_low_chunk :
    matchHdrRawH1 sampleMem ([0x78]++[0x3a]) [0x61] false [(sample [⟨10,1,false⟩] (by simp)).chunks]=true ∧
      ¬Matches [0x78] [0x61] false [0x58] (text sampleMem (sample [⟨10,1,false⟩] (by simp)).valueChunks) := by
  refine ⟨by decide,?_⟩
  rintro ⟨-,hs⟩
  have hl := (same_iff.1 hs).1
  revert hl
  decide
end VetWaf.Http.HdrRaw
