import VetWaf.Http.AccessLog

namespace VetWaf.AccessLog
open List Outcome Mem AccessLog.TfwStrForm Nat

/-- A chunk that `strncpy` copies as it is: behind a NUL there are only NULs. -/
def Unbroken (chunk : Bytes) : Prop := ∀b∈chunk.dropWhile (· != 0),b=0

instance (chunk : Bytes) : Decidable (Unbroken chunk) := inferInstanceAs (Decidable (∀b∈_,_))

/-- The characters that copying with `strncpy` leaves of a string -/
def TfwStrForm.copied (s : TfwStrForm) : Bytes := (s.chunks.map fun chunk => strncpy chunk chunk.length).flatten

lemma strncpy_take {src : Bytes} {len : Nat} (hl : len ≤ src.length) :
    strncpy src len=(strncpy src src.length).take len := by
  unfold strncpy
  dsimp only
  have hw : (src.takeWhile (· != 0)).length ≤ src.length := (takeWhile_sublist _).length_le
  rw [take_of_length_le (le_refl src.length),← take_takeWhile,length_take,take_append,take_replicate]
  congr 2
  omega

lemma length_strncpy (chunk : Bytes) : (strncpy chunk chunk.length).length=chunk.length := by
  have hw : (chunk.takeWhile (· != 0)).length ≤ chunk.length := (takeWhile_sublist _).length_le
  unfold strncpy
  dsimp only
  rw [take_of_length_le le_rfl,length_append,length_replicate]
  omega

lemma strncpy_eq_iff (chunk : Bytes) : strncpy chunk chunk.length=chunk ↔ Unbroken chunk := by
  have hl := congrArg length (takeWhile_append_dropWhile (p := (· != 0)) (l := chunk))
  rw [length_append] at hl
  unfold strncpy Unbroken
  dsimp only
  rw [take_of_length_le le_rfl]
  have hc (l : Bytes) : chunk.takeWhile (· != 0)++l=chunk ↔ chunk.dropWhile (· != 0)=l := by
    constructor
    · intro h
      exact append_cancel_left ((takeWhile_append_dropWhile).trans h.symm)
    · rintro rfl
      exact takeWhile_append_dropWhile
  rw [hc,eq_replicate_iff]
  exact and_iff_right (by omega)

lemma length_copied (s : TfwStrForm) : s.copied.length=s.len := by
  rw [copied,len,data,TfwStr.data,length_flatten,length_flatten,map_map]
  exact congrArg sum (map_congr_left fun chunk _ => length_strncpy chunk)

lemma flatten_strncpy_iff (chunks : List Bytes) :
    (chunks.map fun chunk => strncpy chunk chunk.length).flatten=chunks.flatten ↔ ∀chunk∈chunks,Unbroken chunk := by
  induction chunks with
  | nil => simp
  | cons chunk chunks ih =>
    rw [map_cons,flatten_cons,flatten_cons,forall_mem_cons,← ih,← strncpy_eq_iff]
    constructor
    · exact fun h => append_inj h (length_strncpy chunk)
    · rintro ⟨h,h'⟩
      rw [h,h']

lemma copied_eq_iff (s : TfwStrForm) : s.copied=s.data ↔ ∀chunk∈s.chunks,Unbroken chunk := flatten_strncpy_iff s.chunks

lemma copyLen_eq {chunk : Bytes} (size : Nat) (hl : chunk.length<2^31) :
    copyLen size chunk=some (min size chunk.length) := by
  unfold copyLen
  rw [mod_eq_of_lt (hl.trans (by decide)),if_pos hl]

def SameBelow (p : Nat) (buf buf' : Buf) : Prop := ∀i<p,buf' i=buf i

lemma put_ok {buf : Buf} {pos : Nat} {bs : Bytes} (h : pos+bs.length≤bufSize) :
    put buf pos bs=.ok (write buf pos bs) := if_pos h

lemma strToCstrLoop_spec {chunks : List Bytes} (buf : Buf) (pos size : Nat)
    (hna : ∀chunk∈chunks,chunk.length<2^31) (hro : pos+min size chunks.flatten.length≤bufSize) :
    ∃buf',strToCstrLoop chunks buf pos size=.ok (buf',pos+min size chunks.flatten.length) ∧
      slice buf' pos (min size chunks.flatten.length) =
        (chunks.map fun chunk => strncpy chunk chunk.length).flatten.take size ∧ SameBelow pos buf buf' := by
  induction chunks generalizing buf pos size with
  | nil =>
    refine ⟨buf,?_,?_,fun _ _ => rfl⟩
    · rw [flatten_nil,length_nil,min_zero]
      rfl
    · rw [map_nil,flatten_nil,length_nil,min_zero,take_nil]
      rfl
  | cons chunk chunks ih =>
    obtain ⟨hl,hrs⟩ := forall_mem_cons.1 hna
    rw [flatten_cons,length_append] at hro ⊢
    rw [map_cons,flatten_cons]
    obtain ⟨n,hn⟩ : ∃n,n=min size chunk.length := ⟨_,rfl⟩
    obtain ⟨text,ht⟩ : ∃text,text=strncpy chunk chunk.length := ⟨_,rfl⟩
    have htl : text.length=chunk.length := ht ▸ length_strncpy chunk
    have hc : strncpy chunk n=text.take n := ht ▸ strncpy_take (by omega)
    have hln : (text.take n).length=n := by
      rw [length_take]
      omega
    have hw : put buf pos (text.take n)=.ok (write buf pos (text.take n)) := put_ok (by rw [hln]; omega)
    have hlo : strToCstrLoop (chunk::chunks) buf pos size = if size-n=0 then .ok (write buf pos (text.take n),pos+n)
        else strToCstrLoop chunks (write buf pos (text.take n)) (pos+n) (size-n) := by
      simp only [strToCstrLoop,copyLen_eq size hl,← hn,hc,hw,ok_bind]
    have hr := slice_write buf pos (text.take n)
    rw [hln] at hr
    rw [hlo,← ht]
    by_cases hf : size-n=0
    · -- the size ends within this chunk
      have hm : min size (chunk.length+chunks.flatten.length)=n := by omega
      rw [if_pos hf,hm,take_append_of_le_length (by omega)]
      refine ⟨_,rfl,?_,fun i hi => write_below buf _ hi⟩
      rw [hr]
      exact congrArg text.take (by omega)
    · have ha : n=chunk.length := by omega
      have hm : min size (chunk.length+chunks.flatten.length)=n+min (size-n) chunks.flatten.length := by omega
      rw [hm] at hro
      obtain ⟨buf',hok,hsl,hs⟩ := ih (write buf pos (text.take n)) (pos+n) (size - n) hrs (by omega)
      rw [if_neg hf,hm]
      refine ⟨buf',by rw [hok,add_assoc],?_,fun i hi => ?_⟩
      · have hfi : slice buf' pos n=text.take n := by
          rw [← hr]
          exact slice_congr fun i _ hi => hs i hi
        rw [slice_add,hfi,hsl,ha,← htl,take_of_length_le le_rfl,take_append]
        exact congrArg (· ++ _) (take_of_length_le (by omega)).symm
      · rw [hs i (by omega)]
        exact write_below buf _ hi

/-- Each chunk has a length that `tfw_str_to_cstr()` can count in an `int`. -/
def TfwStrForm.Narrow (s : TfwStrForm) : Prop := ∀chunk∈s.chunks,chunk.length<2^31

instance (s : TfwStrForm) : Decidable s.Narrow := inferInstanceAs (Decidable (∀chunk∈s.chunks,_))

lemma len_eq (s : TfwStrForm) : s.len=s.chunks.flatten.length := rfl

lemma tfwStrToCstr_spec {s : TfwStrForm} (buf : Buf) (out size : Nat) (hn : s.Narrow) (hp : 0<size)
    (hr : out+size≤bufSize) : ∃buf',tfwStrToCstr s buf out size=.ok (buf',min (size-1) s.len) ∧
      slice buf' out (min (size-1) s.len)=s.copied.take (size-1) ∧ SameBelow out buf buf' ∧
      buf' (out+min (size-1) s.len)=0 := by
  obtain ⟨buf1,hl,hs,hsa⟩ := strToCstrLoop_spec buf out (size - 1) hn (by omega)
  rw [← len_eq] at hl hs
  refine ⟨write buf1 (out+min (size-1) s.len) [0],?_,?_,?_,by simp [write]⟩
  · unfold tfwStrToCstr
    rw [if_neg (Nat.pos_iff_ne_zero.1 hp),hl,ok_bind]
    dsimp only
    rw [put_ok (by rw [length_singleton]; omega),ok_bind,Nat.add_sub_cancel_left]
  · change _ = s.copied.take (size-1) at hs
    rw [← hs]
    exact slice_congr fun i _ hi => write_below _ _ hi
  · intro i hi
    rw [write_below _ _ (by omega)]
    exact hsa i hi

/-- The place of one string behind position `p`: a cut string needs `limit` characters; a string that is not cut and
that is copied needs one more than its length, unless it is empty. -/
def Lodged (limit p : Nat) (s : TfwStrForm) : Prop :=
  if limit ≤ s.len then p+limit≤bufSize
  else match s with
    | .plain _ => True
    | .compound first rest => (s.len=0 ∨ p+s.len<bufSize) ∧ ∀chunk∈first::rest,Unbroken chunk

/-- The characters of a field when strings from `limit` characters on are cut -/
def shownLen (limit : Nat) (s : TfwStrForm) : Nat := min s.len limit

/-- The characters of a field that go to the buffer -/
def taken (limit : Nat) (s : TfwStrForm) : Nat :=
  match s with
  | .plain data => if data.length<limit then 0 else limit
  | .compound _ _ => shownLen limit s

/-- All strings have their places, one behind the other. -/
def Placed (limit : Nat) : Nat → List TfwStrForm → Prop
  | _, [] => True
  | p, s::ss => Lodged limit p s ∧ Placed limit (p+taken limit s) ss

instance (limit p : Nat) (s : TfwStrForm) : Decidable (Lodged limit p s) := by
  unfold Lodged
  cases s <;> infer_instance

instance (limit p : Nat) (ins : List TfwStrForm) : Decidable (Placed limit p ins) := by
  induction ins generalizing p with
  | nil => exact instDecidableTrue
  | cons s ss ih => exact @instDecidableAnd _ _ _ (ih _)

/-- What a step makes of one string. -/
structure FieldOk (limit : Nat) (s : TfwStrForm) (buf : Buf) (p : Nat) (r : BasicStr×Buf×Nat) : Prop where
  same : SameBelow p buf r.2.1
  le : p≤r.2.2
  text : ∀buf',SameBelow r.2.2 r.2.1 buf' → r.1.text s buf'=r.1.text s r.2.1
  whole : Lodged limit p s ↔ (s.len<limit → r.1.text s r.2.1=s.data)
  next : Lodged limit p s → r.1.len=shownLen limit s ∧ r.2.2=p+taken limit s

variable {p limit : Nat} {buf : Buf} {s : TfwStrForm} {ins : List TfwStrForm}
lemma SameBelow.trans {q : Nat} {buf' buf'' : Buf} (h : SameBelow p buf buf') (h' : SameBelow q buf' buf'')
    (hle : p≤q) : SameBelow p buf buf'' := fun i hi => (h' i (hi.trans_le hle)).trans (h i hi)

lemma makePlain_spec (buf : Buf) (p : Nat) (hn : s.Narrow) (hl : s.len<limit) :
    ∃r,makePlain buf p s=.ok r ∧ FieldOk limit s buf p r := by
  cases s with
  | plain data =>
    have hd : (plain data).data=data := append_nil data
    have hlo : Lodged limit p (plain data) := by
      unfold Lodged
      rw [if_neg (Nat.not_le.2 hl)]
      trivial
    rw [TfwStrForm.len,hd] at hl
    refine ⟨_,rfl,fun _ _ => rfl,le_rfl,fun _ _ => rfl,⟨fun _ _ => ?_,fun _ => hlo⟩,fun _ => ⟨?_,?_⟩⟩
    · change (plain data).data.take data.length=_
      rw [hd,take_of_length_le le_rfl]
    · rw [shownLen,TfwStrForm.len,hd,min_eq_left hl.le]
    · rw [taken,if_pos hl,Nat.add_zero]
  | compound first rest =>
    obtain ⟨s,hs⟩ : ∃s,s=compound first rest := ⟨_,rfl⟩
    have hlo : Lodged limit p s ↔ (s.len=0 ∨ p+s.len<bufSize) ∧ s.copied=s.data := by
      rw [copied_eq_iff,hs,Lodged,if_neg (Nat.not_le.2 hl)]
      rfl
    have hta : taken limit s = s.len := by
      rw [hs,taken,shownLen,min_eq_left hl.le]
    have hsh : shownLen limit s = s.len := by
      rw [hs,shownLen,min_eq_left hl.le]
    have hlen := length_copied s
    rw [← hs] at hn hl ⊢
    by_cases hp : p<bufSize
    · obtain ⟨buf',hok,hsl,hsa,-⟩ := tfwStrToCstr_spec buf p (bufSize - p) hn (by omega) (by omega)
      refine ⟨(⟨.buf p,min (bufSize-p-1) s.len⟩,buf',p+min (bufSize-p-1) s.len),?_,hsa,Nat.le_add_right _ _,?_,?_,?_⟩
      · rw [hs] at hok ⊢
        rw [makePlain,if_pos hp,hok,ok_bind]
      · exact fun buf'' hs' => slice_congr fun i _ hi => hs' i hi
      · change _ ↔ (_ → slice buf' p _ = _)
        rw [hsl,hlo]
        constructor
        · rintro ⟨hr,hc⟩ -
          rw [take_of_length_le (by omega),hc]
        · intro ht
          have h := ht hl
          have hle := congrArg length h
          rw [length_take] at hle
          change _ = s.len at hle
          rw [take_of_length_le (by omega)] at h
          exact ⟨by omega,h⟩
      · intro h
        have := (hlo.1 h).1
        rw [hta,hsh]
        exact ⟨by change min _ _ = _; omega,by change p+min _ _ = _; omega⟩
    · refine ⟨(⟨.empty,0⟩,buf,p),by rw [hs,makePlain,if_neg hp],fun _ _ => rfl,le_rfl,fun _ _ => rfl,?_,?_⟩
      · change _ ↔ (_ → [] = _)
        rw [hlo]
        constructor
        · rintro ⟨hr,-⟩ -
          have h0 : s.data.length=0 := by
            change s.len = 0
            omega
          exact (length_eq_zero_iff.1 h0).symm
        · intro ht
          have h0 : s.len=0 := congrArg length (ht hl).symm
          refine ⟨.inl h0,?_⟩
          rw [← ht hl]
          exact length_eq_zero_iff.1 (hlen.trans h0)
      · intro h
        have := (hlo.1 h).1
        rw [hta,hsh]
        exact ⟨by change 0 = _; omega,by change p = _; omega⟩

lemma lodged_of_cut (hl : limit ≤ s.len) : Lodged limit p s ↔ p+limit≤bufSize := by
  unfold Lodged
  rw [if_pos hl]

lemma cut_spec (buf : Buf) (hn : s.Narrow) (hli : 4≤limit) (hl : limit ≤ s.len) (hr : p+limit≤bufSize) :
    ∃r,cut limit buf p s=.ok r ∧ FieldOk limit s buf p r := by
  obtain ⟨buf1,hok,-,hsa,-⟩ := tfwStrToCstr_spec buf p limit hn (by omega) hr
  have hp : put buf1 (p+limit-3) dots=.ok (write buf1 (p+limit-3) dots) := by
    refine put_ok ?_
    simp only [dots,length_cons,length_nil]
    omega
  refine ⟨(⟨.buf p,limit⟩,write buf1 (p+limit-3) dots,p+limit),?_,fun i hi => ?_,Nat.le_add_right _ _,
    fun buf' hs' => slice_congr fun i _ hi => hs' i hi,?_,fun _ => ⟨(min_eq_right hl).symm,?_⟩⟩
  · rw [cut,hok,ok_bind]
    dsimp only
    rw [hp,ok_bind]
  · change write buf1 (p+limit-3) dots i=buf i
    rw [write_below _ _ (by omega)]
    exact hsa i hi
  · exact ⟨fun _ h => absurd h (Nat.not_lt.2 hl),fun _ => (lodged_of_cut hl).2 hr⟩
  · cases s with
    | plain data =>
      have hd : (plain data).len=data.length := congrArg length (append_nil data)
      rw [taken,if_neg (by omega)]
    | compound first rest => rw [taken,shownLen,min_eq_right hl]

lemma cut_error (hr : bufSize<p+limit) (r : BasicStr×Buf×Nat) : cut limit buf p s ≠ .ok r := by
  intro h
  obtain ⟨⟨buf1,n⟩,-,h⟩ := bind_eq_ok.1 h
  obtain ⟨buf2,hp,-⟩ := bind_eq_ok.1 h
  rw [put,if_neg (by simp only [dots,length_cons,length_nil]; omega)] at hp
  cases hp

lemma cutOrPlain_spec (buf : Buf) (p : Nat) (hn : s.Narrow) (hli : 4≤limit) :
    (¬Lodged limit p s ∧ ∀r,cutOrPlain limit buf p s ≠ .ok r) ∨
      ∃r,cutOrPlain limit buf p s=.ok r ∧ FieldOk limit s buf p r := by
  unfold cutOrPlain
  by_cases hl : s.len<limit
  · rw [if_pos hl]
    exact .inr (makePlain_spec buf p hn hl)
  · rw [if_neg hl,lodged_of_cut (Nat.le_of_not_lt hl)]
    by_cases hr : p+limit≤bufSize
    · exact .inr (cut_spec buf hn hli (Nat.le_of_not_lt hl) hr)
    · exact .inl ⟨hr,cut_error (Nat.lt_of_not_le hr)⟩

/-- The strings shorter than `limit` are reproduced completely. -/
def Complete (limit : Nat) (ins : List TfwStrForm) (r : List BasicStr×Buf) : Prop :=
  Forall₂ (fun s text => s.len<limit → text=s.data) ins (texts ins r)

lemma eachField_same (hna : ∀s∈ins,s.Narrow) (hli : 4≤limit) {r : List BasicStr×Buf}
    (h : eachField (cutOrPlain limit) ins buf p=.ok r) : SameBelow p buf r.2 := by
  induction ins generalizing buf p r with
  | nil =>
    cases h
    exact fun _ _ => rfl
  | cons s ss ih =>
    obtain ⟨hs,hss⟩ := forall_mem_cons.1 hna
    obtain ⟨f,hf,h⟩ := bind_eq_ok.1 h
    obtain ⟨rs,hrs,h⟩ := bind_eq_ok.1 h
    obtain ⟨-,he⟩ | ⟨f',hf',hfo⟩ := cutOrPlain_spec buf p hs hli
    · exact absurd hf (he f)
    · cases hf.symm.trans hf'
      cases h
      have hsa := ih hss hrs
      exact hfo.same.trans hsa hfo.le

/-- The loop over the strings succeeds and reproduces what it does not cut exactly if each string has its place. -/
lemma eachField_iff (buf : Buf) (p : Nat) (hna : ∀s∈ins,s.Narrow) (hli : 4≤limit) :
    (∃r,eachField (cutOrPlain limit) ins buf p=.ok r ∧ Complete limit ins r) ↔ Placed limit p ins := by
  induction ins generalizing buf p with
  | nil => exact ⟨fun _ => trivial,fun _ => ⟨([],buf),rfl,.nil⟩⟩
  | cons s ss ih =>
    obtain ⟨hs,hss⟩ := forall_mem_cons.1 hna
    obtain ⟨hno,he⟩ | ⟨⟨out,buf1,p1⟩,hok,hf⟩ := cutOrPlain_spec buf p hs hli
    · refine ⟨?_,fun h => absurd h.1 hno⟩
      rintro ⟨r,hr,-⟩
      obtain ⟨f,hf,-⟩ := bind_eq_ok.1 hr
      exact absurd hf (he f)
    · have hstep (outs : List BasicStr) (buf2 : Buf)
          (hr : eachField (cutOrPlain limit) ss buf1 p1=.ok (outs,buf2)) :
          eachField (cutOrPlain limit) (s::ss) buf p=.ok (out::outs,buf2) ∧
            (Complete limit (s::ss) (out::outs,buf2) ↔ Lodged limit p s ∧ Complete limit ss (outs,buf2)) := by
        refine ⟨by simp only [eachField,hok,hr,ok_bind],?_⟩
        unfold Complete texts
        rw [zipWith_cons_cons,forall₂_cons,hf.text buf2 (eachField_same hss hli hr),hf.whole]
      constructor
      · rintro ⟨r,hr,hc⟩
        obtain ⟨f,hf',h⟩ := bind_eq_ok.1 hr
        cases hok.symm.trans hf'
        obtain ⟨⟨outs,buf2⟩,hrs,h⟩ := bind_eq_ok.1 h
        cases h
        obtain ⟨hlo,hcs⟩ := (hstep outs buf2 hrs).2.1 hc
        refine ⟨hlo,?_⟩
        rw [← (hf.next hlo).2]
        exact (ih buf1 p1 hss).1 ⟨_,hrs,hcs⟩
      · rintro ⟨hlo,hpl⟩
        rw [← (hf.next hlo).2] at hpl
        obtain ⟨⟨outs,buf2⟩,hrs,hcs⟩ := (ih buf1 p1 hss).2 hpl
        obtain ⟨hr,hc⟩ := hstep outs buf2 hrs
        exact ⟨_,hr,hc.2 ⟨hlo,hcs⟩⟩

lemma eachField_lens (hna : ∀s∈ins,s.Narrow) (hli : 4≤limit) {r : List BasicStr×Buf}
    (h : eachField (cutOrPlain limit) ins buf p=.ok r) (hpl : Placed limit p ins) :
    r.1.map BasicStr.len=ins.map (shownLen limit) := by
  induction ins generalizing buf p r with
  | nil =>
    cases h
    rfl
  | cons s ss ih =>
    obtain ⟨hs,hss⟩ := forall_mem_cons.1 hna
    obtain ⟨f,hf,h⟩ := bind_eq_ok.1 h
    obtain ⟨rs,hrs,h⟩ := bind_eq_ok.1 h
    obtain ⟨-,he⟩ | ⟨f',hf',hfo⟩ := cutOrPlain_spec buf p hs hli
    · exact absurd hf (he f)
    · cases hf.symm.trans hf'
      cases h
      obtain ⟨hln,hnx⟩ := hfo.next hpl.1
      rw [map_cons,map_cons,hln,ih hss hrs (hnx ▸ hpl.2)]

lemma eachField_plain (h : ∀s∈ins,s.len<limit) :
    eachField makePlain ins buf p=eachField (cutOrPlain limit) ins buf p := by
  induction ins generalizing buf p with
  | nil => rfl
  | cons s ss ih =>
    obtain ⟨hs,hss⟩ := forall_mem_cons.1 h
    rw [eachField,eachField,cutOrPlain,if_pos hs]
    refine congrArg (makePlain buf p s >>= ·) (funext fun r => ?_)
    obtain ⟨out,buf',p'⟩ := r
    dsimp only
    rw [ih hss]

lemma sum_len_lt {m : Nat} (h : ∀s∈ins,s.len < m) : (ins.map len).sum+ins.length ≤ ins.length*m := by
  induction ins with
  | nil => exact zero_le
  | cons s ss ih =>
    obtain ⟨hs,hss⟩ := forall_mem_cons.1 h
    have := ih hss
    rw [map_cons,sum_cons,length_cons,add_mul,one_mul]
    omega

lemma sum_lt_of_truncatedCount {avail : Nat} (hl : ins.length=fieldsCount)
    (h : truncatedCount ins avail=0) : (ins.map len).sum<avail := by
  have hsh : ∀s∈ins,s.len<avail/fieldsCount := by
    intro s hs
    have hn := countP_eq_zero.1 h s hs
    rw [decide_eq_true_eq] at hn
    exact lt_of_not_ge hn
  have hsu := sum_len_lt hsh
  rw [hl] at hsu
  unfold fieldsCount at hsu
  omega

lemma put_meets (buf : Buf) (pos : Nat) (bs : Bytes) : Meets (· ≠ .divZero) (fun _ => True) (put buf pos bs) := by
  unfold put
  split_ifs
  · trivial
  · exact nofun

lemma strToCstrLoop_meets (chunks : List Bytes) (buf : Buf) (pos size : Nat) :
    Meets (· ≠ .divZero) (fun _ => True) (strToCstrLoop chunks buf pos size) := by
  induction chunks generalizing buf pos size with
  | nil => trivial
  | cons chunk chunks ih =>
    rw [strToCstrLoop]
    split
    · exact nofun
    · refine (put_meets _ _ _).bind fun buf' _ => ?_
      split_ifs
      · trivial
      · exact ih _ _ _

lemma tfwStrToCstr_meets (s : TfwStrForm) (buf : Buf) (out size : Nat) :
    Meets (· ≠ .divZero) (fun _ => True) (tfwStrToCstr s buf out size) := by
  unfold tfwStrToCstr
  split_ifs
  · exact nofun
  · exact (strToCstrLoop_meets _ _ _ _).bind fun _ _ => (put_meets _ _ _).bind fun _ _ => trivial

lemma makePlain_meets (buf : Buf) (p : Nat) (s : TfwStrForm) :
    Meets (· ≠ .divZero) (fun _ => True) (makePlain buf p s) := by
  cases s with
  | plain data => trivial
  | compound first rest =>
    unfold makePlain
    dsimp only
    split_ifs
    · exact (tfwStrToCstr_meets _ _ _ _).bind fun _ _ => trivial
    · trivial

lemma cutOrPlain_meets (limit : Nat) (buf : Buf) (p : Nat) (s : TfwStrForm) :
    Meets (· ≠ .divZero) (fun _ => True) (cutOrPlain limit buf p s) := by
  unfold cutOrPlain
  split_ifs
  · exact makePlain_meets _ _ _
  · exact (tfwStrToCstr_meets _ _ _ _).bind fun _ _ => (put_meets _ _ _).bind fun _ _ => trivial

lemma eachField_meets {f : Buf → Nat → TfwStrForm → Except Stop (BasicStr×Buf×Nat)}
    (hf : ∀buf p s,Meets (· ≠ .divZero) (fun _ => True) (f buf p s)) (ins : List TfwStrForm) (buf : Buf) (p : Nat) :
    Meets (· ≠ .divZero) (fun _ => True) (eachField f ins buf p) := by
  induction ins generalizing buf p with
  | nil => trivial
  | cons s ss ih => exact (hf _ _ _).bind fun _ _ => (ih _ _).bind fun _ _ => trivial

/-- The length from which on strings are cut -/
def limitOf (ins : List TfwStrForm) (usedChars : Nat) : Nat :=
  (bufSize-usedChars)/truncatedCount ins (bufSize-usedChars)

lemma len_le_sum (hs : s∈ins) : s.len≤(ins.map len).sum := single_le_sum (fun _ _ => zero_le) _ (mem_map_of_mem hs)

lemma length_noBufferSpace (ins : List TfwStrForm) (buf : Buf) :
    ((noBufferSpace ins buf).1.map BasicStr.len).sum=0 := by
  unfold noBufferSpace
  rw [map_map,List.sum_eq_zero_iff_forall_eq_nat]
  intro n hn
  obtain ⟨s,-,hs⟩ := mem_map.1 hn
  exact hs.symm

/-- All strings are taken to fit, by the sum of the lengths in an `unsigned`. -/
def Untouched (ins : List TfwStrForm) (usedChars : Nat) : Prop := ((ins.map len).sum%2^32+usedChars)%2^32<bufSize

instance (ins : List TfwStrForm) (usedChars : Nat) : Decidable (Untouched ins usedChars) :=
  inferInstanceAs (Decidable (_<_))

/-- The string is logged as it is. -/
def Uncut (ins : List TfwStrForm) (usedChars : Nat) (s : TfwStrForm) : Prop :=
  usedChars<bufSize ∧ (Untouched ins usedChars ∨ 4≤limitOf ins usedChars ∧ s.len<limitOf ins usedChars)

/-- All writes are within the buffer, the fields and what is used already fit into it, and the strings that are not cut
are reproduced completely. -/
def LogsRight (ins : List TfwStrForm) (buf : Buf) (p usedChars : Nat) : Prop :=
  ∃r,processTruncated ins buf p usedChars=.ok r ∧ (r.1.map BasicStr.len).sum+usedChars≤bufSize ∧
    Forall₂ (fun s text => Uncut ins usedChars s → text=s.data) ins (texts ins r)

/-- The strings have room behind position `p` when they are cut from `limit` characters on. -/
def HasRoom (limit : Nat) (ins : List TfwStrForm) (p usedChars : Nat) : Prop :=
  (ins.map (shownLen limit)).sum+usedChars≤bufSize ∧ Placed limit p ins

instance (limit : Nat) (ins : List TfwStrForm) (p usedChars : Nat) : Decidable (HasRoom limit ins p usedChars) :=
  inferInstanceAs (Decidable (_ ∧ _))

def FieldsFit (ins : List TfwStrForm) (p usedChars : Nat) : Prop :=
  usedChars=bufSize ∨ usedChars<bufSize ∧
    if (ins.map len).sum+usedChars<bufSize then HasRoom bufSize ins p usedChars
    else ¬Untouched ins usedChars ∧
      (limitOf ins usedChars<4 ∨ HasRoom (limitOf ins usedChars) ins p usedChars)

instance (ins : List TfwStrForm) (p usedChars : Nat) : Decidable (FieldsFit ins p usedChars) :=
  inferInstanceAs (Decidable (_ ∨ _ ∧ ite _ _ _))

lemma forall₂_texts_noBufferSpace {P : TfwStrForm → Bytes → Prop} (buf : Buf) (h : ∀s∈ins,P s []) :
    Forall₂ P ins (texts ins (noBufferSpace ins buf)) := by
  have ht : texts ins (noBufferSpace ins buf)=ins.map fun _ => [] := by
    unfold texts noBufferSpace
    rw [zipWith_map_left,zipWith_self]
    rfl
  rw [ht,forall₂_map_right_iff,forall₂_same]
  exact h

lemma logsRight_noBufferSpace {usedChars : Nat} (hok : processTruncated ins buf p usedChars=.ok (noBufferSpace ins buf))
    (hcut : ∀s,¬Uncut ins usedChars s) : LogsRight ins buf p usedChars ↔ usedChars≤bufSize := by
  constructor
  · rintro ⟨r,-,hl,-⟩
    omega
  · intro hu
    refine ⟨_,hok,?_,forall₂_texts_noBufferSpace buf fun s _ h => absurd h (hcut s)⟩
    rw [length_noBufferSpace]
    omega

lemma logsRight_eachField {usedChars : Nat} (hna : ∀s∈ins,s.Narrow) (hli : 4≤limit)
    (hok : processTruncated ins buf p usedChars=eachField (cutOrPlain limit) ins buf p)
    (hcut : ∀s∈ins,Uncut ins usedChars s ↔ s.len<limit) :
    LogsRight ins buf p usedChars ↔ HasRoom limit ins p usedChars := by
  have hco (r : List BasicStr×Buf) :
      Forall₂ (fun s text => Uncut ins usedChars s → text=s.data) ins (texts ins r) ↔ Complete limit ins r := by
    unfold Complete
    constructor
    · intro h
      exact ((forall₂_and_left ins _).2 ⟨fun _ hs => hs,h⟩).imp fun s text hs hl => hs.2 ((hcut s hs.1).2 hl)
    · intro h
      exact ((forall₂_and_left ins _).2 ⟨fun _ hs => hs,h⟩).imp fun s text hs hl => hs.2 ((hcut s hs.1).1 hl)
  have hiff := eachField_iff buf p hna hli
  unfold LogsRight HasRoom
  rw [hok]
  constructor
  · rintro ⟨r,hr,hl,ht⟩
    have hpl := hiff.1 ⟨r,hr,(hco r).1 ht⟩
    rw [eachField_lens hna hli hr hpl] at hl
    exact ⟨hl,hpl⟩
  · rintro ⟨hl,hpl⟩
    obtain ⟨r,hr,hc⟩ := hiff.2 hpl
    refine ⟨r,hr,?_,(hco r).2 hc⟩
    rwa [eachField_lens hna hli hr hpl]

lemma untouched_of_lt {usedChars : Nat} (h : (ins.map len).sum+usedChars<bufSize) : Untouched ins usedChars := by
  unfold Untouched bufSize at *
  omega

lemma shownLen_whole (h : ∀s∈ins,s.len<limit) : ins.map (shownLen limit)=ins.map len :=
  map_congr_left fun s hs => min_eq_left (h s hs).le

lemma processTruncated_ne_divZero (buf : Buf) (p usedChars : Nat) (hlength : ins.length=fieldsCount) :
    processTruncated ins buf p usedChars ≠ .error .divZero := by
  have hme : Meets (· ≠ .divZero) (fun _ => True) (processTruncated ins buf p usedChars) := by
    unfold processTruncated
    split_ifs with hu
    · trivial
    dsimp only
    split_ifs with hfi h0
    · exact eachField_meets makePlain_meets _ _ _
    · have hsu := sum_lt_of_truncatedCount hlength h0
      exact absurd (untouched_of_lt (by omega)) hfi
    · trivial
    · exact eachField_meets (cutOrPlain_meets _) _ _ _
  intro hd
  rw [hd] at hme
  exact hme rfl

/-- `process_truncated()` never divides by zero. It stays within the buffer and reproduces the strings that it does not
cut exactly if the fields fit. -/
theorem process_truncated_fits {ins : List TfwStrForm} (buf : Buf) (p usedChars : Nat)
    (hlength : ins.length=fieldsCount) :
    processTruncated ins buf p usedChars ≠ .error .divZero ∧
      ((∀s∈ins,s.Narrow) → (LogsRight ins buf p usedChars ↔ FieldsFit ins p usedChars)) := by
  refine ⟨processTruncated_ne_divZero buf p usedChars hlength,fun hna => ?_⟩
  unfold FieldsFit
  by_cases hfu : bufSize≤usedChars
  · rw [logsRight_noBufferSpace (if_pos hfu) fun s h => absurd h.1 (Nat.not_lt.2 hfu)]
    omega
  have hu : usedChars<bufSize := Nat.lt_of_not_le hfu
  have hne : usedChars≠bufSize := hu.ne
  rw [or_iff_right hne,and_iff_right hu]
  have hplain (limit : Nat) (hw : Untouched ins usedChars) (hli : 4≤limit) (hs : ∀s∈ins,s.len<limit) :
      LogsRight ins buf p usedChars ↔ HasRoom limit ins p usedChars := by
    refine logsRight_eachField hna hli ?_ fun s hs' => ⟨fun _ => hs s hs',fun _ => ⟨hu,.inl hw⟩⟩
    rw [processTruncated,if_neg hfu,← eachField_plain hs]
    exact if_pos hw
  by_cases ha : (ins.map len).sum+usedChars<bufSize
  · rw [if_pos ha]
    refine hplain bufSize (untouched_of_lt ha) (by decide) fun s hs => ?_
    have := len_le_sum hs
    omega
  rw [if_neg ha]
  by_cases hw : Untouched ins usedChars
  · -- the sum wraps: what is taken to fit has more than the buffer
    have hs : ∀s∈ins,s.len<(ins.map len).sum+bufSize := fun s hs => by
      have := len_le_sum hs
      unfold bufSize
      omega
    rw [hplain _ hw (by unfold bufSize; omega) hs]
    refine iff_of_false ?_ fun h => h.1 hw
    rintro ⟨hl,-⟩
    rw [shownLen_whole hs] at hl
    unfold Untouched bufSize at *
    omega
  have hcn : truncatedCount ins (bufSize-usedChars)≠0 := by
    intro h0
    have := sum_lt_of_truncatedCount hlength h0
    omega
  have hpr : processTruncated ins buf p usedChars = if limitOf ins usedChars<4 then .ok (noBufferSpace ins buf)
      else eachField (cutOrPlain (limitOf ins usedChars)) ins buf p := by
    rw [processTruncated,if_neg hfu]
    dsimp only
    exact (if_neg hw).trans (if_neg hcn)
  rw [and_iff_right hw]
  by_cases hl : limitOf ins usedChars<4
  · rw [logsRight_noBufferSpace (hpr.trans (if_pos hl)) ?_]
    · exact iff_of_true hu.le (.inl hl)
    · rintro s ⟨-,h | h⟩
      · exact hw h
      · omega
  · rw [logsRight_eachField hna (Nat.le_of_not_lt hl) (hpr.trans (if_neg hl)) ?_,or_iff_right hl]
    intro s _
    unfold Uncut
    constructor
    · rintro ⟨-,h | h⟩
      · exact absurd h hw
      · exact h.2
    · exact fun h => ⟨hu,.inr ⟨Nat.le_of_not_lt hl,h⟩⟩

/-- Two strings of 500 characters share the space and fill it, and a string in one chunk behind them is empty. -/
theorem process_truncated_fits_two_cut :
    LogsRight [.plain (replicate 500 97),.compound (replicate 500 97) [],.plain [],.compound [] []]
      (fun _ => 0) 160 160 :=
  ((process_truncated_fits (fun _ => 0) 160 160 rfl).2 (by decide +kernel)).2 (by decide +kernel)

/-- 160 characters are used, 39 of them at the start of the buffer. -/
theorem process_truncated_overflows : (processTruncated [.plain (replicate 3 97),.plain (replicate 1000 97),
        .compound (replicate 190 97) [],.plain (replicate 1000 97)] (fun _ => 0) 39 160).map
          (fun r => r.1.map BasicStr.len)=.error .overflow ∧
    (processTruncated [.plain (replicate 3 97),.plain (replicate 1000 97),
        .plain (replicate 1 97),.plain (replicate 6 97)] (fun _ => 0) 39 160).map
          (fun r => r.1.map BasicStr.len)=.ok [3,800,1,6] := by
  refine ⟨?_,?_⟩ <;> decide +kernel
end VetWaf.AccessLog
