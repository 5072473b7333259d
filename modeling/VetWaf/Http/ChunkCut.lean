import VetWaf.Http.BodyMachine
import VetWaf.Rfc7230.Chunked

namespace VetWaf.Http.BodyMachine
open List Fragments Transducer Rfc7230 Nat

def mark (ph : Phase) (c : UInt8) : Phase×List Bool := (next ph c,if ph.live then [ph.frames] else [])

lemma feed_step_eq (ph : Phase) (xs : List (Pos×UInt8)) : feed step ph xs=feed mark ph (xs.map Prod.snd) := by
  induction xs generalizing ph with
  | nil => rfl
  | cons x xs ih => exact ih (next ph x.2)

lemma emit_step_eq (ph : Phase) (xs : List (Pos×UInt8)) :
    emit step ph xs=(xs.map Prod.fst).zip (emit mark ph (xs.map Prod.snd)) := by
  induction xs generalizing ph with
  | nil => rfl
  | cons x xs ih =>
    rw [emit_cons,map_cons,map_cons,emit_cons,step,mark,ih]
    cases hl : ph.live with
    | true => rfl
    | false =>
      have hst : next ph x.2=ph := by
        cases ph with
        | done => rfl
        | dropped => rfl
        | _ => cases hl
      have hs : emit mark ph (xs.map Prod.snd)=[] := by
        cases ph with
        | done => exact emit_absorbing mark (fun _ => rfl) _
        | dropped => exact emit_absorbing mark (fun _ => rfl) _
        | _ => cases hl
      simp [hst,hs]

lemma feed_mark_done (bs : Bytes) : feed mark .done bs=.done := feed_absorbing mark (fun _ => rfl) bs
lemma emit_mark_done (bs : Bytes) : emit mark .done bs=[] := emit_absorbing mark (fun _ => rfl) bs
lemma feed_mark_dropped (bs : Bytes) : feed mark .dropped bs=.dropped := feed_absorbing mark (fun _ => rfl) bs

/-- Reading `bs` takes the machine from `ph` to `ph'` and marks every byte `m`. -/
def Reads (m : Bool) (ph : Phase) (bs : Bytes) (ph' : Phase) : Prop :=
  feed mark ph bs=ph' ∧ emit mark ph bs=replicate bs.length m

lemma Reads.nil (m : Bool) (ph : Phase) : Reads m ph [] ph := ⟨rfl,rfl⟩

variable {m : Bool} {ph ph' ph'' : Phase} {bs : Bytes} {c : UInt8} {acc cnt : Nat} {xs : List (Pos×UInt8)}
lemma Reads.append {as : Bytes} (h : Reads m ph as ph') (h' : Reads m ph' bs ph'') : Reads m ph (as++bs) ph'' := by
  refine ⟨?_,?_⟩
  · rw [feed_append,h.1,h'.1]
  · rw [emit_append,h.1,h.2,h'.2,replicate_append_replicate,length_append]

lemma Reads.cons (hl : ph.live=true) (hf : ph.frames=m) (hn : next ph c=ph')
    (h : Reads m ph' bs ph'') : Reads m ph (c::bs) ph'' := by
  refine ⟨?_,?_⟩
  · rw [feed_cons,mark,hn]
    exact h.1
  · rw [emit_cons,mark,hn,if_pos hl,hf,h.2]
    rfl

/-- A size line the parser can take. -/
def Fits (l : SizeLine) : Prop := l.digits.length≤16 ∧ l.size≤longMax

lemma hexShift_eq (hc : isHexdig c=true) (hcn : cnt<16) (ha : acc<16^cnt) :
    hexShift acc c=acc*16+hexDigit c ∧ acc*16+hexDigit c<16^(cnt+1) := by
  have hd : (c &&& 0xf).toNat+(c >>> 6).toNat*9=hexDigit c ∧ hexDigit c<16 := by
    revert hc
    apply forall_byte (P := fun c => isHexdig c=true → (c &&& 0xf).toNat+(c >>> 6).toNat*9=hexDigit c ∧ hexDigit c<16)
    decide +kernel
  have hb : acc*16+hexDigit c<16^(cnt+1) := by
    rw [pow_succ]
    omega
  have hle : 16^(cnt+1)≤2^64 := by
    calc 16^(cnt+1)≤16^16 := Nat.pow_le_pow_right (by decide) hcn
      _ = 2^64 := by decide
  refine ⟨?_,hb⟩
  rw [hexShift,add_assoc,hd.1]
  exact Word.trunc_of_lt (by omega)

lemma next_size_digit (hc : isHexdig c=true) : next (.size acc cnt) c =
      if cnt ≥ 16 then .dropped else .size (hexShift acc c) (cnt+1) := by
  have he := not_crlf_of_isxdigit c hc
  have hh : isxdigit c=true := hc
  rw [next,inSize,he,if_neg Bool.false_ne_true,if_neg (by simp [hh])]

variable {ds rest : Bytes} {k : Nat} {ms : List Bool} {segs : List Seg}
lemma reads_digits (hds : ∀c∈ds,isHexdig c=true) (hcn : cnt+ds.length≤16) (ha : acc<16^cnt) :
    Reads true (.size acc cnt) ds (.size (hexValueFrom acc ds) (cnt+ds.length)) := by
  induction ds generalizing acc cnt with
  | nil => exact Reads.nil _ _
  | cons c ds ih =>
    rw [length_cons] at hcn
    have hc := hds c (.head _)
    obtain ⟨hs,hb⟩ := hexShift_eq hc (show cnt<16 by omega) ha
    have hn : next (.size acc cnt) c=.size (acc*16+hexDigit c) (cnt+1) := by
      rw [next_size_digit hc,if_neg (by omega),hs]
    have hr := ih (fun d hd => hds d (mem_cons_of_mem c hd)) (by omega) hb
    have hl : cnt+1+ds.length=cnt+(c::ds).length := by
      rw [length_cons]
      omega
    rw [hl] at hr
    exact Reads.cons rfl rfl hn hr

lemma feed_digits_dropped (hds : ∀c∈ds,isHexdig c=true)
    (hc : cnt≤16) (hl : 16<cnt+ds.length) : feed mark (.size acc cnt) ds=.dropped := by
  induction ds generalizing acc cnt with
  | nil =>
    rw [length_nil] at hl
    omega
  | cons c ds ih =>
    rw [feed_cons,mark,next_size_digit (hds c mem_cons_self)]
    by_cases hf : cnt ≥ 16
    · rw [if_pos hf]
      exact feed_mark_dropped ds
    · rw [if_neg hf]
      rw [length_cons] at hl
      exact ih (fun d hd => hds d (mem_cons_of_mem c hd)) (by omega) (by omega)

lemma feed_start_digit (hc : isHexdig c=true) (bs : Bytes) : feed mark .start (c::bs)=feed mark (.size 0 0) (c::bs) ∧
      emit mark .start (c::bs)=emit mark (.size 0 0) (c::bs) := by
  have hh : isxdigit c=true := hc
  have hn : next .start c=next (.size 0 0) c := by rw [next,if_neg (by simp [hh]),next]
  rw [feed_cons,feed_cons,emit_cons,emit_cons,mark,mark,hn]
  exact ⟨rfl,rfl⟩

lemma reads_ext (hb : ∀c∈bs,c=semicolon ∨ c=equals ∨ isToken c) : Reads true (.ext k) bs (.ext k) := by
  induction bs with
  | nil => exact Reads.nil _ _
  | cons c bs ih =>
    have hn : next (.ext k) c=.ext k := by rw [next,inExt,if_pos (hb c mem_cons_self)]
    exact Reads.cons rfl rfl hn (ih fun d hd => hb d (mem_cons_of_mem c hd))

lemma isToken_of_isTchar (c : UInt8) : isTchar c=true → isToken c=true := by
  apply forall_byte (P := fun c => isTchar c=true → isToken c=true)
  decide +kernel

variable (l : SizeLine) (b : ChunkedBody)
lemma extBytes_chars : ∀c∈l.extBytes,c=semicolon ∨ c=equals ∨ isToken c := by
  intro c hc
  obtain ⟨e,-,hce⟩ := mem_flatMap.1 hc
  have hto (t : Token) (ht : c∈t.bytes) : isToken c=true := isToken_of_isTchar c (t.tchars c ht)
  obtain hn | hva := mem_append.1 hce
  · obtain hs | hn := mem_cons.1 hn
    · exact Or.inl hs
    · exact Or.inr (Or.inr (hto e.name hn))
  · cases hv : e.val with
    | none =>
      rw [hv] at hva
      cases hva
    | some v =>
      rw [hv] at hva
      obtain heq | hva := mem_cons.1 hva
      · exact Or.inr (Or.inl heq)
      · exact Or.inr (Or.inr (hto v hva))

lemma reads_eol {k : Option Nat} (e : Eol) (hl : ph.live=true)
    (hf : ph.frames=true) (hc : next ph Http.cr=.cr k) (hlf : next ph lf=lineEnd k) :
    Reads true ph e.bytes (lineEnd k) := by
  cases e with
  | crlf => exact Reads.cons hl hf hc (Reads.cons rfl rfl rfl (Reads.nil _ _))
  | lf => exact Reads.cons hl hf hlf (Reads.nil _ _)

lemma reads_line_rest {v n : Nat} (hv : v≤longMax) :
    Reads true (.size v n) (l.extBytes++l.eol.bytes) (lineEnd (some v)) := by
  have hs {c : UInt8} (hc : (isCrlf c || c=semicolon)=true) : next (.size v n) c=inExt v c := by
    rw [next,inSize,if_pos hc,if_neg (not_lt.2 hv)]
  cases he : l.exts with
  | nil =>
    have hn : l.extBytes=[] := by rw [SizeLine.extBytes,he,flatMap_nil]
    rw [hn,nil_append]
    apply reads_eol l.eol rfl rfl
    · rw [hs (by decide)]
      rfl
    · rw [hs (by decide)]
      rfl
  | cons e es =>
    have hch := extBytes_chars l
    obtain ⟨bs,hb⟩ : ∃bs,l.extBytes=semicolon::bs := by
      rw [SizeLine.extBytes,he,flatMap_cons]
      exact ⟨_,rfl⟩
    rw [hb] at hch ⊢
    have hnx : next (.size v n) semicolon=.ext v := by
      rw [hs (by decide)]
      rfl
    apply Reads.append
    · apply Reads.cons rfl rfl hnx
      exact reads_ext fun c hc => hch c (.tail _ hc)
    · exact reads_eol l.eol rfl rfl rfl rfl

lemma reads_sizeLine (h : Fits l) : Reads true .start l.bytes (lineEnd (some l.size)) := by
  obtain ⟨c,ds,hd⟩ := exists_cons_of_ne_nil l.digits_ne
  have hfi := l.hex c (by rw [hd]; exact .head _)
  have hdi : Reads true (.size 0 0) l.digits (.size l.size (0+l.digits.length)) :=
    reads_digits l.hex (by rw [zero_add]; exact h.1) (by decide)
  have ha := hdi.append (reads_line_rest l h.2)
  rw [← append_assoc] at ha
  obtain ⟨hf,he⟩ := feed_start_digit hfi (ds++l.extBytes++l.eol.bytes)
  have hb : l.bytes=c::(ds++l.extBytes++l.eol.bytes) := by
    rw [SizeLine.bytes,hd]
    rfl
  change Reads true (.size 0 0) l.bytes (lineEnd (some l.size)) at ha
  rw [hb] at ha ⊢
  exact ⟨hf.trans ha.1,he.trans ha.2⟩

lemma feed_sizeLine_dropped (h : ¬ Fits l) : feed mark .start l.bytes=.dropped := by
  obtain ⟨c,ds,hds⟩ := exists_cons_of_ne_nil l.digits_ne
  have hf := l.hex c (by rw [hds]; exact .head _)
  have hb : l.bytes=c::(ds++l.extBytes++l.eol.bytes) := by
    rw [SizeLine.bytes,hds]
    rfl
  rw [hb,(feed_start_digit hf _).1,← hb,SizeLine.bytes,append_assoc,feed_append]
  by_cases hl : l.digits.length≤16
  · have hbi : longMax<l.size := by
      by_contra hs
      exact h ⟨hl,not_lt.1 hs⟩
    have hdi : Reads true (.size 0 0) l.digits (.size l.size (0+l.digits.length)) :=
      reads_digits l.hex (by rw [zero_add]; exact hl) (by decide)
    rw [hdi.1]
    -- the first byte behind the digits finds the size too large
    obtain ⟨d,rest,hr,hd⟩ : ∃d rest,l.extBytes++l.eol.bytes=d::rest ∧ (isCrlf d || d=semicolon)=true := by
      cases he : l.exts with
      | nil =>
        rw [SizeLine.extBytes,he,flatMap_nil,nil_append]
        cases l.eol with
        | crlf => exact ⟨Http.cr,_,rfl,by decide⟩
        | lf => exact ⟨Http.lf,_,rfl,by decide⟩
      | cons e es =>
        rw [SizeLine.extBytes,he,flatMap_cons]
        exact ⟨semicolon,_,rfl,by decide⟩
    have hn : next (.size l.size (0+l.digits.length)) d=.dropped := by rw [next,inSize,if_pos hd,if_pos hbi]
    rw [hr,feed_cons,mark,hn]
    exact feed_mark_dropped rest
  · rw [feed_digits_dropped l.hex (by decide) (by omega)]
    exact feed_mark_dropped _

lemma reads_data (hk : 0<k) (hb : bs.length=k) : Reads false (.data k) bs .dataEnd := by
  induction bs generalizing k with
  | nil =>
    rw [length_nil] at hb
    omega
  | cons c bs ih =>
    rw [length_cons] at hb
    cases bs with
    | nil =>
      have ho : k=1 := hb.symm
      subst ho
      exact Reads.cons rfl rfl rfl (Reads.nil _ _)
    | cons d bs =>
      rw [length_cons] at hb
      have hn : next (.data k) c=.data (k-1) := by rw [next,if_neg (by omega)]
      exact Reads.cons rfl rfl hn (ih (by omega) (by rw [length_cons]; omega))

def BodyFits (b : ChunkedBody) : Prop := (∀k∈b.chunks,Fits k.line) ∧ Fits b.last

/-- Reading marked bytes takes the machine from `ph` to `ph'`. -/
def ReadsMarked (ph : Phase) (ms : List (UInt8×Bool)) (ph' : Phase) : Prop :=
  feed mark ph (ms.map Prod.fst)=ph' ∧ emit mark ph (ms.map Prod.fst)=ms.map Prod.snd

lemma ReadsMarked.append {ms ns : List (UInt8×Bool)}
    (h : ReadsMarked ph ms ph') (h' : ReadsMarked ph' ns ph'') : ReadsMarked ph (ms++ns) ph'' := by
  refine ⟨?_,?_⟩
  · rw [map_append,feed_append,h.1,h'.1]
  · rw [map_append,emit_append,h.1,h.2,h'.2,map_append]

lemma Reads.marked (h : Reads m ph bs ph') : ReadsMarked ph (bs.map (·,m)) ph' := by
  have hf : (bs.map (·,m)).map Prod.fst=bs := by
    rw [map_map]
    exact map_id bs
  have hs : (bs.map (·,m)).map Prod.snd=replicate bs.length m := by
    rw [map_map]
    exact map_const'
  rw [ReadsMarked,hf,hs]
  exact h

lemma readsMarked_chunk (k : Chunk) (h : Fits k.line) : ReadsMarked .start k.marked .start := by
  obtain ⟨n,hn⟩ : ∃n,k.line.size=n+1 := by
    have := length_pos_iff.2 k.data_ne
    rw [k.length_data] at this
    exact ⟨k.line.size-1,by omega⟩
  have hl := (reads_sizeLine k.line h).marked
  rw [hn] at hl
  have hd : Reads false (.data (n+1)) k.data .dataEnd := reads_data n.succ_pos (by rw [k.length_data,hn])
  have he : Reads true .dataEnd k.eol.bytes (lineEnd none) := reads_eol k.eol rfl rfl rfl rfl
  exact (hl.append hd.marked).append he.marked

lemma readsMarked_chunks (ks : List Chunk) (h : ∀k∈ks,Fits k.line) :
    ReadsMarked .start (ks.flatMap Chunk.marked) .start := by
  induction ks with
  | nil => exact ⟨rfl,rfl⟩
  | cons k ks ih =>
    rw [flatMap_cons]
    apply ReadsMarked.append (readsMarked_chunk k (h k (.head _)))
    exact ih fun j hj => h j (mem_cons_of_mem k hj)

lemma readsMarked_body (h : BodyFits b) : ReadsMarked .start b.marked .done := by
  have hl := (reads_sizeLine b.last h.2).marked
  rw [b.last_size] at hl
  exact (readsMarked_chunks b.chunks h.1).append hl

lemma map_fst_framing (bs : Bytes) : (framing bs).map Prod.fst=bs := by
  rw [framing,map_map]
  exact map_id bs

lemma feed_body_dropped (h : ¬ BodyFits b) : feed mark .start b.bytes=.dropped := by
  have hla (hks : ∀k∈b.chunks,Fits k.line) : ¬ Fits b.last := fun hl => h ⟨hks,hl⟩
  rw [ChunkedBody.bytes,ChunkedBody.marked,map_append,feed_append,map_fst_framing]
  -- the chunks up to the first line that does not fit bring the machine back to the start
  generalize b.chunks=ks at hla
  induction ks with
  | nil => exact feed_sizeLine_dropped b.last (hla (by simp))
  | cons k ks ih =>
    rw [flatMap_cons,map_append,feed_append]
    by_cases hk : Fits k.line
    · rw [(readsMarked_chunk k hk).1]
      apply ih
      intro hks
      apply hla
      intro j hj
      obtain rfl | hj := mem_cons.1 hj
      · exact hk
      · exact hks j hj
    · have hd : feed mark .start (k.marked.map Prod.fst)=.dropped := by
        rw [Chunk.marked,append_assoc,map_append,map_fst_framing,feed_append,
          feed_sizeLine_dropped k.line hk,feed_mark_dropped]
      rw [hd,feed_mark_dropped,feed_mark_dropped]

/-- What a call is given to parse. -/
structure Fragment where
  bytes : Bytes
  ne_nil : bytes≠[]
  length_lt : bytes.length<2^32

/-- The positions of the framing bytes of a body that arrives as the fragments `fs`. -/
def framingCells (b : ChunkedBody) (fs : List Bytes) : List Pos :=
  framed (((located 0 fs).map Prod.fst).zip (b.marked.map Prod.snd))

/-- What is left of the located bytes `xs` without the ranges `segs`. -/
def cutOut (segs : List Seg) (xs : List (Pos×UInt8)) : Bytes := (xs.filter fun x => x.1∉cover segs).map Prod.snd

lemma filter_unmarked {S : List Pos} (hl : xs.length=ms.length) (hS : ∀y∈(xs.map Prod.fst).zip ms,y.1∈S ↔ y.2=true) :
    (xs.filter fun x => x.1∉S).map Prod.snd=(((xs.map Prod.snd).zip ms).filter fun m => !m.2).map Prod.fst := by
  induction xs generalizing ms with
  | nil => rfl
  | cons x xs ih =>
    cases ms with
    | nil => cases hl
    | cons m ms =>
      have hx : x.1∈S ↔ m=true := hS (x.1,m) (.head _)
      have hr := ih (Nat.succ.inj hl) fun y hy => hS y (.tail _ hy)
      cases m with
      | true =>
        have hm : x.1∈S := hx.2 rfl
        simpa [hm] using hr
      | false =>
        have hm : x.1∉S := fun h => Bool.false_ne_true (hx.1 h)
        simpa [hm] using hr

lemma cutOut_marked (hl : xs.length=ms.length) (hnd : (xs.map Prod.fst).Nodup)
    (hc : cover segs=framed ((xs.map Prod.fst).zip ms)) :
    cutOut segs xs=(((xs.map Prod.snd).zip ms).filter fun m => !m.2).map Prod.fst := by
  apply filter_unmarked hl
  intro y hy
  rw [hc,framed,mem_map]
  constructor
  · intro h
    obtain ⟨z,hz,hzy⟩ := h
    obtain ⟨hz,hm⟩ := mem_filter.1 hz
    have hf : ((xs.map Prod.fst).zip ms).map Prod.fst=xs.map Prod.fst := map_fst_zip (by rw [length_map,hl])
    rw [← hf] at hnd
    rw [← inj_on_of_nodup_map hnd hz hy hzy]
    exact hm
  · intro h
    exact ⟨y,mem_filter.2 ⟨hy,h⟩,rfl⟩

lemma located_nodup (fs : List Bytes) : ((located 0 fs).map Prod.fst).Nodup := by
  apply (pairwise_located 0 fs).imp
  intro p q hp heq
  rw [heq] at hp
  obtain h | h := hp
  · exact lt_irrefl _ h
  · exact lt_irrefl _ h.2

lemma parked_bodyStart : Parked bodyStart.iSt bodyStart.cut 0 [] :=
  ⟨[],some ⟨0,0⟩,Rep.plainOpen _,rfl,fun _ => Or.inr rfl⟩

lemma machine_body (hx : xs.map Prod.snd=b.bytes++rest) : (BodyFits b → feed step .start xs=.done ∧
      emit step .start xs=(xs.map Prod.fst).zip (b.marked.map Prod.snd)) ∧
    (¬ BodyFits b → feed step .start xs=.dropped) := by
  rw [feed_step_eq,hx,feed_append]
  refine ⟨?_,?_⟩
  · intro hfi
    obtain ⟨hf,he⟩ := readsMarked_body b hfi
    change feed mark .start b.bytes=.done at hf
    change emit mark .start b.bytes=_ at he
    refine ⟨by rw [hf,feed_mark_done],?_⟩
    rw [emit_step_eq,hx,emit_append,hf,he,emit_mark_done,append_nil]
  · intro hfi
    rw [feed_body_dropped b hfi,feed_mark_dropped]

lemma cutOut_body (hx : xs.map Prod.snd=b.bytes++rest) (hnd : (xs.map Prod.fst).Nodup)
    (hc : cover segs=framed ((xs.map Prod.fst).zip (b.marked.map Prod.snd))) :
    cutOut segs (xs.take b.bytes.length)=b.data := by
  obtain ⟨ys,zs,rfl,hy,-⟩ := map_eq_append_iff.1 hx
  have hl : ys.length=b.bytes.length := by rw [← hy,length_map]
  have hm : ys.length=(b.marked.map Prod.snd).length := by rw [hl,ChunkedBody.bytes,length_map,length_map]
  have ht : (ys++zs).take b.bytes.length=ys := by rw [← hl,take_left]
  have hz : (((ys++zs).map Prod.fst).zip (b.marked.map Prod.snd)) = (ys.map Prod.fst).zip (b.marked.map Prod.snd) := by
    have ha : (ys.map Prod.fst++zs.map Prod.fst).zip (b.marked.map Prod.snd++[]) =
        (ys.map Prod.fst).zip (b.marked.map Prod.snd)++(zs.map Prod.fst).zip [] :=
      zip_append (by rw [length_map,hm])
    rwa [append_nil,zip_nil_right,append_nil,← map_append] at ha
  rw [hz] at hc
  rw [map_append] at hnd
  rw [ht,cutOut_marked hm (nodup_append.1 hnd).1 hc,hy,ChunkedBody.bytes,zip_map',b.data_eq_unmarked,map_id']

lemma framed_zip_sublist (ps : List Pos) (ms : List Bool) : (framed (ps.zip ms)).Sublist ps := by
  induction ps generalizing ms with
  | nil => exact List.Sublist.refl _
  | cons p ps ih =>
    cases ms with
    | nil => exact nil_sublist _
    | cons m ms =>
      cases m with
      | true => exact (ih ms).cons_cons p
      | false => exact (ih ms).cons p

/-- Whatever the split of a chunked body and of what follows it, no `BUG_ON` is met, and when the parser returns with
the body read, it has consumed exactly the body and `cut` is exactly its framing. -/
theorem respCut_exactly_framing (grow : Nat → Bool) (b : ChunkedBody) (rest : Bytes)
    (fs : List Fragment) (hfs : (fs.map Fragment.bytes).flatten=b.bytes++rest) :
    ∃k rc resp,parseFragments grow true 0 bodyStart (fs.map Fragment.bytes)=some (k,rc,resp) ∧ rc ≠ .postpone ∧
      (rc=.drop → ¬ BodyFits b ∨ ∃n,grow n=false) ∧ ∀n,rc=.parsed n →
        ((fs.take k).map Fragment.bytes).flatten.length+n=b.bytes.length ∧
        cover resp.cut.pieces=framingCells b (fs.map Fragment.bytes) ∧ (∀s∈resp.cut.pieces,0<s.len ∧
          ∃f,fs[s.data.frag]?=some f ∧ s.data.off+s.len≤f.bytes.length) ∧ resp.cut.pieces.Pairwise Seg.Before ∧
        cutOut resp.cut.pieces ((located 0 (fs.map Fragment.bytes)).take b.bytes.length)=b.data ∧
        resp.cut.len=(resp.cut.pieces.map Seg.len).sum := by
  have hne : ∀f∈fs.map Fragment.bytes,f≠[] := by
    intro f hf
    obtain ⟨g,-,rfl⟩ := mem_map.1 hf
    exact g.ne_nil
  have hlt : ∀f∈fs.map Fragment.bytes,f.length<2^32 := by
    intro f hf
    obtain ⟨g,-,rfl⟩ := mem_map.1 hf
    exact g.length_lt
  obtain ⟨k,rc,resp,hru,hr⟩ := parseFragments_follows grow hne hlt (AtPhase.init rfl rfl rfl) parked_bodyStart
  have hx : (located 0 (fs.map Fragment.bytes)).map Prod.snd=b.bytes++rest := by rw [map_snd_located,hfs]
  obtain ⟨hfi,hno⟩ := machine_body b hx
  refine ⟨k,rc,resp,hru,?_,?_,?_⟩
  · intro hrc
    subst hrc
    obtain ⟨ph,hl,hfe⟩ := hr
    by_cases h : BodyFits b
    · rw [← hfe,(hfi h).1] at hl
      cases hl
    · rw [← hfe,hno h] at hl
      cases hl
  · intro hrc
    subst hrc
    by_cases h : BodyFits b
    · right
      obtain hdp | hgr := hr
      · rw [(hfi h).1] at hdp
        cases hdp
      · exact hgr
    · exact Or.inl h
  · intro n hrc
    subst hrc
    obtain ⟨hd,-,hn,closed,hre,hc⟩ := hr
    have h : BodyFits b := by
      by_contra h
      rw [hno h] at hd
      cases hd
    obtain ⟨-,he⟩ := hfi h
    rw [he] at hc hn
    obtain ⟨hpi,hcl,hpo⟩ := hre.pieces
    rw [hpi]
    have hsu := framed_zip_sublist ((located 0 (fs.map Fragment.bytes)).map Prod.fst) (b.marked.map Prod.snd)
    change cover closed=framed (((located 0 (fs.map Fragment.bytes)).map Prod.fst).zip
      (b.marked.map Prod.snd)) at hc
    refine ⟨?_,hc,?_,?_,?_,hcl⟩
    · rw [Nat.sub_zero] at hn
      rw [map_take,hn,length_zip,length_map,length_map]
      have hle := congrArg length hx
      rw [length_map,length_append,ChunkedBody.bytes,length_map] at hle
      rw [ChunkedBody.bytes,length_map]
      omega
    · intro s hs
      refine ⟨hpo s hs,?_⟩
      obtain ⟨f,hf,ho⟩ := Seg.inside_of_cover (fun p hp => hsu.subset (hc ▸ hp)) hs (hpo s hs)
      rw [getElem?_map] at hf
      obtain ⟨g,hg,rfl⟩ := Option.map_eq_some_iff.1 hf
      exact ⟨g,hg,ho⟩
    · apply pairwise_before_of_cover hpo
      rw [hc]
      exact (pairwise_located 0 _).sublist hsu
    · exact cutOut_body b hx (located_nodup _) hc

def oneDigit (c : UInt8) (hc : isHexdig c=true) : SizeLine where
  digits := [c]
  digits_ne := cons_ne_nil c []
  hex := fun d hd => by rw [mem_singleton.1 hd]; exact hc
  exts := []
  eol := .crlf

/-- `2 CRLF hi CRLF 0 CRLF` -/
def hiBody : ChunkedBody where
  chunks := [⟨oneDigit 0x32 (by decide),[0x68,0x69],by decide,by decide,.crlf⟩]
  last := oneDigit 0x30 (by decide)
  last_size := by decide

def hiFragments : List Fragment :=
  [⟨[0x32,0x0d],by simp,by simp⟩,⟨[0x0a,0x68],by simp,by simp⟩,⟨[0x69,0x0d,0x0a,0x30,0x0d,0x0a,0x0d],by simp,by simp⟩]

theorem respCut_exactly_framing_hi : ∃k n resp,
    parseFragments (fun _ => true) true 0 bodyStart (hiFragments.map Fragment.bytes)=some (k,.parsed n,resp) ∧
    cutOut resp.cut.pieces ((located 0 (hiFragments.map Fragment.bytes)).take 10)=[0x68,0x69] := by
  obtain ⟨k,rc,resp,hr,hpo,hd,hp⟩ := respCut_exactly_framing (fun _ => true) hiBody [0x0d] hiFragments (by decide)
  have hf : BodyFits hiBody := by
    refine ⟨?_,by decide,by decide⟩
    intro k hk
    rw [mem_singleton.1 hk]
    exact ⟨by decide,by decide⟩
  cases rc with
  | postpone => exact absurd rfl hpo
  | drop =>
    obtain h | ⟨n,h⟩ := hd rfl
    · exact absurd hf h
    · cases h
  | parsed n =>
    obtain ⟨-,-,-,-,hc,-⟩ := hp n rfl
    exact ⟨k,n,resp,hr,hc⟩
end VetWaf.Http.BodyMachine
