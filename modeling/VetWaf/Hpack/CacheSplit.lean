import VetWaf.Hpack.CacheReader
import VetWaf.Hpack.IntWrite
import VetWaf.Http.Htype

namespace VetWaf.Hpack
open List Transducer CacheDec Rfc7541
namespace CacheReader

def Phase.rank : Phase → Nat
  | .ready => 0
  | .index _ _ => 1
  | .name => 2
  | .nameLength _ _ => 3
  | .nameText _ => 4
  | .indexedName _ => 5
  | .value => 5
  | .valueLength _ _ => 6
  | .valueOpen _ => 7
  | .valueText _ => 8
  | .done => 9
  | .failed => 10

lemma rank_readInt_le (again : Nat → Nat → Phase) (fin : Nat → Phase) {r : Nat}
    (ha : ∀x m,r≤(again x m).rank) (hf : ∀x,r≤(fin x).rank) (hr : r≤10)
    (x m : Nat) (c : UInt8) : r≤(readInt again fin x m c).rank := by
  unfold readInt
  split_ifs
  · exact hr
  · exact ha _ _
  · exact hf _

lemma rank_valueFirst (c : UInt8) : 6≤(valueFirst c).rank := by
  unfold valueFirst
  split_ifs <;> simp [Phase.rank]

lemma rank_step (s : St) (c : UInt8) : s.phase.rank≤(step s c).1.phase.rank ∧
      (s.phase.rank=5 → 6≤(step s c).1.phase.rank) ∧ (s.phase.rank=7 → 8≤(step s c).1.phase.rank) := by
  obtain ⟨phase,nm⟩ := s
  cases phase with
  | ready => simp [Phase.rank]
  | index x m =>
    have h := rank_readInt_le .index .indexedName (r := 1)
      (fun _ _ => le_refl 1) (fun _ => by simp [Phase.rank]) (by decide) x m c
    exact ⟨h,by simp [Phase.rank],by simp [Phase.rank]⟩
  | name =>
    simp only [step,nameFirst]
    split_ifs <;> simp [Phase.rank]
  | nameLength x m =>
    have h := rank_readInt_le .nameLength .nameText (r := 3)
      (fun _ _ => le_refl 3) (fun _ => by simp [Phase.rank]) (by decide) x m c
    exact ⟨h,by simp [Phase.rank],by simp [Phase.rank]⟩
  | nameText left =>
    simp only [step]
    split_ifs <;> simp [Phase.rank]
  | indexedName i =>
    have hv := rank_valueFirst c
    cases hn : staticName i with
    | none => simp [step,hn,Phase.rank]
    | some name =>
      simp only [step,hn]
      exact ⟨(show 5≤6 by decide).trans hv,fun _ => hv,by simp [Phase.rank]⟩
  | value =>
    have hv := rank_valueFirst c
    exact ⟨(show 5≤6 by decide).trans hv,fun _ => hv,by simp [Phase.rank]⟩
  | valueLength x m =>
    have h := rank_readInt_le .valueLength .valueOpen (r := 6)
      (fun _ _ => le_refl 6) (fun _ => by simp [Phase.rank]) (by decide) x m c
    exact ⟨h,by simp [Phase.rank],by simp [Phase.rank]⟩
  | valueOpen left =>
    simp only [step,readText]
    split_ifs <;> simp [Phase.rank]
  | valueText left =>
    simp only [step,readText]
    split_ifs <;> simp [Phase.rank]
  | done => simp [step,Phase.rank]
  | failed => simp [step,Phase.rank]

lemma rank_feed (s : St) (src : Bytes) : s.phase.rank≤(feed step s src).phase.rank := by
  induction src generalizing s with
  | nil => exact le_rfl
  | cons c src ih => exact (rank_step s c).1.trans (ih (step s c).1)

variable {s : St} {src : Bytes} {i : Nat}
lemma rank_feed_of_five (h : s.phase.rank=5) (hs : src≠[]) : 6≤(feed step s src).phase.rank := by
  obtain ⟨c,src,rfl⟩ := exists_cons_of_ne_nil hs
  exact ((rank_step s c).2.1 h).trans (rank_feed _ src)

lemma rank_feed_of_seven (h : s.phase.rank=7) (hs : src≠[]) : 8≤(feed step s src).phase.rank := by
  obtain ⟨c,src,rfl⟩ := exists_cons_of_ne_nil hs
  exact ((rank_step s c).2.2 h).trans (rank_feed _ src)

lemma isOpen_iff_rank (p : Phase) : p.isOpen=true ↔ p.rank=7 := by cases p <;> simp [Phase.isOpen,Phase.rank]
lemma inLength_iff_rank (p : Phase) : p.inLength=true ↔ p.rank=6 := by cases p <;> simp [Phase.inLength,Phase.rank]

lemma feed_late (h : 7 ≤ s.phase.rank ∧ s.phase.rank≤9) (src : Bytes) : (feed step s src).phase.rank≤9 := by
  have hst : ∀ (s : St) (c : UInt8),7 ≤ s.phase.rank ∧ s.phase.rank≤9 →
      7≤(step s c).1.phase.rank ∧ (step s c).1.phase.rank≤9 := by
    rintro ⟨phase,nm⟩ c h
    cases phase with
    | valueOpen left =>
      simp only [step,readText]
      split_ifs <;> simp [Phase.rank]
    | valueText left =>
      simp only [step,readText]
      split_ifs <;> simp [Phase.rank]
    | done => exact h
    | _ => simp [Phase.rank] at h
  induction src generalizing s with
  | nil => exact h.2
  | cons c src ih => exact ih (hst s c h)

/-- The contribution of the fragments beyond what the byte machine writes. -/
def slip (s : St) (frag : Bytes) : Bool := !s.phase.inLength && (feed step s frag).phase.isOpen

def slips (s : St) : List Bytes → Nat
  | [] => 0
  | f::fs => (if slip s f then 1 else 0)+slips (feed step s f) fs

lemma slips_eq_zero_iff (s : St) (frags : List Bytes) : slips s frags=0 ↔ ∀before f after,frags=before++f::after →
      slip (feed step s before.flatten) f=false := by
  induction frags generalizing s with
  | nil => simp [slips]
  | cons g fs ih =>
    rw [slips,Nat.add_eq_zero_iff,ih]
    constructor
    · rintro ⟨hg,hr⟩ before f after h
      cases before with
      | nil =>
        obtain ⟨rfl,-⟩ := List.cons.inj h
        simpa using hg
      | cons b before =>
        obtain ⟨rfl,hf⟩ := List.cons.inj h
        rw [flatten_cons,feed_append]
        exact hr before f after hf
    · intro h
      refine ⟨by simpa using h [] g fs rfl,fun before f after hf => ?_⟩
      have := h (g::before) f after (by rw [hf]; rfl)
      rwa [flatten_cons,feed_append] at this

def writes (s : St) : List Bytes → Bytes
  | [] => []
  | f::fs => emit step s f++(if slip s f then sCrlf else [])++writes (feed step s f) fs

lemma writes_failed (nm : Bytes) (frags : List Bytes) : writes ⟨.failed,nm⟩ frags=[] := by
  induction frags with
  | nil => rfl
  | cons f fs ih => simp [writes,slip,feed_failed,emit_failed,ih,Phase.isOpen]

lemma writes_length (s : St) (frags : List Bytes) :
    (writes s frags).length=(emit step s frags.flatten).length+2*slips s frags := by
  induction frags generalizing s with
  | nil => rfl
  | cons f fs ih =>
    have hc : sCrlf.length=2 := rfl
    rw [writes,slips,flatten_cons,emit_append]
    simp only [length_append,ih]
    cases slip s f <;> simp [hc] <;> omega

lemma writes_of_slips_zero {frags : List Bytes} (h : slips s frags=0) : writes s frags=emit step s frags.flatten := by
  induction frags generalizing s with
  | nil => rfl
  | cons f fs ih =>
    rw [slips,Nat.add_eq_zero_iff] at h
    have hf : slip s f=false := by simpa using h.1
    rw [writes,hf,ih h.2,flatten_cons,emit_append]
    simp

lemma writes_concat (s : St) (frags : List Bytes) (f : Bytes) :
    writes s (frags++[f])=writes s frags++(emit step (feed step s frags.flatten) f ++
      (if slip (feed step s frags.flatten) f then sCrlf else [])) := by
  induction frags generalizing s with
  | nil => exact append_nil _
  | cons g fs ih =>
    rw [cons_append,writes,ih,writes,flatten_cons,feed_append]
    simp only [append_assoc]

lemma live_of_ne {p : Phase} (hd : p ≠ .done) (hf : p ≠ .failed) : p.live=true := by
  cases p <;> first | rfl | exact absurd rfl hd | exact absurd rfl hf

lemma decodeWrite_run (frags : List Bytes) {d : CacheDec} (hne : frags≠[]) (hfr : ∀f∈frags,f≠[]) (hs : Sim d s)
    (hd : ∀before after,frags=before++after → after≠[] → (feed step s before.flatten).phase ≠ .done) :
    (tfwCacheH2DecodeWrite d frags.flatten.length frags).1 =
        (if (feed step s frags.flatten).phase=.failed then .compression else .ok) ∧
      (tfwCacheH2DecodeWrite d frags.flatten.length frags).2.out=d.out++writes s frags := by
  induction frags generalizing d s with
  | nil => exact absurd rfl hne
  | cons f fs ih =>
    have hf : f≠[] := hfr f (.head _)
    have hc := decodeExpand_follows hf hs
    have hm : min f.length (f++fs.flatten).length=f.length := by
      rw [length_append]
      omega
    have hou : (tfwHpackCacheDecodeExpand d f).2.out=d.out++(emit step s f++(if slip s f then sCrlf else [])) := by
      rw [hc.out_eq,slip,append_assoc]
    rw [flatten_cons,tfwCacheH2DecodeWrite,hm,take_length,feed_append,writes]
    cases hre : tfwHpackCacheDecodeExpand d f with
    | mk r d' =>
    have hrc := hc.rc_eq
    rw [hre] at hrc hou hc
    by_cases hfa : (feed step s f).phase=.failed
    · obtain ⟨nm,hst⟩ : ∃nm,feed step s f=⟨.failed,nm⟩ := ⟨(feed step s f).nm,by rw [← hfa]⟩
      rw [if_pos hfa] at hrc
      change r=.compression at hrc
      subst hrc
      rw [hst,feed_failed,writes_failed,if_pos rfl,append_nil]
      exact ⟨rfl,hou⟩
    · rw [if_neg hfa] at hrc
      change r=.ok at hrc
      subst hrc
      dsimp only
      cases fs with
      | nil =>
        rw [flatten_nil,append_nil,if_pos rfl,feed_nil,if_neg hfa,writes,append_nil]
        exact ⟨rfl,hou⟩
      | cons g gs =>
        have hg : g≠[] := hfr g (by simp)
        have hgl := length_pos_of_ne_nil hg
        have hl : f.length≠(f++(g::gs).flatten).length := by
          rw [flatten_cons,length_append,length_append]
          omega
        have hnd : (feed step s f).phase ≠ .done := by simpa using hd [f] (g::gs) rfl (cons_ne_nil g gs)
        obtain ⟨hr,ho⟩ := ih (d := d') (s := feed step s f) (cons_ne_nil g gs)
          (fun x hx => hfr x (mem_cons_of_mem f hx)) (hc.sim (live_of_ne hnd hfa))
          (fun before after h ha => by
            have := hd (f::before) after (by rw [h]; rfl) ha
            rwa [flatten_cons,feed_append] at this)
        rw [if_neg hl,length_append,Nat.add_sub_cancel_left]
        refine ⟨hr,?_⟩
        rw [ho,hou]
        simp only [append_assoc]

/-- A header as the cache stores it. -/
inductive CachedName where
  | indexed (i : Nat) (pos : i≠0) (le : i ≤ staticEntries)
  | literal (name : Bytes) (ne : name≠[])

structure CachedHdr where
  name : CachedName
  value : Bytes

def CachedName.text : CachedName → Bytes
  | .indexed i _ _ => (staticName i).getD []
  | .literal name _ => name

def CachedName.encode : CachedName → Bytes
  | .indexed i _ _ => encodeInt 15 0 i
  | .literal name _ => 0::(encodeInt 127 0 name.length++name)

def CachedName.announced : CachedName → Nat
  | .indexed _ _ _ => 0
  | .literal name _ => name.length

def CachedHdr.lengthPart (h : CachedHdr) : Bytes := encodeInt 127 0 h.value.length
def CachedHdr.encode (h : CachedHdr) : Bytes := h.name.encode++(h.lengthPart++h.value)

/-- No announced length is above `HPACK_INT_LIMIT`. -/
def CachedHdr.Readable (h : CachedHdr) : Prop := h.name.announced≤hpackIntLimit ∧ h.value.length≤hpackIntLimit

def CachedHdr.line (h : CachedHdr) : Bytes := h.name.text++sDlm++h.value++sCrlf

section
variable (p : Phase) (again : Nat → Nat → Phase) (fin : Nat → Phase) (max n : Nat)
  (hagain : ∀x m nm c,step ⟨again x m,nm⟩ c=(⟨readInt again fin x m c,nm⟩,[]))
  (hmax : ∀nm,step ⟨p,nm⟩ (UInt8.ofNat max)=(⟨again max 0,nm⟩,[]))
  (hsmall : n < max → ∀nm,step ⟨p,nm⟩ (UInt8.ofNat n)=(⟨fin n,nm⟩,[]))

include hagain hmax hsmall in
lemma feed_encodeInt (h : n≤hpackIntLimit) (nm rest : Bytes) :
    feed step ⟨p,nm⟩ (encodeInt max 0 n++rest)=feed step ⟨fin n,nm⟩ rest ∧
      emit step ⟨p,nm⟩ (encodeInt max 0 n++rest)=emit step ⟨fin n,nm⟩ rest := by
  unfold encodeInt
  simp only [zero_add]
  split_ifs with hn
  · rw [singleton_append,feed_cons,emit_cons,hsmall hn nm]
    exact ⟨rfl,rfl⟩
  · have hint := feed_int again fin hagain max 0 nm (encodeGroups (n-max)++rest)
    rw [getFlexible_encodeGroups _ _ _ _ (by omega),show max+(n-max)*2^0=n by omega] at hint
    rw [cons_append,feed_cons,emit_cons,hmax nm]
    exact hint

include hagain hmax in
lemma feed_encodeInt_limit (hle : max≤hpackIntLimit) (h : hpackIntLimit<n) (hword : n<2^32) (nm rest : Bytes) :
    feed step ⟨p,nm⟩ (encodeInt max 0 n++rest)=⟨.failed,nm⟩ := by
  have hint := feed_int again fin hagain max 0 nm (encodeGroups (n-max)++rest)
  obtain ⟨y,rest',hr⟩ := getFlexible_encodeGroups_limit (n - max) max 0 rest (by omega) hle (by omega)
  rw [hr] at hint
  rw [encodeInt,if_neg (by omega),cons_append,feed_cons,zero_add,hmax nm]
  exact hint.1

end

lemma step_value_small {n : Nat} (h : n<127) (nm : Bytes) :
    step ⟨.value,nm⟩ (UInt8.ofNat n)=(⟨.valueOpen n,nm⟩,[]) := by
  have hc : (UInt8.ofNat n).toNat%128=n := by
    rw [toNat_ofNat_of_lt (by omega)]
    omega
  simp only [step,valueFirst,hc,show n≠127 by omega,if_false]

lemma step_name_small {n : Nat} (hp : n≠0) (h : n<127) (nm : Bytes) :
    step ⟨.name,nm⟩ (UInt8.ofNat n)=(⟨.nameText n,nm⟩,[]) := by
  have hc : (UInt8.ofNat n).toNat%128=n := by
    rw [toNat_ofNat_of_lt (by omega)]
    omega
  simp only [step,nameFirst,hc,hp,show n≠127 by omega,if_false]

lemma step_ready_small (hp : i≠0) (h : i<15) (nm : Bytes) :
    step ⟨.ready,nm⟩ (UInt8.ofNat i)=(⟨.indexedName i,nm⟩,[]) := by
  have hc : (UInt8.ofNat i).toNat=i := toNat_ofNat_of_lt (by omega)
  simp only [step,readyFirst,hc,show i/16=0 by omega,show i%16=i by omega,hp,
    show i≠15 by omega,ne_eq,not_true_eq_false,if_false]

lemma feed_index_encode (hp : i≠0) (hle : i ≤ staticEntries) (rest : Bytes) :
    feed step start (encodeInt 15 0 i++rest)=feed step ⟨.indexedName i,[]⟩ rest ∧
      emit step start (encodeInt 15 0 i++rest)=emit step ⟨.indexedName i,[]⟩ rest :=
  feed_encodeInt .ready .index .indexedName 15 i (fun _ _ _ _ => rfl) (fun _ => rfl)
    (step_ready_small hp) (hle.trans (by decide)) [] rest

lemma feed_literal_encode {name : Bytes} (hne : name≠[]) (hl : name.length≤hpackIntLimit) (rest : Bytes) :
    feed step start (0::(encodeInt 127 0 name.length++name)++rest)=feed step ⟨.value,[]⟩ rest ∧
      emit step start (0::(encodeInt 127 0 name.length++name)++rest)=name++sDlm++emit step ⟨.value,[]⟩ rest := by
  have hp := length_pos_of_ne_nil hne
  obtain ⟨hf,he⟩ := feed_encodeInt .name .nameLength .nameText 127 name.length
    (fun _ _ _ _ => rfl) (fun _ => rfl) (step_name_small hp.ne') hl [] (name++rest)
  obtain ⟨hf',he'⟩ := feed_nameText_end name.length [] (name++rest) hp (by simp)
  have hfi : step start 0=(⟨.name,[]⟩,[]) := rfl
  rw [cons_append,feed_cons,emit_cons,hfi,append_assoc,hf,he,hf',he']
  simp

variable (name : CachedName)
open CachedName

lemma feed_after_name (h : name.announced≤hpackIntLimit) {rest : Bytes} (hr : rest≠[]) :
    feed step start (name.encode++rest)=feed step ⟨.value,[]⟩ rest ∧ emit step start (name.encode++rest) =
        name.text++sDlm++emit step ⟨.value,[]⟩ rest := by
  cases name with
  | indexed i hp hle =>
    obtain ⟨c,rest,rfl⟩ := exists_cons_of_ne_nil hr
    obtain ⟨e,-,-,hn⟩ := staticName_of_index hp hle
    obtain ⟨hf,he⟩ := feed_index_encode hp hle (c::rest)
    have hst : step ⟨.indexedName i,[]⟩ c=(⟨valueFirst c,[]⟩,(indexed i hp hle).text++sDlm) := by simp [step,hn,text]
    rw [encode,hf,he,feed_cons,emit_cons,hst]
    exact ⟨rfl,rfl⟩
  | literal name hne => exact feed_literal_encode hne h rest

lemma rank_after_name (h : name.announced≤hpackIntLimit) : (feed step start name.encode).phase.rank=5 := by
  cases name with
  | indexed i hp hle =>
    have hf := (feed_index_encode hp hle []).1
    rw [append_nil] at hf
    rw [encode,hf]
    rfl
  | literal name hne =>
    have hf := (feed_literal_encode hne h []).1
    rw [append_nil] at hf
    rw [encode,hf]
    rfl

lemma feed_name_limit (h : hpackIntLimit<name.announced)
    (hw : name.announced<2^32) (rest : Bytes) : feed step start (name.encode++rest)=⟨.failed,[]⟩ := by
  cases name with
  | indexed i hp hle => exact absurd h (by simp [announced])
  | literal name hne =>
    have hf : step start 0=(⟨.name,[]⟩,[]) := rfl
    rw [encode,cons_append,feed_cons,hf,append_assoc]
    exact feed_encodeInt_limit .name .nameLength .nameText 127 name.length (fun _ _ _ _ => rfl)
      (fun _ => rfl) (by decide) h hw [] (name++rest)

section
variable {h : CachedHdr} {frags : List Bytes}
lemma lengthPart_ne_nil (h : CachedHdr) : h.lengthPart≠[] := encodeInt_ne_nil 127 0 _
lemma encode_ne_nil (h : CachedHdr) : h.encode≠[] := by simp [CachedHdr.encode,lengthPart_ne_nil h]

lemma feed_lengthPart (hr : h.Readable) (rest : Bytes) : feed step start (h.name.encode++(h.lengthPart++rest)) =
        feed step ⟨.valueOpen h.value.length,[]⟩ rest ∧ emit step start (h.name.encode++(h.lengthPart++rest)) =
        h.name.text++sDlm++emit step ⟨.valueOpen h.value.length,[]⟩ rest := by
  have hne : h.lengthPart++rest≠[] := by simp [lengthPart_ne_nil h]
  obtain ⟨hf,he⟩ := feed_after_name h.name hr.1 hne
  obtain ⟨hf',he'⟩ := feed_encodeInt .value .valueLength .valueOpen 127 h.value.length
    (fun _ _ _ _ => rfl) (fun _ => rfl) step_value_small hr.2 [] rest
  rw [CachedHdr.lengthPart] at hf he ⊢
  exact ⟨hf.trans hf',by rw [he,he']⟩

lemma rank_after_length (hr : h.Readable) : (feed step start (h.name.encode++h.lengthPart)).phase.rank=7 := by
  have hf := (feed_lengthPart hr []).1
  rw [append_nil] at hf
  rw [hf]
  rfl

lemma feed_unreadable (hw : h.name.announced<2^32) (hv : h.value.length<2^32)
    (hr : ¬ h.Readable) : (feed step start h.encode).phase=.failed := by
  by_cases hn : h.name.announced≤hpackIntLimit
  · have hva : hpackIntLimit<h.value.length := by
      by_contra hc
      exact hr ⟨hn,by omega⟩
    have hne : h.lengthPart++h.value≠[] := by simp [lengthPart_ne_nil h]
    rw [CachedHdr.encode,(feed_after_name h.name hn hne).1,CachedHdr.lengthPart,
      feed_encodeInt_limit .value .valueLength .valueOpen 127 h.value.length
        (fun _ _ _ _ => rfl) (fun _ => rfl) (by decide) hva hv]
  · rw [CachedHdr.encode,feed_name_limit h.name (by omega) hw]

variable {q f : Bytes} {p : Bytes}
lemma isOpen_iff (hr : h.Readable) (hp : p++q=h.encode) :
    (feed step start p).phase.isOpen=true ↔ p=h.name.encode++h.lengthPart := by
  rw [isOpen_iff_rank]
  constructor
  · intro h7
    have hc : p++q=(h.name.encode++h.lengthPart)++h.value := by rw [hp,CachedHdr.encode,append_assoc]
    obtain ⟨r,hr1,-⟩ | ⟨r,hr1,-⟩ := append_eq_append_iff.1 hc
    · -- `p` is an initial part of the two fields
      by_contra hne
      have hrn : r≠[] := by
        rintro rfl
        exact hne (by rw [hr1,append_nil])
      have h8 := rank_feed_of_seven h7 hrn
      rw [← feed_append,← hr1,rank_after_length hr] at h8
      omega
    · -- the two fields are an initial part of `p`
      by_contra hne
      have hrn : r≠[] := by
        rintro rfl
        exact hne (by rw [hr1,append_nil])
      have h8 := rank_feed_of_seven (rank_after_length hr) hrn
      rw [← feed_append,← hr1] at h8
      omega
  · rintro rfl
    exact rank_after_length hr

lemma inLength_iff (hr : h.Readable) (hf : f≠[]) (hp : p++f=h.name.encode++h.lengthPart) :
    (feed step start p).phase.inLength=true ↔ h.name.encode.length<p.length := by
  have hle : (feed step start p).phase.rank≤7 := by
    rw [← rank_after_length hr,← hp,feed_append]
    exact rank_feed _ _
  have hne7 : (feed step start p).phase.rank≠7 := by
    intro h7
    have h8 := rank_feed_of_seven h7 hf
    rw [← feed_append,hp,rank_after_length hr] at h8
    omega
  rw [inLength_iff_rank]
  obtain ⟨r,hr1,-⟩ | ⟨r,hr1,-⟩ := append_eq_append_iff.1 hp
  · have h5 : (feed step start p).phase.rank≤5 := by
      rw [← rank_after_name h.name hr.1,hr1,feed_append]
      exact rank_feed _ _
    have hl := congrArg length hr1
    rw [length_append] at hl
    omega
  · have hl := congrArg length hr1
    rw [length_append] at hl
    constructor
    · intro h6
      by_contra hc
      have hr0 : r=[] := length_eq_zero_iff.1 (by omega)
      rw [hr1,hr0,append_nil,rank_after_name h.name hr.1] at h6
      omega
    · intro hlt
      have hrn : r≠[] := by
        rintro rfl
        simp at hl
        omega
      have h6 := rank_feed_of_five (rank_after_name h.name hr.1) hrn
      rw [← feed_append,← hr1] at h6
      omega

/-- A fragment boundary right after the value's length, the length lying whole in the fragment that
ends there. -/
def CutAfterLength (h : CachedHdr) (frags : List Bytes) : Prop := ∃before f after,frags=before++f::after ∧
    before.flatten++f=h.name.encode++h.lengthPart ∧ before.flatten.length≤h.name.encode.length

lemma slip_iff (hr : h.Readable) (before after : List Bytes) (hf : f≠[])
    (hs : (before++f::after).flatten=h.encode) : slip (feed step start before.flatten) f=true ↔
      before.flatten++f=h.name.encode++h.lengthPart ∧ before.flatten.length≤h.name.encode.length := by
  have hp : (before.flatten++f)++after.flatten=h.encode := by
    rw [← hs]
    simp
  rw [slip,Bool.and_eq_true,← feed_append,isOpen_iff hr hp]
  constructor
  · rintro ⟨hin,ho⟩
    refine ⟨ho,?_⟩
    by_contra hc
    rw [(inLength_iff hr hf ho).2 (by omega)] at hin
    simp at hin
  · rintro ⟨ho,hle⟩
    refine ⟨?_,ho⟩
    rw [Bool.not_eq_true',← Bool.not_eq_true,inLength_iff hr hf ho]
    omega

lemma not_done_before_end (hr : h.Readable) (hp : p++q=h.encode) (hq : q≠[]) : (feed step start p).phase ≠ .done := by
  intro hd
  have hc : p++q=(h.name.encode++h.lengthPart)++h.value := by rw [hp,CachedHdr.encode,append_assoc]
  obtain ⟨r,hr1,-⟩ | ⟨r,hr1,hr2⟩ := append_eq_append_iff.1 hc
  · have hle := rank_feed (feed step start p) r
    rw [← feed_append,← hr1,rank_after_length hr,hd] at hle
    exact absurd hle (by decide)
  · have hlt : r.length<h.value.length := by
      rw [hr2,length_append]
      have := length_pos_of_ne_nil hq
      omega
    rw [hr1,append_assoc,(feed_lengthPart hr r).1] at hd
    cases r with
    | nil => simp at hd
    | cons c r =>
      rw [(feed_valueOpen _ [] (cons_ne_nil c r)).1,(feed_valueText _ [] _ hlt).1] at hd
      simp at hd

def written (frags : List Bytes) : Rc×Bytes :=
  let res := tfwCacheH2DecodeWrite ⟨.zero,⟨[]⟩,0,[]⟩ frags.flatten.length frags
  (res.1,res.2.out)

structure IsSplit (h : CachedHdr) (frags : List Bytes) : Prop where
  flatten_eq : frags.flatten=h.encode
  nonempty : ∀f∈frags,f≠[]

lemma isSplit_whole (h : CachedHdr) : IsSplit h [h.encode] := by
  refine ⟨by simp,?_⟩
  intro f hf
  rw [mem_singleton.1 hf]
  exact encode_ne_nil h

lemma split_ne_nil (hs : IsSplit h frags) : frags≠[] := by
  rintro rfl
  exact encode_ne_nil h hs.flatten_eq.symm

lemma written_eq (hw : h.name.announced<2^32) (hv : h.value.length<2^32) (hs : IsSplit h frags) :
    written frags=(if (feed step start h.encode).phase=.failed then .compression else .ok,writes start frags) := by
  have hdo : ∀before after,frags=before++after → after≠[] → (feed step start before.flatten).phase ≠ .done := by
    intro before after hf ha hd
    have hp : before.flatten++after.flatten=h.encode := by rw [← hs.flatten_eq,hf,flatten_append]
    by_cases hr : h.Readable
    · refine not_done_before_end hr hp ?_ hd
      intro hn
      obtain ⟨a,rest,rfl⟩ := exists_cons_of_ne_nil ha
      rw [flatten_cons,append_eq_nil_iff] at hn
      exact hs.nonempty a (by rw [hf]; simp) hn.1
    · have hfa := feed_unreadable hw hv hr
      have hl := feed_late (s := feed step start before.flatten) (by rw [hd]; decide) after.flatten
      rw [← feed_append,hp,hfa] at hl
      exact absurd hl (by decide)
  obtain ⟨hrc,ho⟩ := decodeWrite_run frags (d := ⟨.zero,⟨[]⟩,0,[]⟩) (s := start)
    (split_ne_nil hs) hs.nonempty ⟨rfl,rfl⟩ hdo
  rw [written,hrc,ho,hs.flatten_eq,nil_append]

lemma slips_unreadable (hw : h.name.announced<2^32) (hv : h.value.length<2^32)
    (hr : ¬ h.Readable) (hs : IsSplit h frags) : slips start frags=0 := by
  rw [slips_eq_zero_iff]
  intro before f after hf
  have hp : (before.flatten++f)++after.flatten=h.encode := by
    rw [← hs.flatten_eq,hf]
    simp
  by_contra hsl
  rw [Bool.not_eq_false,slip,Bool.and_eq_true,← feed_append,isOpen_iff_rank] at hsl
  have hl := feed_late (s := feed step start (before.flatten++f)) (by rw [hsl.2]; decide) after.flatten
  rw [← feed_append,hp,feed_unreadable hw hv hr] at hl
  exact absurd hl (by decide)

lemma slips_eq_zero_of_value (hr : h.Readable) (hs : IsSplit h frags) :
    slips start frags=0 ↔ ¬ CutAfterLength h frags := by
  rw [slips_eq_zero_iff]
  constructor
  · rintro hn ⟨before,f,after,hfr,hc⟩
    have hf : f≠[] := hs.nonempty f (by rw [hfr]; simp)
    have := (slip_iff hr before after hf (by rw [← hfr,hs.flatten_eq])).2 hc
    rw [hn before f after hfr] at this
    simp at this
  · intro hn before f after hfr
    have hf : f≠[] := hs.nonempty f (by rw [hfr]; simp)
    by_contra hsl
    rw [Bool.not_eq_false,slip_iff hr before after hf (by rw [← hfr,hs.flatten_eq])] at hsl
    exact hn ⟨before,f,after,hfr,hsl⟩

lemma writes_empty_value (hr : h.Readable) (hv : h.value=[]) (hs : IsSplit h frags) :
    writes start frags=emit step start h.encode++sCrlf := by
  obtain ⟨fs,f,rfl⟩ : ∃fs f,frags=fs++[f] := ⟨_,_,(dropLast_append_getLast (split_ne_nil hs)).symm⟩
  have hf : f≠[] := hs.nonempty f (by simp)
  have hfp := length_pos_of_ne_nil hf
  have he : h.encode=h.name.encode++h.lengthPart := by rw [CachedHdr.encode,hv,append_nil]
  have hfl : fs.flatten++f=h.name.encode++h.lengthPart := by
    rw [← he,← hs.flatten_eq]
    simp
  have ho : h.lengthPart.length=1 := by
    rw [CachedHdr.lengthPart,hv]
    rfl
  have hl := congrArg length hfl
  rw [length_append,length_append,ho] at hl
  have hla : slip (feed step start fs.flatten) f=true :=
    (slip_iff hr fs [] hf (by simpa using hs.flatten_eq)).2 ⟨hfl,by omega⟩
  have h0 : slips start fs=0 := by
    rw [slips_eq_zero_iff]
    intro before g after hfs
    by_contra hsl
    have hg : g≠[] := hs.nonempty g (by rw [hfs]; simp)
    rw [Bool.not_eq_false,slip_iff hr before (after++[f]) hg (by rw [← hs.flatten_eq,hfs]; simp)] at hsl
    have hsh := congrArg length hsl.1
    have ht := congrArg length hfs
    have hfn : fs.flatten.length=before.flatten.length+g.length+after.flatten.length := by
      rw [hfs]
      simp
      omega
    rw [length_append,length_append,ho] at hsh
    omega
  rw [writes_concat,writes_of_slips_zero h0,hla,if_pos rfl,← append_assoc,← emit_append,hfl,he]

lemma emit_encode (hr : h.Readable) : emit step start h.encode=h.name.text++sDlm ++
      (if h.value=[] then [] else h.value++sCrlf) := by
  rw [CachedHdr.encode,(feed_lengthPart hr h.value).2]
  split_ifs with hv
  · rw [hv]
    rfl
  · rw [(feed_valueOpen _ [] hv).2,(feed_valueText_end _ [] _ hv le_rfl).2,take_length]

lemma written_whole (hw : h.name.announced<2^32) (hv : h.value.length<2^32)
    (hr : h.Readable) : written [h.encode]=(.ok,h.line) := by
  have hra : (feed step start h.encode).phase ≠ .failed := by
    intro hf
    have hl := feed_late (s := feed step start (h.name.encode++h.lengthPart))
      (by rw [rank_after_length hr]; decide) h.value
    rw [← feed_append,append_assoc] at hl
    rw [CachedHdr.encode] at hf
    rw [hf] at hl
    exact absurd hl (by decide)
  rw [written_eq hw hv (isSplit_whole h),if_neg hra]
  by_cases hva : h.value=[]
  · rw [writes_empty_value hr hva (isSplit_whole h),emit_encode hr,if_pos hva,CachedHdr.line,hva]
  · have h0 : slips start [h.encode]=0 := by
      rw [slips_eq_zero_of_value hr (isSplit_whole h)]
      rintro ⟨before,f,after,hfr,hc,-⟩
      obtain _ | ⟨b,before⟩ := before
      · obtain ⟨rfl,-⟩ := List.cons.inj hfr
        rw [flatten_nil,nil_append,CachedHdr.encode,← append_assoc] at hc
        exact hva (append_right_eq_self.1 hc)
      · have := congrArg length hfr
        simp at this
    rw [writes_of_slips_zero h0,flatten_singleton,emit_encode hr,if_neg hva,CachedHdr.line]
    simp only [append_assoc]

lemma written_eq_whole_iff (hw : h.name.announced<2^32) (hv : h.value.length<2^32) (hs : IsSplit h frags) :
    written frags=written [h.encode] ↔ h.value=[] ∨ ¬ h.Readable ∨ ¬ CutAfterLength h frags := by
  by_cases hr : h.Readable
  · by_cases hva : h.value=[]
    · simp only [hva,true_or,iff_true]
      rw [written_eq hw hv hs,written_eq hw hv (isSplit_whole h),writes_empty_value hr hva hs,
        writes_empty_value hr hva (isSplit_whole h)]
    · have hwh := written_whole hw hv hr
      rw [written_eq hw hv (isSplit_whole h),Prod.mk.injEq] at hwh
      rw [written_eq hw hv hs,written_eq hw hv (isSplit_whole h),hwh.2,← slips_eq_zero_of_value hr hs]
      have hli : h.line=emit step start h.encode := by
        rw [emit_encode hr,if_neg hva,CachedHdr.line]
        simp only [append_assoc]
      simp only [hva,hr,not_true_eq_false,false_or,Prod.mk.injEq,true_and]
      constructor
      · intro heq
        have hl := writes_length start frags
        rw [heq,hs.flatten_eq,← hli] at hl
        omega
      · intro h0
        rw [writes_of_slips_zero h0,hs.flatten_eq,hli]
  · simp only [hr,not_false_eq_true,true_or,or_true,iff_true]
    rw [written_eq hw hv hs,written_eq hw hv (isSplit_whole h),
      writes_of_slips_zero (slips_unreadable hw hv hr hs),hs.flatten_eq,
      writes_of_slips_zero (slips_unreadable hw hv hr (isSplit_whole h)),flatten_singleton]

lemma announced_le_length (h : CachedHdr) : h.name.announced≤h.encode.length ∧ h.value.length≤h.encode.length := by
  obtain ⟨name,value⟩ := h
  cases name with
  | indexed i hp hle => simp [announced,CachedHdr.encode]; omega
  | literal name hne =>
    simp [announced,CachedHdr.encode,encode]
    omega

end

/-- An unsplit header within the integer limit gives its line, and the splits change what is written for none of
the headers exactly when no fragment ends right after the length of a non-empty value that lies whole in it. -/
theorem cachedHeaders_split_independent_iff (hs : List (CachedHdr×List Bytes))
    (hlen : ∀p∈hs,p.1.encode.length<2^32) (hsplit : ∀p∈hs,IsSplit p.1 p.2) :
    (∀p∈hs,p.1.Readable → written [p.1.encode]=(.ok,p.1.line)) ∧
      (hs.map (fun p => written p.2)=hs.map (fun p => written [p.1.encode]) ↔
        ∀p∈hs,p.1.value=[] ∨ ¬ p.1.Readable ∨ ¬ CutAfterLength p.1 p.2) := by
  have hw : ∀p∈hs,p.1.name.announced<2^32 ∧ p.1.value.length<2^32 := by
    intro p hp
    have hle := announced_le_length p.1
    have hl := hlen p hp
    omega
  constructor
  · intro p hp hr
    exact written_whole (hw p hp).1 (hw p hp).2 hr
  · rw [map_inj_left]
    refine forall₂_congr fun p hp => ?_
    exact written_eq_whole_iff (hw p hp).1 (hw p hp).2 (hsplit p hp)

/-- The header `a: bc` cut after its value's length gets a second line end, before the value. -/
theorem cachedHeader_cut_after_length : let h : CachedHdr := ⟨.literal [97] (by simp),[98,99]⟩
    let frags : List Bytes := [[0,1,97,2],[98,99]]
    IsSplit h frags ∧ written frags=(.ok,[97,58,32,13,10,98,99,13,10]) ∧
      written [h.encode]=(.ok,[97,58,32,98,99,13,10]) ∧ written frags≠written [h.encode] := by
  refine ⟨⟨by decide,by decide⟩,by decide,by decide,by decide⟩

/-- The same header cut elsewhere, where the theorem gives independence. -/
theorem cachedHeader_cut_elsewhere : let h : CachedHdr := ⟨.literal [97] (by simp),[98,99]⟩
    let frags : List Bytes := [[0,1,97],[2,98],[99]]
    IsSplit h frags ∧ h.encode.length<2^32 ∧ ¬ CutAfterLength h frags ∧ [written frags]=[written [h.encode]] := by
  intro h frags
  have hs : IsSplit h frags := ⟨by decide,by decide⟩
  have hl : h.encode.length<2^32 := by decide
  have hc : ¬ CutAfterLength h frags := by
    rintro ⟨before,f,after,hf,hc,-⟩
    have hm : before.flatten++f=[0,1,97,2] := hc
    rcases before with _ | ⟨b,_ | ⟨b',before⟩⟩ <;> simp [frags] at hf
    · simp [hf.1.symm] at hm
    · simp [hf.1.symm,hf.2.1.symm] at hm
    · simp [hf.1.symm,hf.2.1.symm] at hm
  have ht := (cachedHeaders_split_independent_iff [(h,frags)] (by simpa using hl) (by simpa using hs)).2
  refine ⟨hs,hl,hc,?_⟩
  refine ht.2 fun p hp => ?_
  rw [mem_singleton.1 hp]
  exact Or.inr (Or.inr hc)

def copyInt (src max : Nat) : Bytes := (writeInt src max 0).1

lemma copyInt_eq (src max : Nat) : copyInt src max=encodeInt max 0 src := by
  unfold copyInt writeInt encodeInt
  rw [(writeGroups_eq _ 2).1]
  split_ifs <;> simp

variable (name : CachedName) (val : Bytes) (quotes : Bool)

/-- `tfw_cache_copy_str_with_extra_quotes` -/
def extraQuotes : Bytes := if quotes then 34::(val++[34]) else val

/-- What is stored for one header -/
def copyHdr : Bytes := (match name with
    | .indexed i _ _ => copyInt i 0xF
    | .literal name _ => copyInt 0 0xF++(copyInt name.length 0x7f++name.map Http.lc))++
  (copyInt (val.length+2*quotes.toNat) 0x7f++extraQuotes val quotes)

/-- The header that is to be read -/
def stored : CachedHdr where
  name := match name with
    | .literal name ne => .literal (name.map Http.lc) (by simpa)
    | name => name
  value := extraQuotes val quotes

/-- A stored header is read as its line, except from the splits that spoil its value. -/
theorem cached_header_round_trip {frags : List Bytes} (hne : ∀f∈frags,f≠[]) (hname : name.announced<127+2^14)
    (hval : val.length+2*quotes.toNat<127+2^14) (hflat : frags.flatten=copyHdr name val quotes) :
    let h := stored name val quotes
    written frags=(.ok,h.line) ↔ h.value=[] ∨ ¬CutAfterLength h frags := by
  intro h
  have hl : h.value.length=val.length+2*quotes.toNat := by cases quotes <;> simp [h,stored,extraQuotes]
  have ha : h.name.announced=name.announced := by cases name <;> simp [h,stored,CachedName.announced]
  have he : copyHdr name val quotes=h.encode := by
    unfold copyHdr CachedHdr.encode CachedHdr.lengthPart
    simp only [copyInt_eq,hl]
    cases name <;> simp [h,stored,CachedName.encode,encodeInt]
  have hr : h.Readable := by
    unfold CachedHdr.Readable hpackIntLimit
    omega
  rw [← written_whole (by omega) (by omega) hr,written_eq_whole_iff (by omega) (by omega) ⟨hflat.trans he,hne⟩]
  simp [hr]

/-- The value is split between its two bytes, the name after its length. -/
theorem cached_header_round_trip_split :
    written [[0,1],[101],[2,97],[98]]=(.ok,[101]++sDlm++[97,98]++sCrlf) :=
  (cached_header_round_trip (.literal [69] (by decide)) [97,98] false (by decide) (by decide) (by decide) rfl).2
    (.inr ((slips_eq_zero_of_value ⟨by decide,by decide⟩ ⟨by decide,by decide⟩).1 (by decide)))
end CacheReader
end VetWaf.Hpack
