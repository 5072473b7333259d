import VetWaf.Lib.Transducer
import VetWaf.Hpack.CacheDecode

namespace VetWaf.Hpack
open List Transducer CacheDec TfwStr Nat
namespace CacheReader

/-- Where a reader of one cached header stands. -/
inductive Phase where
  | ready | index (x m : Nat) | name | nameLength (x m : Nat) | nameText (left : Nat)
  | indexedName (i : Nat) | value | valueLength (x m : Nat) | valueOpen (left : Nat)
  | valueText (left : Nat) | done | failed
  deriving DecidableEq

structure St where
  phase : Phase
  nm : Bytes
  deriving DecidableEq

def start : St := ⟨.ready,[]⟩

def readInt (again : Nat → Nat → Phase) (fin : Nat → Phase) (x m : Nat) (c : UInt8) : Phase :=
  if hpackIntLimit<x+shiftByte c m then .failed
  else if 127<c.toNat then again (x+shiftByte c m) (m+7)
  else fin (x+shiftByte c m)

def valueFirst (c : UInt8) : Phase := if c.toNat%128=127 then .valueLength 127 0 else .valueOpen (c.toNat%128)

def nameFirst (c : UInt8) : Phase :=
  if c.toNat%128=127 then .nameLength 127 0
  else if c.toNat%128=0 then .failed else .nameText (c.toNat%128)

def readyFirst (c : UInt8) : Phase :=
  if c.toNat/16≠0 then .failed
  else if c.toNat%16=15 then .index 15 0
  else if c.toNat%16=0 then .name else .indexedName (c.toNat%16)

def staticName (i : Nat) : Option Bytes :=
  if i=0 then none else
    ((staticTable (κ := Unit))[i-1]?).map fun e => (e.hdr.chunks.headD []).take e.nameLen

def readText (left : Nat) (nm : Bytes) (c : UInt8) : St×Bytes :=
  if left=0 then (⟨.done,nm⟩,sCrlf)
  else if left=1 then (⟨.done,nm⟩,c::sCrlf)
  else (⟨.valueText (left-1),nm⟩,[c])

def step (s : St) (c : UInt8) : St×Bytes :=
  match s.phase with
  | .ready => (⟨readyFirst c,s.nm⟩,[])
  | .index x m => (⟨readInt .index .indexedName x m c,s.nm⟩,[])
  | .name => (⟨nameFirst c,s.nm⟩,[])
  | .nameLength x m => (⟨readInt .nameLength .nameText x m c,s.nm⟩,[])
  | .nameText left =>
    if left≤1 then (⟨.value,[]⟩,s.nm++[c]++sDlm)
    else (⟨.nameText (left-1),s.nm++[c]⟩,[])
  | .indexedName i =>
    match staticName i with
    | none => (⟨.failed,s.nm⟩,[])
    | some name => (⟨valueFirst c,[]⟩,name++sDlm)
  | .value => (⟨valueFirst c,s.nm⟩,[])
  | .valueLength x m => (⟨readInt .valueLength .valueOpen x m c,s.nm⟩,[])
  | .valueOpen left => readText left s.nm c
  | .valueText left => readText left s.nm c
  | .done => (s,[])
  | .failed => (s,[])

def Phase.isOpen : Phase → Bool
  | .valueOpen _ => true
  | _ => false

def Phase.inLength : Phase → Bool
  | .valueLength _ _ => true
  | _ => false

def Phase.live : Phase → Bool
  | .done => false
  | .failed => false
  | _ => true

/-- The decoder's saved members mean the phase `p`. -/
def PhaseOf (hp : TfwHPackCtx) : Phase → Prop
  | .ready => hp.state=.ready
  | .index x m => hp.state=.index ∧ hp.index=x ∧ hp.shift=m ∧ 0<x
  | .name => hp.state=.name
  | .nameLength x m => hp.state=.nameLength ∧ hp.length=x ∧ hp.shift=m ∧ 0<x
  | .nameText left => hp.state=.nameText ∧ hp.length=left ∧ 0<left
  | .indexedName i => hp.state=.indexedNameText ∧ hp.index=i
  | .value => hp.state=.value
  | .valueLength x m => hp.state=.valueLength ∧ hp.length=x ∧ hp.shift=m
  | .valueOpen left => hp.state=.valueText ∧ hp.length=left
  | .valueText left => hp.state=.valueText ∧ hp.length=left
  | .done => False
  | .failed => False

def Sim (d : CacheDec) (s : St) : Prop := PhaseOf d.hp s.phase ∧ d.hdrData.data=s.nm

/-- What a call does that starts in state `s` on the bytes `src`, `out` being written before. -/
structure Follows (crlf : Bool) (s : St) (src out : Bytes) (res : Rc×CacheDec) : Prop where
  out_eq : res.2.out=out++emit step s src++(if crlf && (feed step s src).phase.isOpen then sCrlf else [])
  rc_eq : res.1=if (feed step s src).phase=.failed then .compression else .ok
  sim : (feed step s src).phase.live=true → Sim res.2 (feed step s src)

lemma feed_done (nm src : Bytes) : feed step ⟨.done,nm⟩ src=⟨.done,nm⟩ := feed_absorbing step (fun _ => rfl) src
lemma emit_done (nm src : Bytes) : emit step ⟨.done,nm⟩ src=[] := emit_absorbing step (fun _ => rfl) src
lemma feed_failed (nm src : Bytes) : feed step ⟨.failed,nm⟩ src=⟨.failed,nm⟩ := feed_absorbing step (fun _ => rfl) src
lemma emit_failed (nm src : Bytes) : emit step ⟨.failed,nm⟩ src=[] := emit_absorbing step (fun _ => rfl) src

variable (left : Nat) (d : CacheDec)
lemma feed_valueText (nm src : Bytes) (h : src.length<left) :
    feed step ⟨.valueText left,nm⟩ src=⟨.valueText (left-src.length),nm⟩ ∧ emit step ⟨.valueText left,nm⟩ src=src := by
  induction src generalizing left with
  | nil => simp
  | cons c src ih =>
    have hc : src.length+1<left := by simpa using h
    have hst : step ⟨.valueText left,nm⟩ c=(⟨.valueText (left-1),nm⟩,[c]) := by
      simp [step,readText,show left≠0 by omega,show left≠1 by omega]
    obtain ⟨hf,he⟩ := ih (left - 1) (by omega)
    rw [feed_cons,emit_cons,hst,hf,he,length_cons]
    exact ⟨by rw [show left-1-src.length=left-(src.length+1) by omega],rfl⟩

lemma feed_valueText_end (nm src : Bytes) (hs : src≠[]) (h : left ≤ src.length) :
    feed step ⟨.valueText left,nm⟩ src=⟨.done,nm⟩ ∧ emit step ⟨.valueText left,nm⟩ src=src.take left++sCrlf := by
  induction src generalizing left with
  | nil => exact absurd rfl hs
  | cons c src ih =>
    obtain h2 | h2 := lt_or_ge left 2
    · have hc : left=0 ∨ left=1 := by omega
      obtain rfl | rfl := hc
      · simp [step,readText,feed_done,emit_done]
      · simp [step,readText,feed_done,emit_done]
    · have hl : left-1 ≤ src.length := by
        rw [length_cons] at h
        omega
      have hne : src≠[] := by
        rintro rfl
        simp at hl
        omega
      have hst : step ⟨.valueText left,nm⟩ c=(⟨.valueText (left-1),nm⟩,[c]) := by
        simp [step,readText,show left≠0 by omega,show left≠1 by omega]
      obtain ⟨hf,he⟩ := ih (left - 1) hne hl
      rw [feed_cons,emit_cons,hst,hf,he]
      refine ⟨rfl,?_⟩
      obtain ⟨n,rfl⟩ : ∃n,left=n+1 := ⟨left - 1,by omega⟩
      simp

variable (nm : Bytes)
lemma step_valueOpen (c : UInt8) : step ⟨.valueOpen left,nm⟩ c=step ⟨.valueText left,nm⟩ c := rfl

lemma feed_valueOpen {src : Bytes} (hs : src≠[]) :
    feed step ⟨.valueOpen left,nm⟩ src=feed step ⟨.valueText left,nm⟩ src ∧
      emit step ⟨.valueOpen left,nm⟩ src=emit step ⟨.valueText left,nm⟩ src := by
  cases src with
  | nil => exact absurd rfl hs
  | cons c src =>
    rw [feed_cons,emit_cons,feed_cons,emit_cons,step_valueOpen]
    exact ⟨rfl,rfl⟩

lemma feed_nameText (nm src : Bytes) (h : src.length<left) :
    feed step ⟨.nameText left,nm⟩ src=⟨.nameText (left-src.length),nm++src⟩ ∧ emit step ⟨.nameText left,nm⟩ src=[] := by
  induction src generalizing left nm with
  | nil => simp
  | cons c src ih =>
    have hc : src.length+1<left := by simpa using h
    have hst : step ⟨.nameText left,nm⟩ c=(⟨.nameText (left-1),nm++[c]⟩,[]) := by simp [step,show ¬ left≤1 by omega]
    obtain ⟨hf,he⟩ := ih (left - 1) (nm++[c]) (by omega)
    rw [feed_cons,emit_cons,hst,hf,he,length_cons]
    refine ⟨?_,rfl⟩
    rw [show left-1-src.length=left-(src.length+1) by omega,append_assoc,singleton_append]

lemma feed_nameText_end (nm src : Bytes) (hp : 0<left) (h : left ≤ src.length) :
    feed step ⟨.nameText left,nm⟩ src=feed step ⟨.value,[]⟩ (src.drop left) ∧ emit step ⟨.nameText left,nm⟩ src =
        nm++src.take left++sDlm++emit step ⟨.value,[]⟩ (src.drop left) := by
  induction src generalizing left nm with
  | nil => simp at h; omega
  | cons c src ih =>
    obtain ⟨n,rfl⟩ : ∃n,left=n+1 := ⟨left - 1,by omega⟩
    rw [length_cons] at h
    obtain rfl | hn := Nat.eq_zero_or_pos n
    · have hst : step ⟨.nameText (0+1),nm⟩ c=(⟨.value,[]⟩,nm++[c]++sDlm) := by simp [step]
      rw [feed_cons,emit_cons,hst]
      simp
    · have hst : step ⟨.nameText (n+1),nm⟩ c=(⟨.nameText n,nm++[c]⟩,[]) := by simp [step,show n≠0 by omega]
      obtain ⟨hf,he⟩ := ih n (nm++[c]) hn (by omega)
      rw [feed_cons,emit_cons,hst,hf,he]
      simp

def AfterInt (again : Nat → Nat → Phase) (fin : Nat → Phase) (nm : Bytes) (s : St) (src : Bytes) : IntRead → Prop
  | .limit _ _ => feed step s src=⟨.failed,nm⟩ ∧ emit step s src=[]
  | .more x m => feed step s src=⟨again x m,nm⟩ ∧ emit step s src=[]
  | .done x rest => feed step s src=feed step ⟨fin x,nm⟩ rest ∧ emit step s src=emit step ⟨fin x,nm⟩ rest

lemma feed_int (again : Nat → Nat → Phase) (fin : Nat → Phase)
    (hst : ∀x m nm c,step ⟨again x m,nm⟩ c=(⟨readInt again fin x m c,nm⟩,[])) (x m : Nat) (nm src : Bytes) :
    AfterInt again fin nm ⟨again x m,nm⟩ src (getFlexible x m src) := by
  induction src generalizing x m with
  | nil => exact ⟨rfl,rfl⟩
  | cons c src ih =>
    rw [getFlexible]
    have hs := hst x m nm c
    rw [readInt] at hs
    split_ifs with hl hg
    · rw [if_pos hl] at hs
      exact ⟨by rw [feed_cons,hs,feed_failed],by rw [emit_cons,hs,emit_failed]; rfl⟩
    · rw [if_neg hl,if_pos hg] at hs
      have hi := ih (x+shiftByte c m) (m+7)
      -- the first byte writes nothing, so the run over it is the run after it
      have hf : feed step ⟨again x m,nm⟩ (c::src) =
          feed step ⟨again (x+shiftByte c m) (m+7),nm⟩ src := by rw [feed_cons,hs]
      have he : emit step ⟨again x m,nm⟩ (c::src)=emit step ⟨again (x+shiftByte c m) (m+7),nm⟩ src := by
        rw [emit_cons,hs,nil_append]
      cases hr : getFlexible (x+shiftByte c m) (m+7) src with
      | limit y rest => rw [hr] at hi; exact ⟨hf.trans hi.1,he.trans hi.2⟩
      | more y k => rw [hr] at hi; exact ⟨hf.trans hi.1,he.trans hi.2⟩
      | done y rest => rw [hr] at hi; exact ⟨hf.trans hi.1,he.trans hi.2⟩
    · rw [if_neg hl,if_neg hg] at hs
      exact ⟨by rw [feed_cons,hs],by rw [emit_cons,hs,nil_append]⟩

lemma feed_index (x m : Nat) (nm src : Bytes) :
    AfterInt .index .indexedName nm ⟨.index x m,nm⟩ src (getFlexible x m src) :=
  feed_int .index .indexedName (fun _ _ _ _ => rfl) x m nm src

lemma feed_nameLength (x m : Nat) (nm src : Bytes) :
    AfterInt .nameLength .nameText nm ⟨.nameLength x m,nm⟩ src (getFlexible x m src) :=
  feed_int .nameLength .nameText (fun _ _ _ _ => rfl) x m nm src

lemma feed_valueLength (x m : Nat) (nm src : Bytes) :
    AfterInt .valueLength .valueOpen nm ⟨.valueLength x m,nm⟩ src (getFlexible x m src) :=
  feed_int .valueLength .valueOpen (fun _ _ _ _ => rfl) x m nm src

lemma getFlexible_ge (x m : Nat) (src : Bytes) : match getFlexible x m src with
    | .limit _ _ => True
    | .more y _ => x≤y
    | .done y _ => x≤y := by
  induction src generalizing x m with
  | nil => exact le_refl x
  | cons c src ih =>
    rw [getFlexible]
    split_ifs with hl hg
    · trivial
    · have hi := ih (x+shiftByte c m) (m+7)
      cases hr : getFlexible (x+shiftByte c m) (m+7) src with
      | limit y rest => trivial
      | more y k => rw [hr] at hi; exact (le_add_right _ _).trans hi
      | done y rest => rw [hr] at hi; exact (le_add_right _ _).trans hi
    · exact le_add_right _ _

variable {crlf : Bool} {s s1 : St} {src out : Bytes} {res : Rc×CacheDec} {src1 w : Bytes} {i : Nat}
lemma Follows.later (h : Follows crlf s1 src1 (out++w) res) (hf : feed step s src=feed step s1 src1)
    (he : emit step s src=w++emit step s1 src1) : Follows crlf s src out res := by
  refine ⟨?_,?_,?_⟩
  · rw [h.out_eq,hf,he]
    simp only [append_assoc]
  · rw [h.rc_eq,hf]
  · rw [hf]
    exact h.sim

open Follows

lemma Follows.same (h : Follows crlf s1 src1 out res) (hf : feed step s src=feed step s1 src1)
    (he : emit step s src=emit step s1 src1) : Follows crlf s src out res := by
  refine later (w := []) ?_ hf he
  rwa [append_nil]

lemma Follows.suspend (hf : feed step s src=s1) (he : emit step s src=w) (hl : s1.phase.live=true)
    (hon : s1.phase.isOpen=false) (ho : res.2.out=out++w) (hr : res.1=.ok)
    (hs : Sim res.2 s1) : Follows crlf s src out res := by
  refine ⟨?_,?_,?_⟩
  · rw [hf,he,hon,ho]
    simp
  · rw [hf,hr,if_neg]
    rintro h
    rw [h] at hl
    exact absurd hl (by decide)
  · rw [hf]
    exact fun _ => hs

lemma Follows.fail {nm : Bytes} (hf : feed step s src=⟨.failed,nm⟩) (he : emit step s src=[])
    (ho : res.2.out=out) (hr : res.1=.compression) : Follows crlf s src out res := by
  refine ⟨?_,?_,?_⟩
  · rw [hf,he,ho]
    simp [Phase.isOpen]
  · rw [hf,hr,if_pos rfl]
  · rw [hf]
    intro h
    exact absurd h Bool.false_ne_true

lemma getValueText_follows (crlf : Bool) (d : CacheDec) (nm : Bytes) (hs : src≠[]) (hn : d.hdrData.data=nm) :
    Follows crlf ⟨.valueText d.hp.length,nm⟩ src d.out (d.getValueText src) := by
  by_cases h : src.length<d.hp.length
  · obtain ⟨hf,he⟩ := feed_valueText d.hp.length nm src h
    have hm : min src.length d.hp.length=src.length := min_eq_left h.le
    have hne : d.hp.length-src.length≠0 := by omega
    have hr : d.getValueText src=(.ok,{d with
        out:=d.out++src, accLen:=d.accLen+src.length
        hp:={d.hp with length:=d.hp.length-src.length, state:=.valueText}}) := by
      simp [getValueText,hm,expand,leave,hne]
    rw [hr]
    exact suspend hf he rfl rfl rfl rfl ⟨⟨rfl,rfl⟩,hn⟩
  · obtain ⟨hf,he⟩ := feed_valueText_end d.hp.length nm src hs (by omega)
    have hm : min src.length d.hp.length=d.hp.length := min_eq_right (by omega)
    have ho : (d.getValueText src).2.out=d.out++(src.take d.hp.length++sCrlf) := by simp [getValueText,hm,expand]
    have hrc : (d.getValueText src).1=.ok := by simp [getValueText,hm,expand]
    refine ⟨?_,?_,?_⟩
    · rw [hf,he,ho]
      simp [Phase.isOpen]
    · rw [hf,hrc,if_neg (by simp)]
    · rw [hf]
      intro hl
      exact absurd hl Bool.false_ne_true

lemma openValue_follows (length : Nat) (nm src : Bytes) (hn : d.hdrData.data=nm) :
    Follows true ⟨.valueOpen length,nm⟩ src d.out (d.openValue length src) := by
  cases src with
  | nil => exact ⟨by simp [openValue,expand,leave,Phase.isOpen],by simp [openValue,leave],fun _ => ⟨⟨rfl,rfl⟩,hn⟩⟩
  | cons c src =>
    have hne : c::src≠[] := cons_ne_nil c src
    obtain ⟨hf,he⟩ := feed_valueOpen length nm hne
    have hg := getValueText_follows true {d with hp:={d.hp with length:=length}} nm hne hn
    rw [openValue,if_neg hne]
    exact same (hg) hf he

lemma getValue_follows (c : UInt8) (src : Bytes) (hn : d.hdrData.data=nm) :
    Follows true ⟨valueFirst c,nm⟩ src d.out (d.getValue c src) := by
  rw [getValue,valueFirst]
  by_cases h : c.toNat%128=127
  · have hint := feed_valueLength 127 0 nm src
    simp only [h,if_true]
    cases hr : getFlexible 127 0 src with
    | limit x rest =>
      rw [hr] at hint
      exact fail hint.1 hint.2 rfl rfl
    | more x m =>
      rw [hr] at hint
      exact suspend hint.1 hint.2 rfl rfl (append_nil _).symm rfl ⟨⟨rfl,rfl,rfl⟩,hn⟩
    | done x rest =>
      rw [hr] at hint
      exact same (openValue_follows d x nm rest hn) hint.1 hint.2
  · simp only [h,if_false]
    exact openValue_follows d _ nm src hn

lemma writeNameText_follows (nm src out : Bytes) (ho : d.out=out) (hn : d.hdrData.data=nm) :
    Follows true ⟨.value,[]⟩ src (out++(nm++sDlm)) (d.writeNameText src) := by
  subst ho hn
  cases src with
  | nil =>
    refine suspend (w := []) rfl rfl rfl rfl ?_ rfl ⟨rfl,rfl⟩
    simp [writeNameText,expand,leave]
  | cons c src =>
    have hg := getValue_follows {(d.expand d.hdrData.data).expand sDlm with hdrData:=⟨[]⟩} [] c src rfl
    have ho : ((d.expand d.hdrData.data).expand sDlm).out=d.out++(d.hdrData.data++sDlm) := append_assoc _ _ _
    rw [← ho]
    exact same hg rfl rfl

lemma staticName_of_index (h0 : i≠0) (hi : i ≤ staticEntries) :
    ∃e,(staticTable (κ := Unit))[i-1]?=some e ∧ e.nameNum=1 ∧
      staticName i=some ((e.hdr.chunks.headD []).take e.nameLen) := by
  have hlt : i-1<(staticTable (κ := Unit)).length := by
    rw [staticTable_length]
    omega
  have ho : ∀e∈staticTable (κ := Unit),e.nameNum=1 := by decide
  refine ⟨(staticTable (κ := Unit)).get ⟨i-1,hlt⟩,?_,?_,?_⟩
  · simp [hlt]
  · exact ho _ (get_mem _ _)
  · simp [staticName,h0,hlt]

lemma staticName_none (h : i=0 ∨ staticEntries < i) : staticName i=none := by
  unfold staticName
  obtain rfl | h := h
  · rfl
  · have hl : (staticTable (κ := Unit)).length ≤ i-1 := by
      rw [staticTable_length]
      omega
    rw [if_neg (by omega),getElem?_eq_none hl]
    rfl

lemma getIndexedName_follows (hs : src≠[]) :
    Follows true ⟨.indexedName d.hp.index,d.hdrData.data⟩ src d.out (d.getIndexedName src) := by
  obtain ⟨c,src,rfl⟩ := exists_cons_of_ne_nil hs
  rw [getIndexedName]
  by_cases h : d.hp.index=0 ∨ staticEntries<d.hp.index
  · have hst : step ⟨.indexedName d.hp.index,d.hdrData.data⟩ c=(⟨.failed,d.hdrData.data⟩,[]) := by
      simp [step,staticName_none h]
    rw [if_pos h]
    have hf : feed step ⟨.indexedName d.hp.index,d.hdrData.data⟩ (c::src) =
        ⟨.failed,d.hdrData.data⟩ := by rw [feed_cons,hst,feed_failed]
    refine fail hf ?_ rfl rfl
    rw [emit_cons,hst,emit_failed,nil_append]
  · obtain ⟨e,he,hn,hna⟩ := staticName_of_index (i := d.hp.index) (by omega) (by omega)
    have hst : step ⟨.indexedName d.hp.index,d.hdrData.data⟩ c =
        (⟨valueFirst c,[]⟩,(e.hdr.chunks.headD []).take e.nameLen++sDlm) := by
      simp [step,hna]
    have hg := writeNameText_follows {d with hdrData:=⟨[(e.hdr.chunks.headD []).take e.nameLen]⟩}
      ((e.hdr.chunks.headD []).take e.nameLen) (c::src) d.out rfl (by simp [data])
    rw [if_neg h,he]
    simp only [hn,ne_eq,not_true_eq_false,if_false]
    refine later hg ?_ ?_
    · rw [feed_cons,hst]
      rfl
    · rw [emit_cons,hst]
      rfl

lemma data_concat (chunks : List Bytes) (x : Bytes) : data ⟨chunks++[x]⟩=data ⟨chunks⟩++x := by simp [data]

lemma getNameText_follows (src : Bytes) (hpo : 0<d.hp.length) :
    Follows true ⟨.nameText d.hp.length,d.hdrData.data⟩ src d.out (d.getNameText src) := by
  by_cases h : src.length<d.hp.length
  · obtain ⟨hf,he⟩ := feed_nameText d.hp.length d.hdrData.data src h
    have hm : min src.length d.hp.length=src.length := min_eq_left h.le
    have hne : d.hp.length-src.length≠0 := by omega
    have hr : d.getNameText src=(.ok,{d with
        hdrData:=⟨d.hdrData.chunks++[src]⟩
        hp:={d.hp with length:=d.hp.length-src.length, state:=.nameText}}) := by
      simp [getNameText,hm,leave,hne]
    rw [hr]
    exact suspend hf he rfl rfl (append_nil _).symm rfl ⟨⟨rfl,rfl,by omega⟩,data_concat _ _⟩
  · obtain ⟨hf,he⟩ := feed_nameText_end d.hp.length d.hdrData.data src hpo (by omega)
    have hm : min src.length d.hp.length=d.hp.length := min_eq_right (by omega)
    have hr : d.getNameText src={d with
        hdrData:=⟨d.hdrData.chunks++[src.take d.hp.length]⟩
        hp:={d.hp with length:=0}}.writeNameText (src.drop d.hp.length) := by
      simp [getNameText,hm]
    rw [hr]
    refine later (writeNameText_follows _ _ _ _ rfl (data_concat _ _)) hf ?_
    rw [he]

lemma openName_follows (length : Nat) (src : Bytes) (hpo : 0<length) :
    Follows true ⟨.nameText length,d.hdrData.data⟩ src d.out (d.openName length src) := by
  rw [openName]
  split_ifs with h
  · subst h
    exact suspend rfl rfl rfl rfl (append_nil _).symm rfl ⟨⟨rfl,rfl,hpo⟩,rfl⟩
  · exact getNameText_follows {d with hp:={d.hp with length:=length}} src hpo

lemma getName_follows (c : UInt8) (src : Bytes) :
    Follows true ⟨nameFirst c,d.hdrData.data⟩ src d.out (d.getName c src) := by
  rw [getName,nameFirst]
  by_cases h : c.toNat%128=127
  · have hint := feed_nameLength 127 0 d.hdrData.data src
    have hge := getFlexible_ge 127 0 src
    simp only [h,if_true]
    cases hr : getFlexible 127 0 src with
    | limit x rest =>
      rw [hr] at hint
      exact fail hint.1 hint.2 rfl rfl
    | more x m =>
      rw [hr] at hint hge
      exact suspend hint.1 hint.2 rfl rfl (append_nil _).symm rfl
        ⟨⟨rfl,rfl,rfl,lt_of_lt_of_le (by decide) hge⟩,rfl⟩
    | done x rest =>
      rw [hr] at hint hge
      exact same (openName_follows d x rest (lt_of_lt_of_le (by decide) hge)) hint.1 hint.2
  · simp only [h,if_false]
    by_cases h0 : c.toNat%128=0
    · simp only [h0,if_true]
      exact fail (feed_failed _ _) (emit_failed _ _) rfl rfl
    · simp only [h0,if_false]
      exact openName_follows d _ src (pos_of_ne_zero h0)

def indexPhase (i : Nat) : Phase := if i=0 then .name else .indexedName i

lemma openIndex_follows (i : Nat) (src : Bytes) :
    Follows true ⟨indexPhase i,d.hdrData.data⟩ src d.out (d.openIndex i src) := by
  rw [indexPhase]
  cases src with
  | nil =>
    by_cases h : i=0
    · simp only [openIndex,h,if_true,ne_eq,not_true_eq_false,if_false]
      exact suspend rfl rfl rfl rfl (append_nil _).symm rfl ⟨rfl,rfl⟩
    · simp only [openIndex,h,if_true,ne_eq,not_false_eq_true,if_false]
      exact suspend rfl rfl rfl rfl (append_nil _).symm rfl ⟨⟨rfl,rfl⟩,rfl⟩
  | cons c src =>
    by_cases h : i=0
    · have hg := getName_follows {d with hp:={d.hp with index:=i}} c src
      simp only [openIndex,h,if_true,ne_eq,not_true_eq_false,if_false] at hg ⊢
      exact same hg rfl rfl
    · simp only [openIndex,h,if_true,ne_eq,not_false_eq_true,if_false]
      exact getIndexedName_follows {d with hp:={d.hp with index:=i}} (cons_ne_nil c src)

lemma getReady_follows (c : UInt8) (src : Bytes) :
    Follows true ⟨readyFirst c,d.hdrData.data⟩ src d.out (d.getReady c src) := by
  rw [getReady,readyFirst]
  by_cases hh : c.toNat/16=0
  · simp only [hh,ne_eq,not_true_eq_false,if_false]
    by_cases h : c.toNat%16=15
    · have hint := feed_index 15 0 d.hdrData.data src
      have hge := getFlexible_ge 15 0 src
      simp only [h,if_true]
      cases hr : getFlexible 15 0 src with
      | limit x rest =>
        rw [hr] at hint
        exact fail hint.1 hint.2 rfl rfl
      | more x m =>
        rw [hr] at hint hge
        exact suspend hint.1 hint.2 rfl rfl (append_nil _).symm rfl
          ⟨⟨rfl,rfl,rfl,lt_of_lt_of_le (by decide) hge⟩,rfl⟩
      | done x rest =>
        rw [hr] at hint hge
        have hx : x≠0 := (lt_of_lt_of_le (show 0<15 by decide) hge).ne'
        have hg := openIndex_follows d x rest
        rw [indexPhase,if_neg hx] at hg
        exact same (hg) hint.1 hint.2
    · simp only [h,if_false]
      exact openIndex_follows d _ src
  · simp only [hh,ne_eq,not_false_eq_true,if_true]
    exact fail (feed_failed _ _) (emit_failed _ _) rfl rfl

lemma decodeExpand_follows {d : CacheDec} {frag : Bytes} (hs : frag≠[]) (hsi : Sim d s) :
    Follows (!s.phase.inLength) s frag d.out (tfwHpackCacheDecodeExpand d frag) := by
  obtain ⟨c,src,rfl⟩ := exists_cons_of_ne_nil hs
  obtain ⟨phase,nm⟩ := s
  obtain ⟨hph,rfl⟩ := hsi
  cases phase with
  | ready =>
    have hst : d.hp.state=.ready := hph
    have hg := getReady_follows d c src
    simp only [tfwHpackCacheDecodeExpand,hst]
    exact same hg rfl rfl
  | index x m =>
    obtain ⟨hst,rfl,rfl,hpo⟩ := hph
    have hint := feed_index d.hp.index d.hp.shift d.hdrData.data (c::src)
    have hge := getFlexible_ge d.hp.index d.hp.shift (c::src)
    simp only [tfwHpackCacheDecodeExpand,hst]
    rw [contIndex,getContinue_eq]
    cases hr : getFlexible d.hp.index d.hp.shift (c::src) with
    | limit x rest =>
      rw [hr] at hint
      exact fail hint.1 hint.2 rfl rfl
    | more x m =>
      rw [hr] at hint hge
      exact suspend hint.1 hint.2 rfl rfl (append_nil _).symm rfl ⟨⟨rfl,rfl,rfl,lt_of_lt_of_le hpo hge⟩,rfl⟩
    | done x rest =>
      rw [hr] at hint
      refine same ?_ hint.1 hint.2
      dsimp only
      split_ifs with hre
      · subst hre
        exact suspend rfl rfl rfl rfl (append_nil _).symm rfl ⟨⟨rfl,rfl⟩,rfl⟩
      · exact getIndexedName_follows {d with hp:={d.hp with index:=x}} hre
  | name =>
    have hst : d.hp.state=.name := hph
    have hg := getName_follows d c src
    simp only [tfwHpackCacheDecodeExpand,hst]
    exact same hg rfl rfl
  | nameLength x m =>
    obtain ⟨hst,rfl,rfl,hpo⟩ := hph
    have hint := feed_nameLength d.hp.length d.hp.shift d.hdrData.data (c::src)
    have hge := getFlexible_ge d.hp.length d.hp.shift (c::src)
    simp only [tfwHpackCacheDecodeExpand,hst]
    rw [contNameLength,getContinue_eq]
    cases hr : getFlexible d.hp.length d.hp.shift (c::src) with
    | limit x rest =>
      rw [hr] at hint
      exact fail hint.1 hint.2 rfl rfl
    | more x m =>
      rw [hr] at hint hge
      exact suspend hint.1 hint.2 rfl rfl (append_nil _).symm rfl ⟨⟨rfl,rfl,rfl,lt_of_lt_of_le hpo hge⟩,rfl⟩
    | done x rest =>
      rw [hr] at hint hge
      exact same (openName_follows d x rest (lt_of_lt_of_le hpo hge)) hint.1 hint.2
  | nameText left =>
    obtain ⟨hst,rfl,hpo⟩ := hph
    simp only [tfwHpackCacheDecodeExpand,hst]
    exact getNameText_follows d (c::src) hpo
  | indexedName i =>
    obtain ⟨hst,rfl⟩ := hph
    simp only [tfwHpackCacheDecodeExpand,hst]
    exact getIndexedName_follows d hs
  | value =>
    have hst : d.hp.state=.value := hph
    have hg := getValue_follows d d.hdrData.data c src rfl
    simp only [tfwHpackCacheDecodeExpand,hst]
    exact same hg rfl rfl
  | valueLength x m =>
    obtain ⟨hst,rfl,rfl⟩ := hph
    have hint := feed_valueLength d.hp.length d.hp.shift d.hdrData.data (c::src)
    simp only [tfwHpackCacheDecodeExpand,hst]
    rw [contValueLength,getContinue_eq]
    cases hr : getFlexible d.hp.length d.hp.shift (c::src) with
    | limit x rest =>
      rw [hr] at hint
      exact fail hint.1 hint.2 rfl rfl
    | more x m =>
      rw [hr] at hint
      exact suspend hint.1 hint.2 rfl rfl (append_nil _).symm rfl ⟨⟨rfl,rfl,rfl⟩,rfl⟩
    | done x rest =>
      rw [hr] at hint
      refine same ?_ hint.1 hint.2
      dsimp only
      split_ifs with hre
      · subst hre
        exact ⟨by simp [leave,Phase.inLength],by simp [leave],fun _ => ⟨⟨rfl,rfl⟩,rfl⟩⟩
      · obtain ⟨hf,he⟩ := feed_valueOpen x d.hdrData.data hre
        exact same (getValueText_follows _ {d with hp:={d.hp with length:=x}} _ hre rfl) hf he
  | valueOpen left =>
    obtain ⟨hst,rfl⟩ := hph
    obtain ⟨hf,he⟩ := feed_valueOpen d.hp.length d.hdrData.data hs
    simp only [tfwHpackCacheDecodeExpand,hst]
    exact same (getValueText_follows _ d _ hs rfl) hf he
  | valueText left =>
    obtain ⟨hst,rfl⟩ := hph
    simp only [tfwHpackCacheDecodeExpand,hst]
    exact getValueText_follows _ d _ hs rfl
  | done => exact hph.elim
  | failed => exact hph.elim
end CacheReader
end VetWaf.Hpack
