import VetWaf.Tdb.BurstBag

namespace VetWaf.Tdb
open Outcome List Function Option Nat

lemma mod_extend {k k' b : Nat} (hm : k%2^b=k'%2^b) (hi : htrieIdx k b=htrieIdx k' b) : k%2^(b+4)=k'%2^(b+4) := by
  have hd : k/2^b%16=k'/2^b%16 := by
    rw [← shiftRight_eq_div_pow,← shiftRight_eq_div_pow]
    exact congrArg Fin.val hi
  rw [pow_add,mod_mul,mod_mul,hm]
  exact congrArg (fun d => k'%2^b+2^b*d) hd

def Agree (rem : Nat) (P : Nat → Prop) : Prop := ∀k k',P k → P k' → k%2^bitsAt rem=k'%2^bitsAt rem
def Below (rem : Nat) (P : Nat → Prop) (i : Fin 16) (k : Nat) : Prop := P k ∧ htrieIdx k (bitsAt (rem+1))=i

lemma Agree.below {rem : Nat} {P : Nat → Prop} (h : Agree (rem+1) P) (hr : rem<16) (i : Fin 16) :
    Agree rem (Below rem P i) := by
  intro k k' hk hk'
  have hb : bitsAt rem=bitsAt (rem+1)+4 := by
    unfold bitsAt
    omega
  rw [hb]
  exact mod_extend (h k k' hk.1 hk'.1) (hk.2.trans hk'.2.symm)

lemma agree_root : Agree 16 (fun _ => True) := by
  intro k k' _ _
  rw [show bitsAt 16=0 from rfl,pow_zero,mod_one,mod_one]

lemma Agree.eq {P : Nat → Prop} (h : Agree 0 P) {k k' : Nat} (hk : P k) (hk' : P k') (hlt : k<2^64)
    (hlt' : k'<2^64) : k=k' := by
  have hm := h k k' hk hk'
  rwa [show bitsAt 0=64 from rfl,mod_eq_of_lt hlt,mod_eq_of_lt hlt'] at hm

variable {D : Type} {recLen rem : Nat} {users : Bool} {P : Nat → Prop}
def shiftBag : Shift D → Multiset (Nat×D)
  | .none => 0
  | .bckt b coll => chainBag (b::coll)
  | .index shifts => ∑ i,shiftBag (shifts i)

/-- An entry with `rem` levels below it, whose keys are as `P` says. -/
def ShiftOk (recLen : Nat) (users : Bool) : Nat → (Nat → Prop) → Shift D → Prop
  | _, _, .none => True
  | rem, P, .bckt b coll => (∀b'∈b::coll,BucketOk recLen users P b') ∧ (rem≠0 → coll=[])
  | 0, _, .index _ => False
  | rem+1, P, .index shifts => ∀i,ShiftOk recLen users rem (Below rem P i) (shifts i)

lemma shiftOk_none : ShiftOk (D := D) recLen users rem P .none := by
  unfold ShiftOk
  trivial

variable {b : TdbBucket D} {sh : Shift D} {e : Nat×D} {chain : List (TdbBucket D)} {blk : DataBlk D}
lemma shiftOk_bckt {coll : List (TdbBucket D)} : ShiftOk recLen users rem P (.bckt b coll) ↔
      (∀b'∈b::coll,BucketOk recLen users P b') ∧ (rem≠0 → coll=[]) := by
  rw [ShiftOk]

lemma shiftBag_update (shifts : Fin 16 → Shift D) (i : Fin 16) (sh : Shift D) :
    shiftBag (.index (Function.update shifts i sh))=shiftBag sh + ∑ k∈Finset.univ.erase i,shiftBag (shifts k) := by
  rw [shiftBag,← Finset.add_sum_erase _ _ (Finset.mem_univ i),update_self]
  refine congrArg (shiftBag sh + ·) (Finset.sum_congr rfl fun k hk => ?_)
  rw [update_of_ne (Finset.ne_of_mem_erase hk)]

lemma shiftBag_split (shifts : Fin 16 → Shift D) (i : Fin 16) :
    shiftBag (.index shifts)=shiftBag (shifts i) + ∑ k∈Finset.univ.erase i,shiftBag (shifts k) := by
  rw [← shiftBag_update,update_eq_self]

lemma ShiftOk.update {shifts : Fin 16 → Shift D} (h : ShiftOk recLen users (rem+1) P (.index shifts)) {i : Fin 16}
    (hs : ShiftOk recLen users rem (Below rem P i) sh) :
    ShiftOk recLen users (rem+1) P (.index (Function.update shifts i sh)) := by
  intro k
  by_cases hk : k=i
  · subst hk
    rw [update_self]
    exact hs
  · rw [update_of_ne hk]
    exact h k

lemma BucketOk.mem_bag (h : BucketOk recLen users P b) (he : e∈bucketBag b) : P e.1 := by
  cases hf : b.first with
  | none =>
    rw [bucketBag_of_none hf] at he
    exact absurd he (Multiset.notMem_zero e)
  | some blk =>
    rw [bucketBag_of_some hf] at he
    obtain ⟨r,hr,hne,rfl⟩ := mem_recsBag.1 he
    exact (h blk hf).key r hr hne

lemma mem_chainBag : e∈chainBag chain ↔ ∃b∈chain,e∈bucketBag b := by
  induction chain with
  | nil => simp [chainBag]
  | cons b chain ih => rw [chainBag_cons,Multiset.mem_add,ih,exists_mem_cons_iff]

lemma ShiftOk.mem_bag (h : ShiftOk recLen users rem P sh) (he : e∈shiftBag sh) : P e.1 := by
  induction sh generalizing rem P with
  | none => exact absurd he (Multiset.notMem_zero e)
  | bckt b coll =>
    obtain ⟨b',hb',he'⟩ := mem_chainBag.1 he
    exact ((shiftOk_bckt.1 h).1 b' hb').mem_bag he'
  | index shifts ih =>
    cases rem with
    | zero => exact h.elim
    | succ rem =>
      obtain ⟨i,-,he'⟩ := Multiset.mem_sum.1 he
      exact (ih i (h i) he').1

lemma ShiftOk.not_mem_rest {shifts : Fin 16 → Shift D} (h : ShiftOk recLen users (rem+1) P (.index shifts))
    {i : Fin 16} (he : e ∈ ∑ k∈Finset.univ.erase i,shiftBag (shifts k)) :
    htrieIdx e.1 (bitsAt (rem+1))≠i := by
  obtain ⟨k,hk,he'⟩ := Multiset.mem_sum.1 he
  rw [((h k).mem_bag he').2]
  exact Finset.ne_of_mem_erase hk

def TableOk (recLen : Nat) (users : Bool) (dbh : TdbHdr D) : Prop :=
  ShiftOk recLen users 16 (fun _ => True) (.index dbh.root)
def tableBag (dbh : TdbHdr D) : Multiset (Nat×D) := shiftBag (.index dbh.root)
lemma tableOk_empty : TableOk recLen users ({} : TdbHdr D) := fun _ => shiftOk_none

lemma tableBag_empty : tableBag ({} : TdbHdr D)=0 := by
  unfold tableBag shiftBag
  exact Finset.sum_eq_zero fun _ _ => rfl

lemma BucketOk.head_live [Inhabited D] (h : BucketOk recLen users P b) (hl : GoodLen recLen) (hfi : b.first=some blk)
    (hf : freeSlot recLen b=none) : ∃r,blk.recs.headD default=r ∧ r∈blk.recs ∧ r.isRemoved=false := by
  obtain ⟨hln,hs,-,⟨r,hr,hne⟩,hh⟩ := h blk hfi
  cases hre : blk.recs with
  | nil =>
    rw [hre] at hr
    cases hr
  | cons frec rest =>
    refine ⟨frec,rfl,.head _,?_⟩
    rw [hre] at hln hr hs
    cases users with
    | true => exact hh rfl frec rest hre
    | false =>
      cases hla : recordsAreLarge recLen with
      | true =>
        rw [roomCount,smallCount_of_large hla] at hln
        rw [length_eq_zero_iff.1 (Nat.succ.inj hln),mem_singleton] at hr
        exact hr ▸ hne
      | false =>
        rw [hl.roomCount_eq hla] at hln
        unfold freeSlot at hf
        rw [hfi,bind_some,hre,← hln,take_length] at hf
        have hk := findIdx?_eq_none_iff.1 hf frec (.head _)
        obtain hrem | hli := hs frec (.head _)
        · simp [TdbFRec.live,hrem.2 rfl] at hk
        · exact hli.isRemoved

lemma smallrecLink_none {r : TdbFRec D} {coll : List (TdbBucket D)}
    (h : smallrecLink recLen r (b::coll)=none) : freeSlot recLen b=none := by
  rw [smallrecLink] at h
  cases hf : freeSlot recLen b with
  | none => rfl
  | some j =>
    rw [hf] at h
    cases h

variable (rem) in
lemma LeafOk.shiftOk (h : LeafOk recLen users P sh) : ShiftOk recLen users rem P sh ∧ shiftBag sh=leafBag sh := by
  obtain rfl | ⟨b,rfl,hb⟩ := h
  · exact ⟨shiftOk_none,rfl⟩
  · refine ⟨shiftOk_bckt.2 ⟨?_,fun _ => rfl⟩,?_⟩
    · intro b' hb'
      rw [mem_singleton.1 hb']
      exact hb
    · rw [shiftBag,chainBag_cons]
      exact add_zero _

/-- What `tdb_htrie_smallrec_link` gives for a new record -/
def linkNew (recLen refcnt key : Nat) (data : D) (b : TdbBucket D) (coll : List (TdbBucket D)) :
    Option (List (TdbBucket D)) :=
  if recLen < mindrec then smallrecLink recLen {createRec b.id key data with refcnt} (b::coll) else none

variable {refcnt key : Nat} {data : D} {b : TdbBucket D} {coll : List (TdbBucket D)}
lemma linkNew_none (h : linkNew recLen refcnt key data b coll=none) : freeSlot recLen b=none := by
  unfold linkNew at h
  by_cases hlt : recLen < mindrec
  · rw [if_pos hlt] at h
    exact smallrecLink_none h
  · exact freeSlot_of_large (large_of_ge (Nat.le_of_not_lt hlt)) b

lemma linkNew_some (h : ∀b'∈b::coll,BucketOk recLen users P b') (hr : GoodRefs users refcnt) (hP : P key) (hne : key≠0)
    (hlt : key<2^64) (hli : linkNew recLen refcnt key data b coll=some chain) :
    ∃b' coll',chain=b'::coll' ∧ (∀b''∈b'::coll',BucketOk recLen users P b'') ∧
      coll'.length=coll.length ∧ chainBag (b'::coll')={(key,data)}+chainBag (b::coll) := by
  unfold linkNew at hli
  by_cases hm : recLen < mindrec
  · rw [if_pos hm] at hli
    have hla : recordsAreLarge recLen=false := by
      cases hl : recordsAreLarge recLen with
      | false => rfl
      | true =>
        rw [smallrecLink_of_large hl] at hli
        cases hli
    have hn : ∀bid,NewRec recLen users bid P {createRec b.id key data with refcnt} := fun bid =>
      ⟨⟨hne,hlt,rfl,fun hl => (by rw [hla] at hl; cases hl),rfl,hr.pos,hr.one⟩,hP⟩
    obtain ⟨hok,hb,hle⟩ := smallrecLink_spec h hn hli
    cases chain with
    | nil => cases hle
    | cons b' coll' => exact ⟨b',coll',rfl,hok,Nat.succ.inj hle,hb⟩
  · rw [if_neg hm] at hli
    cases hli

variable [Inhabited D]
lemma insert_none (hr : GoodRefs users refcnt) (hP : P key) (hne : key≠0) (hlt : key<2^64)
    {beyond : Nat → Nat → Bool} {a : Alloc} :
    ∃sh' a',insertShift recLen beyond none refcnt key data rem (.none : Shift D) a=.ok (sh',a') ∧
      ShiftOk recLen users rem P sh' ∧ shiftBag sh'={(key,data)}+shiftBag (.none : Shift D) := by
  have hn : NewKey recLen users P {createRec 0 key data with refcnt} := newKey_create hr hne hlt hP 0 data
  obtain ⟨hok,hb⟩ := hn.newBucket a
  rw [insertShift]
  obtain ⟨hs,hl⟩ := LeafOk.shiftOk rem (.inr ⟨_,rfl,hok⟩)
  refine ⟨_,_,rfl,hs,?_⟩
  rw [shiftBag,add_zero]
  exact hl.trans hb

variable (rem) in
lemma insert_here (h : ∀b'∈b::coll,BucketOk recLen users P b') (hrefs : GoodRefs users refcnt) (hP : P key)
    (hne : key≠0) (hlt : key<2^64)
    (hhere : b.first=none ∨ (linkNew recLen refcnt key data b coll).isSome=true) (beyond : Nat → Nat → Bool)
    (a : Alloc) :
    ∃b' coll' a',insertShift recLen beyond none refcnt key data rem (.bckt b coll) a=.ok (.bckt b' coll',a') ∧
      (∀b''∈b'::coll',BucketOk recLen users P b'') ∧ coll'.length=coll.length ∧
      chainBag (b'::coll')={(key,data)}+chainBag (b::coll) := by
  have hrec : NewRec recLen users b.id P {createRec b.id key data with refcnt} :=
    newKey_create hrefs hne hlt hP b.id data b.id
  rw [insertShift,removeEq,ok_bind]
  cases hfirst : b.first with
  | none =>
    obtain ⟨hok,hbag⟩ := BucketOk.assignRecord hrec a
    refine ⟨_,coll,_,rfl,?_,rfl,?_⟩
    · intro b' hb'
      obtain rfl | hb' := mem_cons.1 hb'
      · exact hok
      · exact h b' (.tail _ hb')
    · rw [chainBag_cons,chainBag_cons,bucketBag_of_none hfirst,zero_add]
      exact congrArg (· + chainBag coll) hbag
  | some blk =>
    rw [hfirst] at hhere
    obtain ⟨chain,hlink⟩ := isSome_iff_exists.1 (hhere.resolve_left (by simp))
    obtain ⟨b',coll',rfl,hok,hlength,hbag⟩ := linkNew_some h hrefs hP hne hlt hlink
    refine ⟨b',coll',a,?_,hok,hlength,hbag⟩
    unfold linkNew createRec at hlink
    simp only [createRec,hlink]

variable {beyond : Nat → Nat → Bool}
lemma insert_last (h : ∀b'∈b::coll,BucketOk recLen users P b') (hl : GoodLen recLen) (ha : Agree 0 P)
    (hre : GoodRefs users refcnt) (hP : P key) (hne : key≠0) (hlt : key<2^64)
    (hf : b.first=some blk) (hli : linkNew recLen refcnt key data b coll=none) (a : Alloc) :
    ∃coll' a',insertShift recLen beyond none refcnt key data 0 (.bckt b coll) a=.ok (.bckt b coll',a') ∧
      (∀b'∈b::coll',BucketOk recLen users P b') ∧ chainBag (b::coll')={(key,data)}+chainBag (b::coll) := by
  have hb := h b (.head _)
  obtain ⟨r,hh,hr,hlv⟩ := hb.head_live hl hf (linkNew_none hli)
  have hk : bucketKey blk=key := by
    rw [bucketKey,hh]
    obtain ⟨-,hs,hke,-⟩ := hb blk hf
    exact ha.eq (hke r hr hlv) hP ((hs r hr).live hlv).key_lt hlt
  have hn : NewKey recLen users P {createRec b.id key data with refcnt} := newKey_create hre hne hlt hP b.id data
  obtain ⟨coll',a',hc,hok,hba⟩ := hn.collInsert (fun b' hb' => h b' (.tail _ hb')) a
  refine ⟨coll',a',?_,?_,?_⟩
  · unfold linkNew createRec at hli
    unfold createRec at hc
    simp only [insertShift,removeEq,createRec,ok_bind,hf,hli,hk,ne_eq,not_true,if_false,hc]
  · intro b' hb'
    obtain rfl | hb' := mem_cons.1 hb'
    · exact hb
    · exact hok b' hb'
  · rw [chainBag_cons,chainBag_cons,hba,add_left_comm]
    rfl

lemma insert_burst (hb : BucketOk recLen users P b) (hl : GoodLen recLen)
    (hbe : ∀id bits,beyond id bits=true) (hf : b.first=some blk)
    (hli : linkNew recLen refcnt key data b []=none) (a : Alloc) :
    ∃shifts a',insertShift recLen beyond none refcnt key data (rem+1) (.bckt b []) a =
        insertShift recLen beyond none refcnt key data (rem+1) (.index shifts) a' ∧
      ShiftOk recLen users (rem+1) P (.index shifts) ∧ shiftBag (.index shifts)=shiftBag (.bckt b []) := by
  obtain ⟨r,hh,-,hlv⟩ := hb.head_live hl hf (linkNew_none hli)
  obtain ⟨shifts,a',hbu,hle,hba⟩ := hb.htrieBurst hl hf (hh.symm ▸ hlv) hbe (bitsAt (rem+1)) a
  refine ⟨shifts,a',?_,fun i => (LeafOk.shiftOk rem (hle i)).1,?_⟩
  · unfold linkNew createRec at hli
    rw [insertShift,insertShift]
    simp only [removeEq,createRec,ok_bind,hf,hli,isEmpty_nil,Bool.not_true,Bool.false_eq_true,if_false,hbu]
  · have hs : shiftBag (.index shifts) = ∑ i,leafBag (shifts i) :=
      Finset.sum_congr rfl fun i _ => (LeafOk.shiftOk rem (hle i)).2
    rw [hs,hba]
    exact (add_zero _).symm

variable (data) in
lemma ShiftOk.insert (h : ShiftOk recLen users rem P sh) (hlen : GoodLen recLen)
    (hbeyond : ∀id bits,beyond id bits=true) (hrem : rem≤16) (hagree : Agree rem P)
    (hrefs : GoodRefs users refcnt) (hP : P key) (hne : key≠0) (hlt : key<2^64) (a : Alloc) :
    ∃sh' a',insertShift recLen beyond none refcnt key data rem sh a=.ok (sh',a') ∧ ShiftOk recLen users rem P sh' ∧
      shiftBag sh'={(key,data)}+shiftBag sh := by
  induction rem generalizing P sh a with
  | zero =>
    cases sh with
    | none => exact insert_none hrefs hP hne hlt
    | bckt b coll =>
      obtain ⟨hbckts,-⟩ := shiftOk_bckt.1 h
      by_cases hhere : b.first=none ∨ (linkNew recLen refcnt key data b coll).isSome=true
      · obtain ⟨b',coll',a',hins,hok,-,hbag⟩ := insert_here 0 hbckts hrefs hP hne hlt hhere beyond a
        exact ⟨.bckt b' coll',a',hins,shiftOk_bckt.2 ⟨hok,fun h0 => absurd rfl h0⟩,hbag⟩
      · rw [not_or,Bool.not_eq_true,isSome_eq_false_iff,isNone_iff_eq_none] at hhere
        obtain ⟨blk,hfirst⟩ := ne_none_iff_exists'.1 hhere.1
        obtain ⟨coll',a',hins,hok,hbag⟩ := insert_last hbckts hlen hagree hrefs hP hne hlt hfirst hhere.2 a
        exact ⟨.bckt b coll',a',hins,shiftOk_bckt.2 ⟨hok,fun h0 => absurd rfl h0⟩,hbag⟩
    | index shifts => exact h.elim
  | succ rem ih =>
    -- an index node that is there, or that a burst has made
    have hindex : ∀shifts a,ShiftOk recLen users (rem+1) P (.index shifts) →
        ∃sh' a',insertShift recLen beyond none refcnt key data (rem+1) (.index shifts) a=.ok (sh',a') ∧
          ShiftOk recLen users (rem+1) P sh' ∧ shiftBag sh'={(key,data)}+shiftBag (.index shifts) := by
      intro shifts a hshifts
      have hbelow : Below rem P (htrieIdx key (bitsAt (rem+1))) key := ⟨hP,rfl⟩
      obtain ⟨sh',a',hins,hok,hbag⟩ := ih (hshifts _) (by omega) (hagree.below (by omega) _) hbelow a
      refine ⟨.index (Function.update shifts _ sh'),a',?_,hshifts.update hok,?_⟩
      · simp only [insertShift,hins,ok_bind]
      · rw [shiftBag_update,hbag,add_assoc,← shiftBag_split]
    cases sh with
    | none => exact insert_none hrefs hP hne hlt
    | bckt b coll =>
      obtain ⟨hbckts,hcoll⟩ := shiftOk_bckt.1 h
      have hnil : coll=[] := hcoll (succ_ne_zero rem)
      subst hnil
      by_cases hhere : b.first=none ∨ (linkNew recLen refcnt key data b []).isSome=true
      · obtain ⟨b',coll',a',hins,hok,hlength,hbag⟩ := insert_here (rem+1) hbckts hrefs hP hne hlt hhere beyond a
        exact ⟨.bckt b' coll',a',hins,shiftOk_bckt.2 ⟨hok,fun _ => length_eq_zero_iff.1 hlength⟩,hbag⟩
      · rw [not_or,Bool.not_eq_true,isSome_eq_false_iff,isNone_iff_eq_none] at hhere
        obtain ⟨blk,hfirst⟩ := ne_none_iff_exists'.1 hhere.1
        obtain ⟨shifts,a',hins,hok,hbag⟩ := insert_burst (hbckts b (.head _)) hlen hbeyond hfirst hhere.2 a
        rw [hins,← hbag]
        exact hindex shifts a' hok
    | index shifts => exact hindex shifts a h

variable {p : Nat → D → Bool}
lemma removeChain_spec (hl : GoodLen recLen) (h : ∀b∈chain,BucketOk recLen false P b) :
    ∃chain',removeChain recLen (eqOf p) chain=.ok chain' ∧ (∀b∈chain',BucketOk recLen false P b) ∧
      chain'.length=chain.length ∧ chainBag chain'=(chainBag chain).filter (fun e => p e.1 e.2=false) := by
  induction chain with
  | nil => exact ⟨[],rfl,h,rfl,rfl⟩
  | cons b chain ih =>
    obtain ⟨b',hb,-,hok,hbag⟩ := (h b (.head _)).remove hl p
    obtain ⟨chain',hc,ho,hln,hba⟩ := ih fun b hb => h b (.tail _ hb)
    refine ⟨b'::chain',?_,?_,?_,?_⟩
    · simp only [removeChain,hb,hc,ok_bind]
    · intro b'' hb''
      obtain rfl | hb'' := mem_cons.1 hb''
      · exact hok
      · exact ho b'' hb''
    · rw [length_cons,length_cons,hln]
    · rw [chainBag_cons,chainBag_cons,Multiset.filter_add,hbag,hba]

lemma ShiftOk.remove (h : ShiftOk recLen false rem P sh) (hl : GoodLen recLen) (hp : ∀k d,p k d=true → k=key) :
    ∃sh',removeShift recLen (eqOf p) key rem sh=.ok sh' ∧ ShiftOk recLen false rem P sh' ∧
      shiftBag sh'=(shiftBag sh).filter (fun e => p e.1 e.2=false) := by
  induction sh generalizing rem P with
  | none => exact ⟨.none,by rw [removeShift],shiftOk_none,rfl⟩
  | bckt b coll =>
    obtain ⟨hbc,hco⟩ := shiftOk_bckt.1 h
    obtain ⟨b',hb,-,hok,hbag⟩ := (hbc b (.head _)).remove hl p
    obtain ⟨coll',hc,ho,hln,hba⟩ := removeChain_spec (p := p) hl fun b' hb' => hbc b' (.tail _ hb')
    refine ⟨.bckt b' coll',?_,shiftOk_bckt.2 ⟨?_,fun h0 => ?_⟩,?_⟩
    · rw [removeShift,hb,ok_bind,hc,ok_bind]
    · intro b'' hb''
      obtain rfl | hb'' := mem_cons.1 hb''
      · exact hok
      · exact ho b'' hb''
    · rw [hco h0] at hln
      exact length_eq_zero_iff.1 hln
    · rw [shiftBag,shiftBag,chainBag_cons,chainBag_cons,Multiset.filter_add,hbag,hba]
  | index shifts ih =>
    cases rem with
    | zero => exact h.elim
    | succ rem =>
      obtain ⟨sh',hr,hok,hbag⟩ := ih (htrieIdx key (bitsAt (rem+1))) (h _)
      refine ⟨.index (Function.update shifts _ sh'),?_,h.update hok,?_⟩
      · simp only [removeShift,hr,ok_bind]
      · rw [shiftBag_update,hbag,shiftBag_split shifts (htrieIdx key (bitsAt (rem+1))),Multiset.filter_add]
        congr 1
        symm
        refine Multiset.filter_eq_self.2 fun e he => ?_
        cases heq : p e.1 e.2 with
        | false => rfl
        | true =>
          have hk := hp e.1 e.2 heq
          exact absurd (by rw [hk]) (h.not_mem_rest he)

variable {dbh : TdbHdr D}
lemma TableOk.insertShift (h : TableOk recLen users dbh) (hl : GoodLen recLen)
    (hbe : ∀id bits,beyond id bits=true) (hr : GoodRefs users refcnt) (hne : key≠0) (hlt : key<2^64) (data : D) :
    ∃sh a,insertShift recLen beyond none refcnt key data 15 (dbh.root (htrieIdx key 0)) dbh.alloc=.ok (sh,a) ∧
      TableOk recLen users ⟨Function.update dbh.root (htrieIdx key 0) sh,a⟩ ∧
      tableBag ⟨Function.update dbh.root (htrieIdx key 0) sh,a⟩={(key,data)}+tableBag dbh := by
  obtain ⟨sh',a,hi,hok,hb⟩ := ShiftOk.insert data h hl hbe (le_refl 16) agree_root hr trivial hne hlt dbh.alloc
  rw [Tdb.insertShift] at hi
  obtain ⟨⟨sh,a'⟩,hro,hs⟩ := bind_eq_ok.1 hi
  cases hs
  exact ⟨sh,a,hro,hok,hb⟩

lemma TableOk.insert (h : TableOk recLen users dbh) (hl : GoodLen recLen)
    (hbe : ∀id bits,beyond id bits=true) (hne : key≠0) (hlt : key<2^64) (data : D) :
    ∃dbh',htrieInsert recLen beyond dbh key data=.ok dbh' ∧ TableOk recLen users dbh' ∧
      tableBag dbh'={(key,data)}+tableBag dbh := by
  obtain ⟨sh,a,hi,hok,hb⟩ := h.insertShift hl hbe goodRefs_one hne hlt data
  refine ⟨_,?_,hok,hb⟩
  have hp := hl.pos
  rw [htrieInsert,if_neg (by omega)]
  simp only [hi,ok_bind]

lemma TableOk.remove (h : TableOk recLen false dbh) (hl : GoodLen recLen) (hp : ∀k d,p k d=true → k=key) :
    ∃dbh',htrieRemove recLen dbh key (eqOf p)=.ok dbh' ∧ TableOk recLen false dbh' ∧
      tableBag dbh'=(tableBag dbh).filter (fun e => p e.1 e.2=false) := by
  obtain ⟨sh',hr,hok,hb⟩ := ShiftOk.remove h hl hp
  rw [removeShift] at hr
  obtain ⟨sh,hro,hs⟩ := bind_eq_ok.1 hr
  cases hs
  refine ⟨{dbh with root:=Function.update dbh.root (htrieIdx key 0) sh},?_,hok,hb⟩
  simp only [show htrieIdx key (bitsAt 16)=htrieIdx key 0 from rfl] at hro
  simp only [htrieRemove,hro,ok_bind]
end VetWaf.Tdb
