import VetWaf.Tdb.Htrie

namespace VetWaf.Tdb
open List Outcome Nat
variable {D : Type}

/-- A burst moves all records and a removal sees them. -/
structure GoodLen (recLen : Nat) : Prop where
  pos : 0<recLen
  small : recordsAreLarge recLen=false → reclen recLen ≤ mindrec
  burst : recordsAreLarge recLen=false → burstCount recLen=smallCount recLen ∨ smallCount recLen=1

lemma ralign_ge (n : Nat) : n≤ralign n := by
  unfold ralign
  omega

lemma reclen_pos (recLen : Nat) : 0<reclen recLen := by
  have hle := ralign_ge (frecSize+recLen)
  unfold reclen frecSize at *
  omega

lemma smallCount_of_large {recLen : Nat} (h : recordsAreLarge recLen=true) : smallCount recLen=0 := by
  have hle : mindrec≤ralign recLen := of_decide_eq_true h
  have hl : ralign recLen<reclen recLen := by
    unfold reclen ralign frecSize
    omega
  exact div_eq_of_lt (by omega)

lemma large_of_ge {recLen : Nat} (h : mindrec≤recLen) : recordsAreLarge recLen=true :=
  decide_eq_true (le_trans h (ralign_ge recLen))

lemma GoodLen.roomCount_eq {recLen : Nat} (h : GoodLen recLen) (hs : recordsAreLarge recLen=false) :
    roomCount recLen=smallCount recLen := by
  have hp : 0<smallCount recLen := div_pos (h.small hs) (reclen_pos recLen)
  exact max_eq_right hp

lemma roomCount_pos (recLen : Nat) : 0<roomCount recLen := le_max_left 1 _

lemma GoodLen.take_burst {recLen : Nat} (h : GoodLen recLen) {α : Type} {l : List α}
    (hl : l.length+1=roomCount recLen) : l.take (burstCount recLen-1)=l ∧ l.drop (burstCount recLen-1)=[] := by
  have hle : l.length≤burstCount recLen-1 := by
    cases hla : recordsAreLarge recLen with
    | true =>
      rw [roomCount,smallCount_of_large hla] at hl
      omega
    | false =>
      rw [h.roomCount_eq hla] at hl
      obtain heq | ho := h.burst hla
      · omega
      · omega
  exact ⟨take_of_length_le hle,drop_of_length_le hle⟩

/-- A record that is in the table. -/
structure Live (recLen : Nat) (users : Bool) (bid : Nat) (r : TdbFRec D) : Prop where
  key_ne : r.key≠0
  key_lt : r.key<2^64
  bucket : r.bucket.isSome=true
  back : recordsAreLarge recLen=true → r.bucket=some bid
  complete : r.complete=true
  refcnt_pos : 0<r.refcnt
  refcnt_one : users=false → r.refcnt=1

def Slot (recLen : Nat) (users : Bool) (bid : Nat) (r : TdbFRec D) : Prop :=
  r.isRemoved=true ∧ (users=false → r.key=0) ∨ Live recLen users bid r

variable {recLen bid : Nat} {users : Bool} {r : TdbFRec D} {recs : List (TdbFRec D)}
lemma Live.isRemoved (h : Live recLen users bid r) : r.isRemoved=false := by
  rw [TdbFRec.isRemoved,Option.isNone_eq_false_iff]
  exact h.bucket

lemma Slot.live (h : Slot recLen users bid r) (hr : r.isRemoved=false) : Live recLen users bid r := by
  refine h.resolve_left fun hre => ?_
  rw [hre.1] at hr
  cases hr

lemma Slot.isRemoved (h : Slot recLen users bid r) (hk : r.key=0) : r.isRemoved=true := by
  obtain hr | hl := h
  · exact hr.1
  · exact absurd hk hl.key_ne

lemma slot_default [Inhabited D] : Slot recLen users bid (default : TdbFRec D) := .inl ⟨rfl,fun _ => rfl⟩
def entryBag (r : TdbFRec D) : Multiset (Nat×D) := if r.isRemoved then 0 else {(r.key,r.data)}
def recsBag (recs : List (TdbFRec D)) : Multiset (Nat×D) := (recs.map entryBag).sum
lemma recsBag_nil : recsBag ([] : List (TdbFRec D))=0 := rfl

lemma recsBag_cons (r : TdbFRec D) (recs : List (TdbFRec D)) : recsBag (r::recs)=entryBag r+recsBag recs := by
  rw [recsBag,map_cons,sum_cons,recsBag]

lemma entryBag_of_live (h : r.isRemoved=false) : entryBag r={(r.key,r.data)} := by
  rw [entryBag,h,if_neg Bool.false_ne_true]

lemma entryBag_of_removed (h : r.isRemoved=true) : entryBag r=0 := by rw [entryBag,h,if_pos rfl]

lemma recsBag_replicate [Inhabited D] (n : Nat) : recsBag (List.replicate n (default : TdbFRec D))=0 := by
  induction n with
  | zero => rfl
  | succ n ih => rw [replicate_succ,recsBag_cons,ih,entryBag_of_removed rfl,add_zero]

variable {j : Nat} {r' : TdbFRec D} {blk : DataBlk D}
lemma recsBag_set (hj : recs[j]?=some r') (hf : r'.isRemoved=true) :
    recsBag (recs.set j r)=entryBag r+recsBag recs := by
  induction recs generalizing j with
  | nil => cases hj
  | cons r'' recs ih =>
    cases j with
    | zero =>
      cases hj
      rw [set_cons_zero,recsBag_cons,recsBag_cons,entryBag_of_removed hf,zero_add]
    | succ j => rw [set_cons_succ,recsBag_cons,recsBag_cons,ih hj,add_left_comm]

lemma mem_recsBag {e : Nat×D} : e∈recsBag recs ↔ ∃r∈recs,r.isRemoved=false ∧ e=(r.key,r.data) := by
  induction recs with
  | nil => simp [recsBag_nil]
  | cons r recs ih =>
    rw [recsBag_cons,Multiset.mem_add,ih]
    cases hr : r.isRemoved with
    | true => simp [entryBag_of_removed hr,hr]
    | false => simp [entryBag_of_live hr,hr]

/-- A data block with at least one record. -/
structure BlkOk (recLen : Nat) (users : Bool) (bid : Nat) (P : Nat → Prop) (recs : List (TdbFRec D)) : Prop where
  length : recs.length=roomCount recLen
  slot : ∀r∈recs,Slot recLen users bid r
  key : ∀r∈recs,r.isRemoved=false → P r.key
  alive : ∃r∈recs,r.isRemoved=false
  head : users=true → ∀r rest,recs=r::rest → r.isRemoved=false

def BucketOk (recLen : Nat) (users : Bool) (P : Nat → Prop) (b : TdbBucket D) : Prop :=
  ∀blk,b.first=some blk → BlkOk recLen users b.id P blk.recs

def bucketBag (b : TdbBucket D) : Multiset (Nat×D) :=
  match b.first with
  | none => 0
  | some blk => recsBag blk.recs

variable {P : Nat → Prop} {b : TdbBucket D}
lemma bucketBag_of_none (h : b.first=none) : bucketBag b=0 := by rw [bucketBag,h]
lemma bucketBag_of_some (h : b.first=some blk) : bucketBag b=recsBag blk.recs := by rw [bucketBag,h]

lemma bucketOk_of_none (h : b.first=none) : BucketOk recLen users P b := by
  intro blk hb
  rw [h] at hb
  cases hb

/-- A record for bucket `bid` -/
structure NewRec (recLen : Nat) (users : Bool) (bid : Nat) (P : Nat → Prop) (r : TdbFRec D) : Prop where
  live : Live recLen users bid r
  key : P r.key

lemma entryBag_new (h : Live recLen users bid r) : entryBag r={(r.key,r.data)} := entryBag_of_live h.isRemoved

section
variable [Inhabited D]
lemma BucketOk.assignRecord (h : NewRec recLen users b.id P r) (a : Alloc) :
    BucketOk recLen users P (assignRecord recLen b r a).1 ∧
      bucketBag (assignRecord recLen b r a).1={(r.key,r.data)} := by
  have hp := roomCount_pos recLen
  obtain ⟨n,hn⟩ : ∃n,roomCount recLen=n+1 := ⟨roomCount recLen - 1,by omega⟩
  have hr : (List.replicate (roomCount recLen) (default : TdbFRec D)).set 0 r=r::List.replicate n default := by
    rw [hn,replicate_succ,set_cons_zero]
  constructor
  · intro blk hb
    cases hb
    refine ⟨?_,?_,?_,?_,?_⟩
    · rw [length_set]
      exact length_replicate ..
    all_goals simp only [hr]
    · intro r' hr'
      obtain rfl | hr' := mem_cons.1 hr'
      · exact .inr h.live
      · rw [eq_of_mem_replicate hr']
        exact slot_default
    · intro r' hr' hne
      obtain rfl | hr' := mem_cons.1 hr'
      · exact h.key
      · rw [eq_of_mem_replicate hr'] at hne
        cases hne
    · exact ⟨r,.head _,h.live.isRemoved⟩
    · intro _ r' rest heq
      cases heq
      exact h.live.isRemoved
  · refine (bucketBag_of_some rfl).trans ?_
    simp only [hr]
    rw [recsBag_cons,recsBag_replicate,add_zero,entryBag_new h.live]

end

lemma BucketOk.setRec (h : BucketOk recLen users P b) (hb : b.first=some blk) (hj : blk.recs[j]?=some r')
    (hfr : r'.isRemoved=true) (hn : NewRec recLen users b.id P r) :
    BucketOk recLen users P (b.setRec j r) ∧ bucketBag (b.setRec j r)={(r.key,r.data)}+bucketBag b := by
  have hf : (b.setRec j r).first=some {blk with recs:=blk.recs.set j r} := by
    rw [TdbBucket.setRec,hb]
    rfl
  obtain ⟨hl,hs,hk,-,hh⟩ := h blk hb
  constructor
  · intro blk' hb'
    rw [hf] at hb'
    cases hb'
    refine ⟨by rw [length_set]; exact hl,?_,?_,?_,?_⟩
    · intro r' hr'
      obtain hr' | rfl := mem_or_eq_of_mem_set hr'
      · exact hs r' hr'
      · exact .inr hn.live
    · intro r' hr' hne
      obtain hr' | rfl := mem_or_eq_of_mem_set hr'
      · exact hk r' hr' hne
      · exact hn.key
    · exact ⟨r,List.mem_set (List.getElem?_eq_some_iff.1 hj).1 r,hn.live.isRemoved⟩
    · intro hu q rest heq
      cases j with
      | zero =>
        cases hr : blk.recs with
        | nil =>
          rw [hr] at hj
          cases hj
        | cons q' rest' =>
          rw [hr,set_cons_zero] at heq
          cases heq
          exact hn.live.isRemoved
      | succ j =>
        cases hr : blk.recs with
        | nil =>
          rw [hr] at hj
          cases hj
        | cons q' rest' =>
          rw [hr,set_cons_succ] at heq
          cases heq
          exact hh hu _ _ hr
  · rw [bucketBag_of_some hf,bucketBag_of_some hb,recsBag_set hj hfr,entryBag_new hn.live]

def eqOf (p : Nat → D → Bool) (r : TdbFRec D) : Bool := p r.key r.data

lemma Live.removePut (h : Live recLen users bid r) :
    ∃r',removePut r=.ok r' ∧ r'.isRemoved=true ∧ (users=false → r'.key=0) := by
  unfold Tdb.removePut
  simp only [if_neg (ne_of_gt h.refcnt_pos)]
  split_ifs with ho
  · exact ⟨_,rfl,rfl,fun _ => rfl⟩
  · exact ⟨_,rfl,rfl,fun hu => absurd (h.refcnt_one hu) ho⟩

lemma Slot.removeSmallStep (h : Slot recLen users bid r) (p : Nat → D → Bool) :
    ∃r' alive,removeSmallStep (eqOf p) removePut r=.ok (r',alive) ∧ Slot recLen users bid r' ∧
      entryBag r'=(entryBag r).filter (fun e => p e.1 e.2=false) ∧ (alive=true ↔ r'.isRemoved=false) ∧
      (r'.isRemoved=false → r'=r) := by
  unfold Tdb.removeSmallStep
  obtain hr | hl := h
  · refine ⟨r,false,?_,.inl hr,?_,?_,fun _ => rfl⟩
    · rw [if_pos (by simp [hr.1])]
    · rw [entryBag_of_removed hr.1,Multiset.filter_zero]
    · simp [hr.1]
  · have hin : ¬(!r.live || r.isRemoved)=true := by simp [TdbFRec.live,hl.isRemoved,hl.key_ne]
    rw [if_neg hin,entryBag_of_live hl.isRemoved]
    cases heq : eqOf p r with
    | true =>
      obtain ⟨r',hp,hr⟩ := hl.removePut
      refine ⟨r',false,?_,.inl hr,?_,?_,fun hin => ?_⟩
      · rw [if_pos rfl,hp]
        rfl
      · have heq : p r.key r.data=true := heq
        simp [entryBag_of_removed hr.1,Multiset.filter_singleton,heq]
      · simp [hr.1]
      · rw [hr.1] at hin
        cases hin
    | false =>
      refine ⟨r,true,rfl,.inr hl,?_,?_,fun _ => rfl⟩
      · have heq : p r.key r.data=false := heq
        simp [entryBag_of_live hl.isRemoved,Multiset.filter_singleton,heq]
      · simp [hl.isRemoved]

lemma removeSmallLoop_spec (hs : ∀r∈recs,Slot recLen users bid r) (p : Nat → D → Bool) :
    ∃recs' alive,removeSmallLoop (eqOf p) removePut recs=.ok (recs',alive) ∧
      recs'.length=recs.length ∧ (∀r∈recs',Slot recLen users bid r) ∧
      recsBag recs'=(recsBag recs).filter (fun e => p e.1 e.2=false) ∧ (alive=true ↔ ∃r∈recs',r.isRemoved=false) ∧
      ∀r'∈recs',r'.isRemoved=false → r'∈recs := by
  induction recs with
  | nil => exact ⟨[],false,rfl,rfl,by simp,by simp [recsBag_nil],by simp,by simp⟩
  | cons r recs ih =>
    obtain ⟨r',alive,hsp,hr',hb,hal,hk⟩ := (hs r (.head _)).removeSmallStep p
    obtain ⟨recs',ha,hlo,hl,hst,hba,hAlive,hke⟩ := ih fun r hr => hs r (.tail _ hr)
    refine ⟨r'::recs',alive || ha,?_,?_,?_,?_,?_,?_⟩
    · rw [removeSmallLoop,hsp,ok_bind,hlo]
      rfl
    · rw [length_cons,length_cons,hl]
    · intro q hq
      obtain rfl | hq := mem_cons.1 hq
      · exact hr'
      · exact hst q hq
    · rw [recsBag_cons,recsBag_cons,Multiset.filter_add,hb,hba]
    · rw [Bool.or_eq_true,hal,hAlive,exists_mem_cons_iff]
    · intro q hq hne
      obtain rfl | hq := mem_cons.1 hq
      · exact hk hne ▸ (.head _)
      · exact .tail _ (hke q hq hne)

section
variable (h : BucketOk recLen false P b)
include h
lemma BucketOk.removeSmall (hl : GoodLen recLen) (hla : recordsAreLarge recLen=false) (p : Nat → D → Bool) :
    ∃b',bucketRemoveSmallRecord recLen (eqOf p) removePut b=.ok b' ∧ b'.id=b.id ∧ BucketOk recLen false P b' ∧
      bucketBag b'=(bucketBag b).filter (fun e => p e.1 e.2=false) := by
  unfold bucketRemoveSmallRecord
  cases hf : b.first with
  | none =>
    refine ⟨b,rfl,rfl,h,?_⟩
    rw [bucketBag_of_none hf,Multiset.filter_zero]
  | some blk =>
    obtain ⟨hln,hst,hk,-⟩ := h blk hf
    have ht : blk.recs.take (smallCount recLen)=blk.recs := by
      rw [← hl.roomCount_eq hla]
      exact take_of_length_le (le_of_eq hln)
    have hd : blk.recs.drop (smallCount recLen)=[] := by
      rw [← hl.roomCount_eq hla]
      exact drop_of_length_le (le_of_eq hln)
    obtain ⟨recs',alive,hlo,hl',hs,hb,ha,hke⟩ := removeSmallLoop_spec hst p
    simp only [ht,hd,hlo,ok_bind,append_nil]
    rw [bucketBag_of_some hf,← hb]
    cases ha' : alive with
    | true =>
      refine ⟨⟨b.id,some {blk with recs:=recs'}⟩,rfl,rfl,?_,rfl⟩
      intro blk' hb'
      cases hb'
      exact ⟨hl'.trans hln,hs,fun r hr hne => hk r (hke r hr hne) hne,ha.1 ha',fun hu => nomatch hu⟩
    | false =>
      refine ⟨⟨b.id,none⟩,rfl,rfl,bucketOk_of_none rfl,?_⟩
      rw [bucketBag_of_none rfl]
      symm
      refine Multiset.eq_zero_of_forall_notMem fun e he => ?_
      obtain ⟨r,hr,hne,-⟩ := mem_recsBag.1 he
      rw [ha.2 ⟨r,hr,hne⟩] at ha'
      cases ha'

lemma BucketOk.removeLarge [Inhabited D] (hla : recordsAreLarge recLen=true)
    (p : Nat → D → Bool) : ∃b',bucketRemoveLargeRecord (eqOf p) b=.ok b' ∧ b'.id=b.id ∧ BucketOk recLen false P b' ∧
      bucketBag b'=(bucketBag b).filter (fun e => p e.1 e.2=false) := by
  unfold bucketRemoveLargeRecord
  cases hf : b.first with
  | none =>
    refine ⟨b,rfl,rfl,h,?_⟩
    rw [bucketBag_of_none hf,Multiset.filter_zero]
  | some blk =>
    obtain ⟨hl,hs,-,⟨r0,hr0,hne0⟩,-⟩ := h blk hf
    rw [roomCount,smallCount_of_large hla] at hl
    obtain ⟨r,hr⟩ := length_eq_one_iff.1 hl
    rw [hr] at hs hr0
    have heq0 := mem_singleton.1 hr0
    subst heq0
    have hli : Live recLen false b.id r0 := (hs r0 hr0).live hne0
    have hb : bucketBag b={(r0.key,r0.data)} := by
      rw [bucketBag_of_some hf,hr,recsBag_cons,recsBag_nil,add_zero,entryBag_of_live hne0]
    simp only [hr,headD_cons]
    cases heq : eqOf p r0 with
    | true =>
      have heq : p r0.key r0.data=true := heq
      obtain ⟨r',hp,-,-⟩ := hli.removePut
      refine ⟨⟨b.id,none⟩,?_,rfl,bucketOk_of_none rfl,?_⟩
      · rw [if_pos rfl,hp,ok_bind,if_pos (hli.back hla)]
      · rw [bucketBag_of_none rfl]
        simp [hb,Multiset.filter_singleton,heq]
    | false =>
      have heq : p r0.key r0.data=false := heq
      refine ⟨b,rfl,rfl,h,?_⟩
      simp [hb,Multiset.filter_singleton,heq]

lemma BucketOk.remove [Inhabited D] (hl : GoodLen recLen) (p : Nat → D → Bool) :
    ∃b',bucketRemoveRecord recLen (eqOf p) b=.ok b' ∧ b'.id=b.id ∧ BucketOk recLen false P b' ∧
      bucketBag b'=(bucketBag b).filter (fun e => p e.1 e.2=false) := by
  unfold bucketRemoveRecord
  cases hla : recordsAreLarge recLen with
  | true => exact h.removeLarge hla p
  | false => exact h.removeSmall hl hla p

end

lemma freeSlot_spec (hf : freeSlot recLen b=some j) : ∃blk r',b.first=some blk ∧ blk.recs[j]?=some r' ∧ r'.key=0 := by
  unfold freeSlot at hf
  obtain ⟨blk,hb,hfi⟩ := Option.bind_eq_some_iff.1 hf
  obtain ⟨hj,hd,-⟩ := findIdx?_eq_some_iff_getElem.1 hfi
  rw [length_take] at hj
  rw [getElem_take] at hd
  refine ⟨blk,blk.recs[j],hb,getElem?_eq_getElem (by omega),?_⟩
  simpa [TdbFRec.live] using hd

def chainBag (chain : List (TdbBucket D)) : Multiset (Nat×D) := (chain.map bucketBag).sum

lemma chainBag_cons (b : TdbBucket D) (chain : List (TdbBucket D)) :
    chainBag (b::chain)=bucketBag b+chainBag chain := by
  rw [chainBag,map_cons,sum_cons,chainBag]

variable {chain : List (TdbBucket D)}
lemma smallrecLink_spec (h : ∀b∈chain,BucketOk recLen users P b) (hn : ∀bid,NewRec recLen users bid P r)
    {chain' : List (TdbBucket D)} (hli : smallrecLink recLen r chain=some chain') :
    (∀b∈chain',BucketOk recLen users P b) ∧ chainBag chain'={(r.key,r.data)}+chainBag chain ∧
      chain'.length=chain.length := by
  induction chain generalizing chain' with
  | nil => cases hli
  | cons b chain ih =>
    rw [smallrecLink] at hli
    cases hf : freeSlot recLen b with
    | some j =>
      rw [hf] at hli
      cases hli
      have hb := h b (.head _)
      obtain ⟨blk,r',hbl,hj,hk⟩ := freeSlot_spec hf
      have hr := ((hb blk hbl).slot r' (mem_of_getElem? hj)).isRemoved hk
      obtain ⟨hok,hba⟩ := hb.setRec hbl hj hr (hn b.id)
      refine ⟨?_,?_,rfl⟩
      · intro b' hb'
        obtain rfl | hb' := mem_cons.1 hb'
        · exact hok
        · exact h b' (.tail _ hb')
      · rw [chainBag_cons,chainBag_cons,hba,add_assoc]
    | none =>
      rw [hf] at hli
      obtain ⟨rest,hre,rfl⟩ := Option.map_eq_some_iff.1 hli
      obtain ⟨hok,hba,hl⟩ := ih (fun b' hb' => h b' (.tail _ hb')) hre
      refine ⟨?_,?_,by rw [length_cons,length_cons,hl]⟩
      · intro b' hb'
        obtain rfl | hb' := mem_cons.1 hb'
        · exact h b' (.head _)
        · exact hok b' hb'
      · rw [chainBag_cons,chainBag_cons,hba,add_left_comm]

lemma freeSlot_of_large (hl : recordsAreLarge recLen=true) (b : TdbBucket D) : freeSlot recLen b=none := by
  unfold freeSlot
  rw [smallCount_of_large hl]
  cases b.first with
  | none => rfl
  | some blk => rfl

lemma smallrecLink_of_large (hl : recordsAreLarge recLen=true) (chain : List (TdbBucket D)) :
    smallrecLink recLen r chain=none := by
  induction chain with
  | nil => rfl
  | cons b chain ih =>
    rw [smallrecLink,freeSlot_of_large hl,ih]
    rfl

def NewKey (recLen : Nat) (users : Bool) (P : Nat → Prop) (r : TdbFRec D) : Prop :=
  ∀bid,NewRec recLen users bid P {r with bucket:=some bid}

/-- The references that a new record may have when the insertion is over -/
structure GoodRefs (users : Bool) (refcnt : Nat) : Prop where
  pos : 0<refcnt
  one : users=false → refcnt=1

lemma goodRefs_one : GoodRefs users 1 := ⟨one_pos,fun _ => rfl⟩

lemma newKey_create {key refcnt : Nat} (hr : GoodRefs users refcnt) (hne : key≠0) (hlt : key<2^64)
    (hP : P key) (bid : Nat) (data : D) : NewKey recLen users P {createRec bid key data with refcnt} :=
  fun _ => ⟨⟨hne,hlt,rfl,fun _ => rfl,rfl,hr.pos,hr.one⟩,hP⟩

variable [Inhabited D]
lemma NewKey.newBucket (h : NewKey recLen users P r) (a : Alloc) :
    BucketOk recLen users P (newBucket recLen r a).1 ∧ bucketBag (newBucket recLen r a).1={(r.key,r.data)} :=
  BucketOk.assignRecord (h a.bckts) _

lemma NewKey.collInsert (h : NewKey recLen users P r) (hc : ∀b∈chain,BucketOk recLen users P b) (a : Alloc) :
    ∃chain' a',collInsert recLen none r chain a=.ok (chain',a') ∧ (∀b∈chain',BucketOk recLen users P b) ∧
      chainBag chain'={(r.key,r.data)}+chainBag chain := by
  induction chain generalizing a with
  | nil =>
    obtain ⟨hok,hba⟩ := h.newBucket a
    refine ⟨[(Tdb.newBucket recLen r a).1],(Tdb.newBucket recLen r a).2,rfl,?_,?_⟩
    · intro b hb
      rw [mem_singleton.1 hb]
      exact hok
    · rw [chainBag_cons,hba]
  | cons b chain ih =>
    have hb := hc b (.head _)
    rw [Tdb.collInsert,removeEq,ok_bind]
    cases hf : b.first with
    | none =>
      obtain ⟨hok,hba⟩ := BucketOk.assignRecord (h b.id) a
      refine ⟨(assignRecord recLen b {r with bucket:=some b.id} a).1::chain,_,rfl,?_,?_⟩
      · intro b' hb'
        obtain rfl | hb' := mem_cons.1 hb'
        · exact hok
        · exact hc b' (.tail _ hb')
      · rw [chainBag_cons,chainBag_cons,hba,bucketBag_of_none hf,zero_add]
    | some blk =>
      obtain ⟨chain',a',hr,hok,hba⟩ := ih (fun b' hb' => hc b' (.tail _ hb')) a
      refine ⟨b::chain',a',?_,?_,?_⟩
      · simp only [hr,ok_bind]
      · intro b' hb'
        obtain rfl | hb' := mem_cons.1 hb'
        · exact hb
        · exact hok b' hb'
      · rw [chainBag_cons,chainBag_cons,hba,add_left_comm]
end VetWaf.Tdb
