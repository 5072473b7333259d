import VetWaf.Tdb.Scan

namespace VetWaf.Tdb
open Outcome List Function
variable {D : Type} {recLen : Nat} {P : Nat → Prop}

/-- The records of a bucket lie where their keys lead to and are referenced by the table. -/
def BucketStored (recLen : Nat) (P : Nat → Prop) (b : TdbBucket D) : Prop := ∀blk,b.first=some blk →
    (∀r∈blk.recs,r.isRemoved=false → P r.key ∧ 0<r.refcnt) ∧
      (recordsAreLarge recLen=true → ∃r,blk.recs=[r] ∧ r.bucket=some b.id)

def ShiftStored (recLen : Nat) : Nat → (Nat → Prop) → Shift D → Prop
  | _, _, .none => True
  | _, P, .bckt b coll => ∀b'∈b::coll,BucketStored recLen P b'
  | 0, _, .index _ => False
  | rem+1, P, .index shifts => ∀i,ShiftStored recLen rem (Below rem P i) (shifts i)

def TableStored (recLen : Nat) (dbh : TdbHdr D) : Prop := ShiftStored recLen 16 (fun _ => True) (.index dbh.root)
def TdbBucket.emptied (b : TdbBucket D) : TdbBucket D := {b with first:=none}

def found (dbh : TdbHdr D) (key : Nat) : Multiset (Nat×D) :=
  match htrieLookup dbh key with
  | .ok chain => (chainBag chain).filter (·.1=key)
  | .error _ => 0

variable {b : TdbBucket D} {rem : Nat} {sh : Shift D}
lemma BucketStored.mem (h : BucketStored recLen P b) {e : Nat×D} (he : e∈bucketBag b) : P e.1 := by
  cases hf : b.first with
  | none =>
    rw [bucketBag_of_none hf] at he
    exact absurd he (Multiset.notMem_zero e)
  | some blk =>
    rw [bucketBag_of_some hf] at he
    obtain ⟨r,hr,hl,rfl⟩ := mem_recsBag.1 he
    exact ((h blk hf).1 r hr hl).1

lemma BucketOk.stored {users : Bool} (h : BucketOk recLen users P b) : BucketStored recLen P b := by
  intro blk hbl
  have hok := h blk hbl
  refine ⟨fun r hr hne => ⟨hok.key r hr hne,?_⟩,fun hla => ?_⟩
  · exact ((hok.slot r hr).live hne).refcnt_pos
  · obtain ⟨r,hr⟩ := length_eq_one_iff.1 (hok.length.trans (by rw [roomCount,smallCount_of_large hla]; rfl))
    obtain ⟨r',hm,hne⟩ := hok.alive
    have hli := (hok.slot r' hm).live hne
    rw [hr,mem_singleton] at hm
    rw [hm] at hli
    exact ⟨r,hr,hli.back hla⟩

lemma ShiftOk.stored {users : Bool} (h : ShiftOk recLen users rem P sh) : ShiftStored recLen rem P sh := by
  induction sh generalizing rem P with
  | none => cases rem <;> trivial
  | bckt b coll =>
    rw [ShiftStored]
    exact fun b' hb' => ((shiftOk_bckt.1 h).1 b' hb').stored
  | index shifts ih =>
    cases rem with
    | zero => exact h
    | succ rem => exact fun i => ih i (h i)

/-- Every history leaves its records where their keys lead to. -/
lemma tableStored_run [Inhabited D] (hlen : GoodLen recLen) {beyond : Nat → Nat → Bool}
    (hbeyond : ∀id bits,beyond id bits=true)
    {ops : List (TableOp D)} (hops : ∀op∈ops,op.Valid) {dbh : TdbHdr D} (hrun : tableRun recLen beyond {} ops=.ok dbh) :
    TableStored recLen dbh := by
  obtain ⟨dbh',hr,hok,-⟩ := tableOk_empty.run hlen hbeyond hops
  rw [hrun] at hr
  cases hr
  exact ShiftOk.stored hok

lemma removePut_eq_ok {r : TdbFRec D} (h : 0<r.refcnt) : ∃r',removePut r=.ok r' := by
  unfold removePut
  simp only [if_neg (Nat.ne_of_gt h)]
  split_ifs with ho
  · exact ⟨_,rfl⟩
  · exact ⟨_,rfl⟩

lemma removeSmallLoop_all {recs : List (TdbFRec D)} (h : ∀r∈recs,r.isRemoved=false → 0<r.refcnt) :
    ∃recs',removeSmallLoop (fun _ => true) removePut recs=.ok (recs',false) := by
  induction recs with
  | nil => exact ⟨[],rfl⟩
  | cons r recs ih =>
    obtain ⟨recs',hre⟩ := ih fun r hr => h r (.tail _ hr)
    have hst : ∃r',removeSmallStep (fun _ => true) removePut r=.ok (r',false) := by
      unfold removeSmallStep
      by_cases hs : (!r.live || r.isRemoved)=true
      · rw [if_pos hs]
        exact ⟨r,rfl⟩
      · rw [if_neg hs]
        have hl : r.isRemoved=false := by simp_all
        obtain ⟨r',hp⟩ := removePut_eq_ok (h r (.head _) hl)
        exact ⟨r',by simp only [hp,ok_bind,if_true]⟩
    obtain ⟨r',hst⟩ := hst
    exact ⟨r'::recs',by simp only [removeSmallLoop,hst,hre,ok_bind,Bool.or_false]⟩

lemma chainBag_emptied (chain : List (TdbBucket D)) : chainBag (chain.map TdbBucket.emptied)=0 := by
  induction chain with
  | nil => rfl
  | cons b chain ih => rw [map_cons,chainBag_cons,ih,bucketBag_of_none rfl,add_zero]

lemma ShiftStored.descend (h : ShiftStored recLen rem P sh) (key : Nat) :
    ∃chain,descend key rem sh=.ok chain ∧ ∀e∈chainBag chain,P e.1 := by
  induction sh generalizing rem P with
  | none => exact ⟨[],by rw [Tdb.descend],fun e he => absurd he (Multiset.notMem_zero e)⟩
  | bckt b coll =>
    rw [ShiftStored] at h
    refine ⟨b::coll,by rw [Tdb.descend],fun e he => ?_⟩
    obtain ⟨b',hb',he'⟩ := mem_chainBag.1 he
    exact (h b' hb').mem he'
  | index shifts ih =>
    cases rem with
    | zero => exact h.elim
    | succ rem =>
      obtain ⟨chain,hc,hk⟩ := ih (htrieIdx key (bitsAt (rem+1))) (h _)
      exact ⟨chain,by rw [Tdb.descend]; exact hc,fun e he => (hk e he).1⟩

variable [Inhabited D]
lemma BucketStored.remove (h : BucketStored recLen P b) :
    bucketRemoveRecord recLen (fun _ => true) b=.ok b.emptied := by
  unfold bucketRemoveRecord bucketRemoveLargeRecord bucketRemoveSmallRecord
  cases hf : b.first with
  | none =>
    have hs : b.emptied=b := by rw [TdbBucket.emptied,← hf]
    rw [ite_self,hs]
  | some blk =>
    obtain ⟨hrf,ho⟩ := h blk hf
    cases hla : recordsAreLarge recLen with
    | true =>
      obtain ⟨r,hre,hb⟩ := ho hla
      have hl : r.isRemoved=false := by rw [TdbFRec.isRemoved,hb,Option.isNone_some]
      obtain ⟨r',hp⟩ := removePut_eq_ok (hrf r (by rw [hre]; exact .head _) hl).2
      simp only [hre,headD_cons,hp,ok_bind,hb,if_true,TdbBucket.emptied]
    | false =>
      have hv : ∀r∈blk.recs.take (smallCount recLen),r.isRemoved=false → 0<r.refcnt :=
        fun r hr hl => (hrf r (mem_of_mem_take hr) hl).2
      obtain ⟨recs',hlo⟩ := removeSmallLoop_all hv
      simp only [Bool.false_eq_true,if_false,hlo,ok_bind,TdbBucket.emptied]

lemma removeChain_all {chain : List (TdbBucket D)} (h : ∀b∈chain,BucketStored recLen P b) :
    removeChain recLen (fun _ => true) chain=.ok (chain.map TdbBucket.emptied) := by
  induction chain with
  | nil => rfl
  | cons b chain ih =>
    rw [removeChain,(h b mem_cons_self).remove,ok_bind,ih fun b hb => h b (mem_cons_of_mem _ hb),ok_bind,map_cons]

lemma ShiftStored.remove (h : ShiftStored recLen rem P sh) (key : Nat) :
    ∃sh' chain,removeShift recLen (fun _ => true) key rem sh=.ok sh' ∧ Tdb.descend key rem sh=.ok chain ∧
      ∀k',(Tdb.descend k' rem sh=.ok chain ∧ ∃c,Tdb.descend k' rem sh'=.ok c ∧ chainBag c=0) ∨
        (Tdb.descend k' rem sh'=Tdb.descend k' rem sh ∧ ∀e∈chainBag chain,e.1≠k') := by
  induction sh generalizing rem P with
  | none =>
    refine ⟨.none,[],by rw [removeShift],by rw [Tdb.descend],fun k' => .inr ⟨rfl,fun e he => ?_⟩⟩
    exact absurd he (Multiset.notMem_zero e)
  | bckt b coll =>
    rw [ShiftStored] at h
    refine ⟨.bckt b.emptied (coll.map TdbBucket.emptied),b::coll,?_,
      by rw [Tdb.descend],fun k' => .inl ⟨by rw [Tdb.descend],_,by rw [Tdb.descend],?_⟩⟩
    · rw [removeShift,(h b mem_cons_self).remove,ok_bind,removeChain_all fun b hb => h b (mem_cons_of_mem _ hb),ok_bind]
    · exact chainBag_emptied (b::coll)
  | index shifts ih =>
    cases rem with
    | zero => exact h.elim
    | succ rem =>
      obtain ⟨sh',chain,hr,hc,hca⟩ := ih (htrieIdx key (bitsAt (rem+1))) (h _)
      obtain ⟨chain',hc',hk⟩ := (h (htrieIdx key (bitsAt (rem+1)))).descend key
      rw [hc] at hc'
      cases hc'
      refine ⟨.index (update shifts (htrieIdx key (bitsAt (rem+1))) sh'),chain,?_,?_,fun k' => ?_⟩
      · simp only [removeShift,hr,ok_bind]
      · rw [Tdb.descend]
        exact hc
      · rw [Tdb.descend,Tdb.descend]
        by_cases hs : htrieIdx k' (bitsAt (rem+1))=htrieIdx key (bitsAt (rem+1))
        · rw [hs,update_self]
          exact hca k'
        · rw [update_of_ne hs]
          exact .inr ⟨rfl,fun e he heq => hs (heq ▸ (hk e he).2)⟩

/-- A removal by key removes the records of the key, and no others exactly when the buckets that the descent reaches
hold no record of another key. -/
theorem htrieRemove_only_key_iff (dbh : TdbHdr D) (key : Nat) (h : TableStored recLen dbh) :
    ∃dbh',htrieRemove recLen dbh key (fun _ => true)=.ok dbh' ∧ found dbh' key=0 ∧
      ((∀k',k'≠key → found dbh' k'=found dbh k') ↔
        ∀chain,htrieLookup dbh key=.ok chain → ∀e∈chainBag chain,e.1=key) := by
  obtain ⟨sh',chain,hr,hch,hca⟩ := ShiftStored.remove h key
  rw [removeShift] at hr
  obtain ⟨sh,hro,hs⟩ := bind_eq_ok.1 hr
  cases hs
  have hl : htrieLookup dbh key=.ok chain := hch
  have hf : ∀k',((htrieLookup dbh k'=.ok chain) ∧ found {dbh with root:=update dbh.root (htrieIdx key 0) sh} k'=0) ∨
      (found {dbh with root:=update dbh.root (htrieIdx key 0) sh} k'=found dbh k' ∧ ∀e∈chainBag chain,e.1≠k') := by
    intro k'
    obtain ⟨hold,c,hn,h0⟩ | ⟨hk,ho⟩ := hca k'
    · refine .inl ⟨hold,?_⟩
      have hn : htrieLookup {dbh with root:=update dbh.root (htrieIdx key 0) sh} k'=.ok c := hn
      simp only [found,hn,h0,Multiset.filter_zero]
    · refine .inr ⟨?_,ho⟩
      have hk : htrieLookup {dbh with root:=update dbh.root (htrieIdx key 0) sh} k' = htrieLookup dbh k' := hk
      simp only [found,hk]
  refine ⟨{dbh with root:=update dbh.root (htrieIdx key 0) sh},?_,?_,?_⟩
  · unfold htrieRemove
    simp only [show removeShift recLen (fun _ => true) key 15 (dbh.root (htrieIdx key 0))=.ok sh from hro,ok_bind]
  · obtain ⟨-,h0⟩ | ⟨hk,ho⟩ := hf key
    · exact h0
    · rw [hk]
      simp only [found,hl]
      exact Multiset.filter_eq_nil.2 ho
  · constructor
    · intro hfr c hc e he
      rw [hl] at hc
      cases hc
      by_contra hne
      obtain ⟨hold,h0⟩ | ⟨-,ho⟩ := hf e.1
      · have hm : e∈found dbh e.1 := by
          simp only [found,hold]
          exact Multiset.mem_filter.2 ⟨he,rfl⟩
        rw [← hfr e.1 hne,h0] at hm
        exact Multiset.notMem_zero e hm
      · exact ho e he rfl
    · intro hky k' hne
      obtain ⟨hold,h0⟩ | ⟨hk,-⟩ := hf k'
      · rw [h0]
        simp only [found,hold]
        refine (Multiset.filter_eq_nil.2 fun e he heq => hne ?_).symm
        rw [← heq,hky chain hl e he]
      · exact hk

/-- In a table with the records of the keys `0x1` and `0x2` -/
theorem htrieRemove_only_key_iff_apart : ∃dbh dbh',
    tableRun 16 (fun _ _ => true) ({} : TdbHdr Unit) [.insert 0x1 (),.insert 0x2 ()]=.ok dbh ∧
      htrieRemove 16 dbh 0x1 (fun _ => true)=.ok dbh' ∧ found dbh' 0x2=found dbh 0x2 := by
  have hl : GoodLen 16 := ⟨by decide,by decide,by decide⟩
  have ho : ∀op∈[.insert 0x1 (),.insert 0x2 ()],TableOp.Valid op := by simp [TableOp.Valid]
  obtain ⟨dbh,hr,-⟩ := tableOk_empty.run hl (fun _ _ => rfl) ho
  obtain ⟨dbh',hre,-,hif⟩ := htrieRemove_only_key_iff dbh 0x1 (tableStored_run hl (fun _ _ => rfl) ho hr)
  refine ⟨dbh,dbh',hr,hre,hif.2 ?_ 0x2 (by decide)⟩
  have hlo : (do
      let dbh ← tableRun 16 (fun _ _ => true) ({} : TdbHdr Unit) [.insert 0x1 (),.insert 0x2 ()]
      let chain ← htrieLookup dbh 0x1
      .ok (chainBag chain) : Except TdbStop (Multiset (Nat×Unit)))=.ok {(0x1,())} := by
    decide +kernel
  intro chain hc e he
  rw [hr,ok_bind,hc,ok_bind] at hlo
  rw [Except.ok.inj hlo,Multiset.mem_singleton] at he
  rw [he]

/-- The keys `0x1` and `0x11` share a bucket: a removal by the first one removes the record of the second one. -/
theorem htrieRemove_other_key : (do
      let dbh ← htrieInsert 16 (fun _ _ => true) ({} : TdbHdr Unit) 0x1 ()
      let dbh ← htrieInsert 16 (fun _ _ => true) dbh 0x11 ()
      let dbh' ← htrieRemove 16 dbh 0x1 (fun _ => true)
      .ok ((found dbh 0x11).card,(found dbh' 0x11).card)).toOption=some (1,0) := by
  decide +kernel
end VetWaf.Tdb
