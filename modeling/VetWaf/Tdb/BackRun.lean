import VetWaf.Tdb.BackPtr

namespace VetWaf.Tdb
open Outcome List Function Run
variable {D : Type} {recLen : Nat} {shifts : Fin 16 → Shift D} {i : Fin 16} {sh : Shift D} {dbh : TdbHdr D}
variable {b : TdbBucket D} {a : Alloc} {f : TdbBucket D → TdbBucket D}
lemma mem_bckts_index : b∈(Shift.index shifts).bckts ↔ ∃i,b∈(shifts i).bckts := by
  rw [Shift.bckts,mem_flatMap]
  simp

lemma ids_append (chain chain' : List (TdbBucket D)) : ids (chain++chain')=ids chain+ids chain' := by
  unfold ids
  rw [map_append,← Multiset.coe_add]

lemma ids_flatMap {α : Type} (l : List α) (f : α → List (TdbBucket D)) :
    ids (l.flatMap f)=(l.map fun x => ids (f x)).sum := by
  induction l with
  | nil => rfl
  | cons x l ih => rw [flatMap_cons,ids_append,ih,map_cons,sum_cons]

lemma ids_index (shifts : Fin 16 → Shift D) : (Shift.index shifts).ids = ∑ i,(shifts i).ids := by
  rw [Shift.ids,Shift.bckts,ids_flatMap,Fin.sum_univ_def]
  rfl

lemma Fresh.update {a' : Alloc} (h : Fresh (shifts i).ids sh.ids a a') :
    Fresh (Shift.index shifts).ids (Shift.index (update shifts i sh)).ids a a' := by
  have hs := sum_update Shift.ids shifts i sh
  unfold Fresh at *
  rw [ids_index,ids_index]
  refine add_right_cancel (b := (shifts i).ids) ?_
  rw [add_right_comm,hs,add_assoc,h,add_assoc,add_comm (Multiset.range a'.bckts)]

lemma forall_bckts_update {Q : TdbBucket D → Prop} (h : ∀b∈(Shift.index shifts).bckts,Q b) (hs : ∀b∈sh.bckts,Q b) :
    ∀b∈(Shift.index (update shifts i sh)).bckts,Q b := by
  intro b hb
  obtain ⟨k,hk⟩ := mem_bckts_index.1 hb
  by_cases hki : k=i
  · subst hki
    rw [update_self] at hk
    exact hs b hk
  · rw [update_of_ne hki] at hk
    exact h b (mem_bckts_index.2 ⟨k,hk⟩)

lemma bckts_map (f : TdbBucket D → TdbBucket D) (sh : Shift D) : (sh.map f).bckts=sh.bckts.map f := by
  induction sh with
  | none => rfl
  | bckt b coll => rfl
  | index shifts ih =>
    rw [Shift.map,Shift.bckts,Shift.bckts,map_flatMap]
    exact congrArg (fun g => (List.finRange 16).flatMap g) (funext ih)

lemma ids_map (hf : ∀b,(f b).id=b.id) (sh : Shift D) : (sh.map f).ids=sh.ids := by
  unfold Shift.ids ids
  rw [bckts_map,map_map]
  exact congrArg (fun l : List Nat => (l : Multiset Nat)) (map_congr_left fun b _ => hf b)

/-- A change of a bucket in place that keeps the pointers of its records, or clears them -/
structure KeepsBack (recLen : Nat) (f : TdbBucket D → TdbBucket D) : Prop where
  id : ∀b,(f b).id=b.id
  back : ∀b,BackBckt recLen b → BackBckt recLen (f b)

lemma BackRecs.modify {bid : Nat} {recs : List (TdbFRec D)} (h : ∀r∈recs,∀p,r.bucket=some p → p=bid)
    (slot : Nat) {f : TdbFRec D → TdbFRec D} (hf : ∀r,(f r).bucket=r.bucket ∨ (f r).bucket=none) :
    ∀r∈recs.modify slot f,∀p,r.bucket=some p → p=bid := by
  intro r hr p hp
  obtain ⟨j,hj⟩ := mem_iff_getElem?.mp hr
  rw [getElem?_modify] at hj
  obtain ⟨r0,hr0,hfr⟩ := Option.map_eq_some_iff.1 hj
  have hm : r0∈recs := mem_of_getElem? hr0
  split at hfr
  · rw [← hfr] at hp
    obtain hs | hn := hf r0
    · rw [hs] at hp
      exact h r0 hm p hp
    · rw [hn] at hp
      cases hp
  · exact h r0 hm p (hfr ▸ hp)

lemma keepsBack_modRec (blk slot : Nat) {f : TdbFRec D → TdbFRec D} (hf : ∀r,(f r).bucket=r.bucket) :
    KeepsBack recLen (modRec blk slot f) := by
  refine ⟨fun _ => rfl,fun b hb d' hd' => ?_⟩
  obtain ⟨d,hd,rfl⟩ := Option.map_eq_some_iff.1 hd'
  obtain ⟨hl,hba⟩ := hb d hd
  split
  · exact ⟨by rw [length_modify]; exact hl,BackRecs.modify hba slot fun r => .inl (hf r)⟩
  · exact ⟨hl,hba⟩

lemma keepsBack_bucketPutRecord (recLen blk slot : Nat) :
    KeepsBack recLen (bucketPutRecord (D := D) recLen blk slot) := by
  refine ⟨fun b => ?_,fun b hb => ?_⟩
  · unfold bucketPutRecord
    split <;> rfl
  · unfold bucketPutRecord
    cases hd : b.first with
    | none => exact hb
    | some d =>
      obtain ⟨hl,hba⟩ := hb d hd
      have hs : ∀r∈d.recs.take (smallCount recLen),∀p,r.bucket=some p → p=b.id := fun r hr => hba r (mem_of_mem_take hr)
      intro d' hd'
      simp only at hd'
      generalize hma : (if d.id=blk then (d.recs.take (smallCount recLen)).modify slot
        (fun r => {r with bucket:=none}) else d.recs.take (smallCount recLen))=marked at hd'
      have hm : marked.length=(d.recs.take (smallCount recLen)).length ∧ ∀r∈marked,∀p,r.bucket=some p → p=b.id := by
        subst hma
        split
        · exact ⟨length_modify ..,BackRecs.modify hs slot fun _ => .inr rfl⟩
        · exact ⟨rfl,hs⟩
      split at hd'
      · cases hd'
        refine ⟨?_,fun r hr => ?_⟩
        · rw [length_append,hm.1,← length_append,take_append_drop,hl]
        · obtain hr | hr := mem_append.1 hr
          · exact hm.2 r hr
          · exact hba r (mem_of_mem_drop hr)
      · cases hd'

/-- The pointers are right, and the buckets are those that the allocation gave. -/
structure BackTable (recLen : Nat) (dbh : TdbHdr D) : Prop where
  back : ∀b∈dbh.bckts,BackBckt recLen b
  ids : (Shift.index dbh.root).ids=Multiset.range dbh.alloc.bckts

lemma backTable_empty : BackTable recLen ({} : TdbHdr D) := by
  refine ⟨fun b hb => ?_,?_⟩
  · obtain ⟨i,hi⟩ := mem_bckts_index.1 hb
    cases hi
  · rw [ids_index]
    exact Finset.sum_eq_zero fun _ _ => rfl

section
variable (h : BackTable recLen dbh)
include h
lemma BackTable.update (hs : ∀b∈sh.bckts,BackBckt recLen b) (hf : Fresh (dbh.root i).ids sh.ids dbh.alloc a) :
    BackTable recLen ⟨update dbh.root i sh,a⟩ := by
  refine ⟨forall_bckts_update h.back hs,?_⟩
  have hi := hf.update
  unfold Fresh at hi
  rw [h.ids,add_comm] at hi
  exact add_left_cancel hi

lemma BackTable.map (hf : KeepsBack recLen f) : BackTable recLen (dbh.mapBckts f) := by
  refine ⟨fun b hb => ?_,?_⟩
  · have hm : b∈((Shift.index dbh.root).map f).bckts := hb
    rw [bckts_map] at hm
    obtain ⟨b0,hb0,rfl⟩ := mem_map.1 hm
    exact hf.back b0 (h.back b0 hb0)
  · exact (ids_map hf.id (.index dbh.root)).trans h.ids

lemma BackTable.putBucket (blk slot : Nat) (bckt : Option Nat) :
    BackTable recLen (putBucket recLen blk slot bckt dbh) := by
  cases bckt with
  | none => exact h
  | some bid =>
    have hp := keepsBack_bucketPutRecord (D := D) recLen blk slot
    refine h.map ⟨fun b => ?_,fun b hb => ?_⟩
    · split
      · exact hp.id b
      · rfl
    · split
      · exact hp.back b hb
      · exact hb

lemma BackTable.put {dbh' : TdbHdr D} {blk slot : Nat}
    (hp : htriePutRec recLen blk slot dbh=.ok dbh') : BackTable recLen dbh' := by
  unfold htriePutRec at hp
  cases hf : findRec dbh blk slot with
  | none =>
    rw [hf] at hp
    cases hp
    exact h
  | some r =>
    simp only [hf] at hp
    have hd := h.map (keepsBack_modRec blk slot (f := fun r => {r with refcnt:=r.refcnt-1}) fun _ => rfl)
    split at hp
    · cases hp
    · split at hp
      · cases hp
        exact (hd.putBucket blk slot r.bucket).map (keepsBack_modRec blk slot fun _ => rfl)
      · cases hp
        exact hd

end

lemma smallrecLink_safe [Inhabited D] {coll chain : List (TdbBucket D)} {r : TdbFRec D}
    {d : DataBlk D} (hd : b.first=some d) (hs : chainSafe recLen b coll=true)
    (h : smallrecLink recLen r (b::coll)=some chain) : ∃j,chain=b.setRec j r::coll := by
  rw [smallrecLink] at h
  cases hf : freeSlot recLen b with
  | some j =>
    rw [hf] at h
    cases h
    exact ⟨j,rfl⟩
  | none =>
    rw [chainSafe_iff hd,hf] at hs
    obtain ⟨hc,-⟩ := hs.resolve_left (by simp)
    have hn : smallrecLink recLen r coll=none := by
      clear h hf hd hs
      induction coll with
      | nil => rfl
      | cons b' coll ih =>
        rw [smallrecLink,hc b' mem_cons_self,ih fun b hb => hc b (mem_cons_of_mem _ hb)]
        rfl
    rw [hf,hn] at h
    cases h

variable [Inhabited D] {beyond : Nat → Nat → Bool} {eq : Option (TdbFRec D → Bool)} {refcnt key rem : Nat}
  {data : D} {b : TdbBucket D} {coll : List (TdbBucket D)} {a a' : Alloc} {sh sh' : Shift D}

lemma LeafSafe.back (h : LeafSafe recLen sh) : ∀b∈sh.bckts,BackBckt recLen b := by
  obtain rfl | ⟨b,rfl,hb,-⟩ := h
  · intro b hb
    cases hb
  · exact forall_mem_cons.2 ⟨hb,by simp⟩

lemma LeafSafe.safe (h : LeafSafe recLen sh) :
    ∀b coll,descend key rem sh=.ok (b::coll) → chainSafe recLen b coll=true := by
  intro b coll hd
  obtain rfl | ⟨b',rfl,-,hs⟩ := h
  · rw [descend] at hd
    cases hd
  · rw [descend] at hd
    cases hd
    exact hs

lemma insertShift_bckt_eq_ok (h : insertShift recLen beyond eq refcnt key data rem (.bckt b coll) a=.ok (sh',a')) :
    ∃b1,removeEq recLen eq b=.ok b1 ∧
      (b1.first=none ∧ sh'=.bckt (assignRecord recLen b1 {createRec b1.id key data with refcnt} a).1 coll ∧
          a'.bckts=a.bckts ∨ ∃d,b1.first=some d ∧
          ((∃b2 coll2,smallrecLink recLen {createRec b1.id key data with refcnt} (b1::coll) =
              some (b2::coll2) ∧ sh'=.bckt b2 coll2 ∧ a'=a) ∨
            freeSlot recLen b1=none ∧ ((rem=0 ∧
              ∃coll',collInsert recLen eq {createRec b1.id key data with refcnt} coll a=.ok (coll',a') ∧
                sh'=.bckt b1 coll') ∨ ∃n shifts a1 sh,rem=n+1 ∧ coll=[] ∧
              htrieBurst recLen beyond b1 (bitsAt (n+1)) a=.ok (shifts,a1) ∧
              insertShift recLen beyond eq refcnt key data n (shifts (htrieIdx key (bitsAt (n+1)))) a1=.ok (sh,a') ∧
              sh'=.index (update shifts (htrieIdx key (bitsAt (n+1))) sh)))) := by
  rw [insertShift] at h
  obtain ⟨b1,heq,h⟩ := bind_eq_ok.1 h
  refine ⟨b1,heq,?_⟩
  cases hf : b1.first with
  | none =>
    rw [hf] at h
    cases h
    exact .inl ⟨rfl,rfl,rfl⟩
  | some d =>
    refine .inr ⟨d,rfl,?_⟩
    rw [hf] at h
    simp only at h
    split at h
    · rename_i b2 coll2 hl
      cases h
      refine .inl ⟨b2,coll2,?_,rfl,rfl⟩
      split at hl
      · exact hl
      · cases hl
    · rename_i hl
      have hfr : freeSlot recLen b1=none := by
        by_cases hm : recLen < mindrec
        · cases hs : freeSlot recLen b1 with
          | none => rfl
          | some j =>
            refine (hl (b1.setRec j {createRec b1.id key data with refcnt}) coll ?_).elim
            rw [if_pos hm,smallrecLink,hs]
        · exact freeSlot_of_large (large_of_ge (Nat.le_of_not_lt hm)) b1
      refine .inr ⟨hfr,?_⟩
      cases rem with
      | zero =>
        simp only at h
        split at h
        · cases h
        · obtain ⟨⟨coll',a1⟩,hc,h⟩ := bind_eq_ok.1 h
          cases h
          exact .inl ⟨rfl,coll',hc,rfl⟩
      | succ n =>
        simp only at h
        split at h
        · cases h
        · rename_i hc
          obtain ⟨⟨shifts,a1⟩,hb,h⟩ := bind_eq_ok.1 h
          obtain ⟨⟨sh,a2⟩,hi,h⟩ := bind_eq_ok.1 h
          cases h
          refine .inr ⟨n,shifts,a1,sh,rfl,?_,hb,hi,rfl⟩
          simpa using hc

lemma insertShift_back (h : insertShift recLen beyond eq refcnt key data rem sh a=.ok (sh',a'))
    (hr : rem<16) (hba : ∀b∈sh.bckts,BackBckt recLen b)
    (hs : ∀b coll,descend key rem sh=.ok (b::coll) → chainSafe recLen b coll=true) :
    (∀b∈sh'.bckts,BackBckt recLen b) ∧ Fresh sh.ids sh'.ids a a' := by
  induction rem using Nat.strongRecOn generalizing sh sh' a a' with
  | ind rem ih =>
    cases sh with
    | none =>
      rw [insertShift] at h
      cases h
      refine ⟨fun b hb => ?_,Fresh.new 0 a rfl⟩
      rw [mem_singleton.1 hb]
      exact (single_newBucket _ a).back
    | index shifts =>
      cases rem with
      | zero =>
        rw [insertShift] at h
        cases h
      | succ n =>
        rw [insertShift] at h
        obtain ⟨⟨sh1,a1⟩,hin,h⟩ := bind_eq_ok.1 h
        cases h
        rw [descend] at hs
        obtain ⟨hok,hf⟩ := ih n (Nat.lt_succ_self n) hin (by omega)
          (fun b hb => hba b (mem_bckts_index.2 ⟨_,hb⟩)) hs
        exact ⟨forall_bckts_update hba hok,hf.update⟩
    | bckt b coll =>
      have hch := hs b coll (by rw [descend])
      have hb := hba b mem_cons_self
      have hc : ∀b'∈coll,BackBckt recLen b' := fun b' hb' => hba b' (mem_cons_of_mem _ hb')
      obtain ⟨b1,heq,hca⟩ := insertShift_bckt_eq_ok h
      have hl := bcktLost_removeEq heq
      have hb1 := hb.lost hl
      have hc1 := chainSafe_lost hb hch hl
      obtain ⟨-,rfl,ha⟩ | ⟨d,hd,⟨b2,coll2,hli,rfl,rfl⟩ |
        ⟨hfe,⟨rfl,coll',hin,rfl⟩ | ⟨n,shifts,a1,sh1,rfl,rfl,hbu,hin,rfl⟩⟩⟩ := hca
      · refine ⟨forall_mem_cons.2 ⟨(single_assign rfl a).back,hc⟩,?_⟩
        have hid : (Shift.bckt (assignRecord recLen b1 {createRec b1.id key data with refcnt} a).1 coll).ids =
            b.id ::ₘ ids coll := by
          rw [← hl.1]
          rfl
        rw [hid]
        exact Fresh.refl _ ha
      · obtain ⟨j,heq⟩ := smallrecLink_safe hd hc1 hli
        cases heq
        refine ⟨forall_mem_cons.2 ⟨hb1.setRec rfl j,hc⟩,?_⟩
        have hid : (Shift.bckt (b1.setRec j {createRec b1.id key data with refcnt}) coll).ids = b.id ::ₘ ids coll := by
          rw [← hl.1]
          rfl
        rw [hid]
        exact Fresh.refl _ rfl
      · obtain ⟨hok,hf⟩ := collInsert_back hin hc
        refine ⟨forall_mem_cons.2 ⟨hb1,hok⟩,?_⟩
        have hid : (Shift.bckt b1 coll').ids=b.id ::ₘ ids coll' := by
          rw [← hl.1]
          rfl
        rw [hid]
        exact hf.cons b.id
      · rw [chainSafe_iff hd,hfe] at hc1
        obtain ⟨-,hsp⟩ := hc1.resolve_left (by simp)
        obtain ⟨hle,hf⟩ := htrieBurst_back hbu (by omega) hd hb1 hsp
        obtain ⟨hok,hf'⟩ := ih n (Nat.lt_succ_self n) hin (by omega) (hle _).back (hle _).safe
        refine ⟨forall_bckts_update (fun b' hb' => ?_) hok,?_⟩
        · obtain ⟨i,hi⟩ := mem_bckts_index.1 hb'
          exact (hle i).back b' hi
        · rw [hl.1,← ids_index] at hf
          exact hf.trans hf'.update

lemma removeChain_back {eq : TdbFRec D → Bool} {chain chain' : List (TdbBucket D)}
    (h : removeChain recLen eq chain=.ok chain') (hba : ∀b∈chain,BackBckt recLen b) :
    (∀b∈chain',BackBckt recLen b) ∧ ids chain'=ids chain := by
  induction chain generalizing chain' with
  | nil =>
    cases h
    exact ⟨hba,rfl⟩
  | cons b chain ih =>
    rw [removeChain] at h
    obtain ⟨b',hb,h⟩ := bind_eq_ok.1 h
    obtain ⟨rest,hr,h⟩ := bind_eq_ok.1 h
    cases h
    obtain ⟨hb0,hc⟩ := forall_mem_cons.1 hba
    have hl := bcktLost_remove hb
    obtain ⟨hok,hi⟩ := ih hr hc
    refine ⟨forall_mem_cons.2 ⟨hb0.lost hl,hok⟩,?_⟩
    rw [ids_cons,ids_cons,hi,hl.1]

lemma removeShift_back {eq : TdbFRec D → Bool} (h : removeShift recLen eq key rem sh=.ok sh')
    (hba : ∀b∈sh.bckts,BackBckt recLen b) (a : Alloc) :
    (∀b∈sh'.bckts,BackBckt recLen b) ∧ Fresh sh.ids sh'.ids a a := by
  induction sh generalizing rem sh' with
  | none =>
    rw [removeShift] at h
    cases h
    exact ⟨hba,Fresh.refl _ rfl⟩
  | bckt b coll =>
    rw [removeShift] at h
    obtain ⟨b',hb,h⟩ := bind_eq_ok.1 h
    obtain ⟨coll',hco,h⟩ := bind_eq_ok.1 h
    cases h
    obtain ⟨hb0,hc⟩ := forall_mem_cons.1 hba
    have hl := bcktLost_remove hb
    obtain ⟨hok,hi⟩ := removeChain_back hco hc
    refine ⟨forall_mem_cons.2 ⟨hb0.lost hl,hok⟩,?_⟩
    have heq : (Shift.bckt b' coll').ids=(Shift.bckt b coll).ids := by
      unfold Shift.ids Shift.bckts
      rw [ids_cons,ids_cons,hi,hl.1]
    rw [heq]
    exact Fresh.refl _ rfl
  | index shifts ih =>
    cases rem with
    | zero =>
      rw [removeShift] at h
      cases h
    | succ n =>
      rw [removeShift] at h
      obtain ⟨sh1,hr,h⟩ := bind_eq_ok.1 h
      cases h
      obtain ⟨hok,hf⟩ := ih _ hr fun b hb => hba b (mem_bckts_index.2 ⟨_,hb⟩)
      exact ⟨forall_bckts_update hba hok,hf.update⟩

lemma BackTable.step {dbh dbh' : TdbHdr D} (h : BackTable recLen dbh) {op : RefOp D}
    (hs : opSafe recLen dbh op=true) (hst : refStep recLen beyond dbh op=.ok dbh') : BackTable recLen dbh' := by
  have hro : ∀i,∀b∈(dbh.root i).bckts,BackBckt recLen b := fun i b hb => h.back b (mem_bckts_index.2 ⟨i,hb⟩)
  cases op with
  | insert key data eq =>
    rw [refStep] at hst
    split at hst
    · cases hst
      exact h
    · obtain ⟨⟨sh,a⟩,hi,hst⟩ := bind_eq_ok.1 hst
      cases hst
      obtain ⟨hok,hf⟩ := insertShift_back hi (by decide) (hro _) fun b coll hd => by
        rw [opSafe,htrieLookup,hd] at hs
        exact hs
      exact h.update hok hf
  | remove key eq =>
    rw [refStep,htrieRemove] at hst
    obtain ⟨sh,hr,hst⟩ := bind_eq_ok.1 hst
    cases hst
    obtain ⟨hok,hf⟩ := removeShift_back hr (hro _) dbh.alloc
    exact h.update hok hf
  | get blk slot =>
    cases hst
    exact h.map (keepsBack_modRec blk slot fun _ => rfl)
  | put blk slot => exact h.put hst
  | putDetached blk slot bckt =>
    cases hst
    exact h.putBucket blk slot (some bckt)

def refSystem (recLen : Nat) (beyond : Nat → Nat → Bool) (dbh : TdbHdr D) (op : RefOp D) : Option (TdbHdr D) :=
  (refStep recLen beyond dbh op).toOption

/-- In every state of a history whose insertions are safe, each record that is alive and not removed points to the
bucket that holds it. -/
theorem back_pointers_right {ops : List (RefOp D)} {dbh : TdbHdr D}
    (hsafe : along (refSystem recLen beyond) (opSafe recLen) {} ops=true)
    (hrun : run (refSystem recLen beyond) {} ops=some dbh) :
    ∀b∈dbh.bckts,∀d,b.first=some d → ∀r∈d.recs,r.live=true → r.isRemoved=false →
      r.bucket=some b.id ∧ ∀b'∈dbh.bckts,r.bucket=some b'.id → b'=b := by
  have ht : BackTable recLen dbh :=
    run_invariant_along (refSystem recLen beyond) (fun dbh op dbh' h ho hst =>
      h.step ho (toOption_eq_some.1 hst)) backTable_empty hsafe hrun
  intro b hb d hd r hr _ hin
  have hba : r.bucket=some b.id := by
    cases hp : r.bucket with
    | none =>
      rw [TdbFRec.isRemoved,hp] at hin
      cases hin
    | some p => rw [(ht.back b hb d hd).back r hr p hp]
  refine ⟨hba,fun b' hb' hr' => ?_⟩
  have hnd : (dbh.bckts.map TdbBucket.id).Nodup := by
    have hi : ((dbh.bckts.map TdbBucket.id : List Nat) : Multiset Nat)=Multiset.range dbh.alloc.bckts := ht.ids
    rw [← Multiset.coe_nodup,hi]
    exact Multiset.nodup_range _
  exact inj_on_of_nodup_map hnd hb' hb (Option.some.inj (hr'.symm.trans hba))

/-- A burst that moves two records to two new buckets, a record that is released by its user and by the table, and
a removal while the user still has the record -/
def spreadHistory : List (RefOp Nat) :=
  [.insert 0x1 1 none,.insert 0x11 2 none,.insert 0x21 3 none,.insert 0x31 4 none,.put 0 0,.put 0 0,
    .get 1 0,.remove 0x11 fun r => r.data == 2]

theorem back_pointers_right_spread :
    ∃dbh,run (refSystem 16 fun _ _ => true) {} spreadHistory=some dbh ∧ dbh.bckts.length=4 ∧
      ∀b∈dbh.bckts,∀d,b.first=some d → ∀r∈d.recs,r.live=true → r.isRemoved=false →
        r.bucket=some b.id ∧ ∀b'∈dbh.bckts,r.bucket=some b'.id → b'=b := by
  have hl : (run (refSystem 16 fun _ _ => true) {} spreadHistory).map (fun dbh => dbh.bckts.length) = some 4 := by
    decide +kernel
  obtain ⟨dbh,hr,hn⟩ := Option.map_eq_some_iff.1 hl
  exact ⟨dbh,hr,hn,back_pointers_right (by decide +kernel) hr⟩

/-- The records whose pointer is not to their bucket. -/
def strayPtrs (dbh : TdbHdr D) : List (Nat×Nat) := dbh.bckts.flatMap fun b =>
    match b.first with
    | none => []
    | some d => d.recs.filterMap fun r =>
        if r.live then r.bucket.bind fun p => if p=b.id then none else some (b.id,p) else none

/-- Records of 16 bytes. A burst moves two of them to one new bucket. -/
theorem back_pointers_wrong :
    (run (refSystem 16 fun _ _ => true) {} [.insert 0x1 1 none,.insert 0x11 2 none,.insert 0x11 3 none,
        .insert 0x21 4 none]).map strayPtrs=some [(1,0)] ∧
      (run (refSystem 16 fun _ _ => true) {} [.insert 0x11 1 none,.insert 0x11 2 none,.insert 0x11 3 none,
        .insert 0x11 4 none,.insert 0x11 5 none]).map strayPtrs=some [(1,0)] := by
  decide +kernel
end VetWaf.Tdb
