import VetWaf.Tdb.BurstBag
import VetWaf.Tdb.Refs

namespace VetWaf.Tdb
open Outcome List TdbFRec
variable {D : Type} {recLen : Nat}

/-- What a removal leaves of a record. -/
def Lost (r r' : TdbFRec D) : Prop := r'=r ∨ r'.bucket=none ∧ (r'.key=r.key ∨ r'.key=0)

lemma Lost.refl (r : TdbFRec D) : Lost r r := .inl rfl
lemma lost_refl (recs : List (TdbFRec D)) : List.Forall₂ Lost recs recs := forall₂_same.2 fun r _ => Lost.refl r

variable {r r' : TdbFRec D} {recs recs' : List (TdbFRec D)} {b b' : TdbBucket D} {bid bits : Nat}
    {d : DataBlk D} {a a' : Alloc} {s : Multiset Nat}

lemma lost_removePut (h : removePut r=.ok r') : Lost r r' := by
  unfold removePut at h
  simp only at h
  split at h
  · cases h
  · split at h
    · cases h
      exact .inr ⟨rfl,.inr rfl⟩
    · cases h
      exact .inr ⟨rfl,.inl rfl⟩

variable {eq : TdbFRec D → Bool} {s' : Multiset Nat} {d' : DataBlk D} {coll : List (TdbBucket D)}
    {k0 : Fin 16} {st st' : Burst D} {beyond : Nat → Nat → Bool} {shifts : Fin 16 → Shift D}

lemma lost_removeSmallLoop {alive : Bool}
    (h : removeSmallLoop eq removePut recs=.ok (recs',alive)) : List.Forall₂ Lost recs recs' := by
  induction recs generalizing recs' alive with
  | nil =>
    cases h
    exact .nil
  | cons r recs ih =>
    obtain ⟨⟨r1,a1⟩,hst,h⟩ := bind_eq_ok.1 h
    obtain ⟨⟨recs1,a2⟩,hl,h⟩ := bind_eq_ok.1 h
    cases h
    refine .cons ?_ (ih hl)
    unfold removeSmallStep at hst
    split at hst
    · cases hst
      exact Lost.refl _
    · split at hst
      · obtain ⟨r2,hp,hst⟩ := bind_eq_ok.1 hst
        cases hst
        exact lost_removePut hp
      · cases hst
        exact Lost.refl _

def BcktLost (b b' : TdbBucket D) : Prop :=
  b'.id=b.id ∧ ∀d',b'.first=some d' → ∃d,b.first=some d ∧ List.Forall₂ Lost d.recs d'.recs

lemma BcktLost.refl (b : TdbBucket D) : BcktLost b b := ⟨rfl,fun d hd => ⟨d,hd,lost_refl d.recs⟩⟩

lemma bcktLost_detach (b : TdbBucket D) : BcktLost b {b with first:=none} := by
  refine ⟨rfl,fun d' hd' => ?_⟩
  cases hd'

lemma bcktLost_removeSmall (h : bucketRemoveSmallRecord recLen eq removePut b=.ok b') : BcktLost b b' := by
  unfold bucketRemoveSmallRecord at h
  cases hf : b.first with
  | none =>
    rw [hf] at h
    cases h
    exact BcktLost.refl b
  | some d =>
    rw [hf] at h
    obtain ⟨⟨recs,alive⟩,hl,h⟩ := bind_eq_ok.1 h
    cases h
    cases alive with
    | false => exact bcktLost_detach b
    | true =>
      refine ⟨rfl,fun d' hd' => ⟨d,hf,?_⟩⟩
      cases hd'
      have ha := rel_append (lost_removeSmallLoop hl) (lost_refl (d.recs.drop (smallCount recLen)))
      simp only [take_append_drop] at ha
      exact ha

section
variable [Inhabited D]
lemma bcktLost_remove {eq : TdbFRec D → Bool} {b b' : TdbBucket D}
    (h : bucketRemoveRecord recLen eq b=.ok b') : BcktLost b b' := by
  unfold bucketRemoveRecord at h
  split at h
  · unfold bucketRemoveLargeRecord at h
    cases hf : b.first with
    | none =>
      rw [hf] at h
      cases h
      exact BcktLost.refl b
    | some d =>
      simp only [hf] at h
      split at h
      · obtain ⟨r,-,h⟩ := bind_eq_ok.1 h
        split at h
        · cases h
          exact bcktLost_detach b
        · cases h
      · cases h
        exact BcktLost.refl b
  · exact bcktLost_removeSmall h

lemma bcktLost_removeEq {eq : Option (TdbFRec D → Bool)} {b b' : TdbBucket D}
    (h : removeEq recLen eq b=.ok b') : BcktLost b b' := by
  cases eq with
  | none =>
    cases h
    exact BcktLost.refl b
  | some eq => exact bcktLost_remove h

end

/-- The records that are not marked as removed point to the bucket. -/
structure BackRecs (recLen bid : Nat) (recs : List (TdbFRec D)) : Prop where
  length : recs.length=roomCount recLen
  back : ∀r∈recs,∀p,r.bucket=some p → p=bid

def BackBckt (recLen : Nat) (b : TdbBucket D) : Prop := ∀d,b.first=some d → BackRecs recLen b.id d.recs

lemma mem_lost (h : List.Forall₂ Lost recs recs') (hr' : r'∈recs') : r'.bucket=none ∨ r'∈recs := by
  induction h with
  | nil => cases hr'
  | cons hr _ ih =>
    obtain rfl | hr' := mem_cons.1 hr'
    · obtain rfl | ⟨hn,-⟩ := hr
      · exact .inr (.head _)
      · exact .inl hn
    · exact (ih hr').imp_right (mem_cons_of_mem _)

lemma BackRecs.lost (h : BackRecs recLen bid recs) (hl : List.Forall₂ Lost recs recs') : BackRecs recLen bid recs' := by
  refine ⟨hl.length_eq.symm.trans h.length,fun r' hr' p hp => ?_⟩
  obtain hn | hr := mem_lost hl hr'
  · rw [hn] at hp
    cases hp
  · exact h.back r' hr p hp

lemma BackBckt.lost (h : BackBckt recLen b) (hl : BcktLost b b') : BackBckt recLen b' := by
  intro d' hd'
  obtain ⟨d,hd,hr⟩ := hl.2 d' hd'
  rw [hl.1]
  exact (h d hd).lost hr

lemma keys_lost (hl : List.Forall₂ Lost recs recs') : ((recs'.filter fun r => !r.isRemoved).map key).Sublist
      ((recs.filter fun r => !r.isRemoved).map key) := by
  induction hl with
  | nil => exact .slnil
  | @cons r r' recs recs' hr _ ih =>
    obtain rfl | ⟨hn,-⟩ := hr
    · cases hre : r'.isRemoved with
      | true => simpa [filter_cons,hre] using ih
      | false => simpa [filter_cons,hre] using ih
    · have hre : r'.isRemoved=true := by rw [isRemoved,hn]; rfl
      rw [filter_cons_of_neg (by simp [hre])]
      refine ih.trans (List.Sublist.map _ (List.Sublist.filter _ (sublist_cons_self r recs)))

lemma isSome_freeSlot (hd : b.first=some d) :
    (freeSlot recLen b).isSome=true ↔ ∃r∈d.recs.take (smallCount recLen),r.key=0 := by
  unfold freeSlot
  rw [hd,Option.bind_some,findIdx?_isSome]
  simp [live]

lemma freed_lost (hl : List.Forall₂ Lost recs recs') (n : Nat)
    (h : ∃r∈recs.take n,r.key=0) : ∃r∈recs'.take n,r.key=0 := by
  induction hl generalizing n with
  | nil => exact h
  | @cons r r' recs recs' hr _ ih =>
    cases n with
    | zero =>
      obtain ⟨r,hr,-⟩ := h
      cases hr
    | succ n =>
      rw [take_succ_cons,exists_mem_cons_iff] at h ⊢
      refine h.imp (fun hk => ?_) (ih n)
      obtain rfl | ⟨-,hs | h0⟩ := hr
      · exact hk
      · exact hs.trans hk
      · exact h0

lemma BackBckt.setRec (h : BackBckt recLen b) (hr : r.bucket=some b.id) (j : Nat) : BackBckt recLen (b.setRec j r) := by
  intro d' hd'
  obtain ⟨d,hd,rfl⟩ := Option.map_eq_some_iff.1 hd'
  refine ⟨by rw [length_set]; exact (h d hd).length,fun r' hr' p hp => ?_⟩
  obtain hr' | rfl := mem_or_eq_of_mem_set hr'
  · exact (h d hd).back r' hr' p hp
  · rw [hr] at hp
    exact (Option.some.inj hp).symm

def ids (chain : List (TdbBucket D)) : Multiset Nat := (chain.map TdbBucket.id : List Nat)
lemma ids_cons (b : TdbBucket D) (chain : List (TdbBucket D)) : ids (b::chain)=b.id ::ₘ ids chain := rfl
def Fresh (old new : Multiset Nat) (a a' : Alloc) : Prop := new+Multiset.range a.bckts=old+Multiset.range a'.bckts

lemma Fresh.refl (s : Multiset Nat) (h : a'.bckts=a.bckts) : Fresh s s a a' := by
  unfold Fresh
  rw [h]

lemma Fresh.new (s : Multiset Nat) (a : Alloc) (h : a'.bckts=a.bckts+1) : Fresh s (a.bckts ::ₘ s) a a' := by
  unfold Fresh
  rw [h,Multiset.range_succ,Multiset.cons_add,Multiset.add_cons]

lemma Fresh.cons (h : Fresh s s' a a') (i : Nat) : Fresh (i ::ₘ s) (i ::ₘ s') a a' := by
  unfold Fresh at *
  rw [Multiset.cons_add,Multiset.cons_add,h]

lemma Fresh.add (h : Fresh s s' a a') (t : Multiset Nat) : Fresh (t+s) (t+s') a a' := by
  unfold Fresh at *
  rw [add_assoc,add_assoc,h]

variable [Inhabited D]
lemma spread_mono (h : spread d=true) (hk : (moveKeys d').Sublist (moveKeys d))
    (hh : bucketKey d'=bucketKey d) : spread d'=true := by
  unfold spread at h ⊢
  rw [hh]
  exact decide_eq_true ((of_decide_eq_true h).sublist hk)

lemma spread_of_nil (h : moveKeys d=[]) : spread d=true := by
  unfold spread
  rw [h]
  exact decide_eq_true .nil

lemma chainSafe_iff (hd : b.first=some d) : chainSafe recLen b coll=true ↔ (freeSlot recLen b).isSome=true ∨
      (∀b'∈coll,freeSlot recLen b'=none) ∧ spread d=true := by
  unfold chainSafe
  rw [hd]
  simp

lemma spread_lost (h : spread d=true) (hl : d.recs.length=roomCount recLen)
    (hlo : List.Forall₂ Lost d.recs d'.recs) (hfr : ¬∃r∈d'.recs.take (smallCount recLen),r.key=0) : spread d'=true := by
  obtain ⟨id,recs⟩ := d
  obtain ⟨id',recs'⟩ := d'
  cases hlo with
  | nil =>
    have hp := roomCount_pos recLen
    rw [← hl] at hp
    cases hp
  | @cons frec frec' rest rest' hf hr =>
    have hke := keys_lost hr
    by_cases hk : frec'.key=frec.key
    · exact spread_mono h hke hk
    · -- a record that is not seen is alone in its block
      have h0 : frec'.key=0 := by
        obtain rfl | ⟨-,hs | h0⟩ := hf
        · exact absurd rfl hk
        · exact absurd hs hk
        · exact h0
      have hno : smallCount recLen=0 := by
        by_contra hne
        obtain ⟨n,hn⟩ := Nat.exists_eq_succ_of_ne_zero hne
        refine hfr ⟨frec',?_,h0⟩
        rw [hn,take_succ_cons]
        exact .head _
      rw [roomCount,hno] at hl
      have hni : rest=[] := length_eq_zero_iff.1 (Nat.succ.inj hl)
      subst hni
      cases hr
      exact spread_of_nil rfl

lemma chainSafe_lost (hb : BackBckt recLen b)
    (h : chainSafe recLen b coll=true) (hl : BcktLost b b') : chainSafe recLen b' coll=true := by
  cases hd' : b'.first with
  | none =>
    unfold chainSafe
    rw [hd']
    rfl
  | some d' =>
    obtain ⟨d,hd,hre⟩ := hl.2 d' hd'
    rw [chainSafe_iff hd'] at *
    rw [chainSafe_iff hd] at h
    obtain hf | ⟨hc,hs⟩ := h
    · exact .inl ((isSome_freeSlot hd').2 (freed_lost hre _ ((isSome_freeSlot hd).1 hf)))
    · by_cases hf : (freeSlot recLen b').isSome=true
      · exact .inl hf
      · exact .inr ⟨hc,spread_lost hs (hb d hd).length hre fun hr => hf ((isSome_freeSlot hd').2 hr)⟩

structure Single (recLen : Nat) (b : TdbBucket D) : Prop where
  back : BackBckt recLen b
  alone : ∀d,b.first=some d → moveKeys d=[]

lemma single_assign (hr : r.bucket=some b.id) (a : Alloc) : Single recLen (assignRecord recLen b r a).1 := by
  obtain ⟨n,hn⟩ := Nat.exists_eq_succ_of_ne_zero (Nat.ne_of_gt (roomCount_pos recLen))
  have hre : (replicate (roomCount recLen) (default : TdbFRec D)).set 0 r=r::replicate n default := by
    rw [hn,replicate_succ,set_cons_zero]
  refine ⟨fun d hd => ?_,fun d hd => ?_⟩
  · cases hd
    refine ⟨by rw [length_set]; exact length_replicate ..,fun r' hr' p hp => ?_⟩
    simp only [hre] at hr'
    obtain rfl | hr' := mem_cons.1 hr'
    · rw [hr] at hp
      exact (Option.some.inj hp).symm
    · rw [eq_of_mem_replicate hr'] at hp
      cases hp
  · cases hd
    unfold moveKeys
    simp only [hre,tail_cons]
    rw [map_eq_nil_iff,filter_eq_nil_iff]
    intro r' hr'
    rw [eq_of_mem_replicate hr']
    exact Bool.false_ne_true

lemma single_newBucket (r : TdbFRec D) (a : Alloc) : Single recLen (newBucket recLen r a).1 := single_assign rfl _

lemma collInsert_back {eq : Option (TdbFRec D → Bool)} {chain chain' : List (TdbBucket D)}
    (h : collInsert recLen eq r chain a=.ok (chain',a')) (hba : ∀b∈chain,BackBckt recLen b) :
    (∀b∈chain',BackBckt recLen b) ∧ Fresh (ids chain) (ids chain') a a' := by
  induction chain generalizing chain' a' with
  | nil =>
    cases h
    refine ⟨fun b hb => ?_,?_⟩
    · rw [mem_singleton.1 hb]
      exact (single_newBucket r a).back
    · exact Fresh.new 0 a rfl
  | cons b chain ih =>
    rw [collInsert] at h
    obtain ⟨b1,heq,h⟩ := bind_eq_ok.1 h
    have hl := bcktLost_removeEq heq
    have hb1 := (hba b (.head _)).lost hl
    have hr : ∀b'∈chain,BackBckt recLen b' := fun b' hb' => hba b' (.tail _ hb')
    cases hf : b1.first with
    | none =>
      rw [hf] at h
      cases h
      refine ⟨fun b' hb' => ?_,?_⟩
      · obtain rfl | hb' := mem_cons.1 hb'
        · exact (single_assign rfl a).back
        · exact hr b' hb'
      · rw [ids_cons,ids_cons,← hl.1]
        exact Fresh.refl _ rfl
    | some d =>
      rw [hf] at h
      obtain ⟨⟨rest,a1⟩,hrec,h⟩ := bind_eq_ok.1 h
      cases h
      obtain ⟨hr',hfr⟩ := ih hrec hr
      refine ⟨fun b' hb' => ?_,?_⟩
      · obtain rfl | hb' := mem_cons.1 hb'
        · exact hb1
        · exact hr' b' hb'
      · rw [ids_cons,ids_cons,hl.1]
        exact hfr.cons b.id

def nbId : Option (TdbBucket D×Nat) → Multiset Nat
  | none => 0
  | some (b,_) => {b.id}

def nbIds (st : Burst D) : Multiset Nat := ∑ k,nbId (st.nb k)
def NbSingle (recLen : Nat) (st : Burst D) : Prop := ∀k b off,st.nb k=some (b,off) → Single recLen b

lemma moveRec_back (h : moveRec recLen bid k0 bits st r=.ok (st',r')) (hn : NbSingle recLen st)
    (hf : r.isRemoved=false → htrieIdx r.key bits≠k0 → st.nb (htrieIdx r.key bits)=none) :
    NbSingle recLen st' ∧ Lost r r' ∧ Fresh (nbIds st) (nbIds st') st.alloc st'.alloc ∧
      ∀k,k=k0 ∨ r.isRemoved=true ∨ k≠htrieIdx r.key bits → st'.nb k=st.nb k := by
  unfold moveRec at h
  by_cases hsk : (r.isRemoved || !r.live)=true
  · rw [if_pos hsk] at h
    cases h
    exact ⟨hn,Lost.refl r,Fresh.refl _ rfl,fun _ _ => rfl⟩
  · rw [if_neg hsk] at h
    have hin : r.isRemoved=false := by
      cases hr : r.isRemoved with
      | false => rfl
      | true => simp [hr] at hsk
    by_cases hk : htrieIdx r.key bits=k0
    · simp only [if_pos hk] at h
      cases h
      exact ⟨hn,Lost.refl r,Fresh.refl _ rfl,fun _ _ => rfl⟩
    · simp only [if_neg hk,hf hin hk] at h
      obtain ⟨r1,hp,h⟩ := bind_eq_ok.1 h
      cases h
      refine ⟨?_,lost_removePut hp,?_,?_⟩
      · intro k b off hkb
        by_cases heq : k=htrieIdx r.key bits
        · subst heq
          simp only [Function.update_self] at hkb
          cases hkb
          exact single_newBucket _ _
        · simp only [Function.update_of_ne heq] at hkb
          exact hn k b off hkb
      · have hs := sum_update nbId st.nb (htrieIdx r.key bits)
          (some ((newBucket recLen (createRec bid r.key r.data) st.alloc).1,1))
        rw [hf hin hk,nbId,add_zero] at hs
        unfold nbIds
        rw [hs,add_comm]
        exact Fresh.new _ _ rfl
      · intro k hc
        have hne : k≠htrieIdx r.key bits := by
          obtain rfl | hr | hne := hc
          · exact fun heq => hk heq.symm
          · rw [hin] at hr
            cases hr
          · exact hne
        exact Function.update_of_ne hne _ _

lemma Fresh.trans {t u : Multiset Nat} {b c : Alloc} (h : Fresh s t a b) (h' : Fresh t u b c) : Fresh s u a c := by
  unfold Fresh at *
  refine add_right_cancel (b := Multiset.range b.bckts) ?_
  rw [add_right_comm,h',add_right_comm,h,add_right_comm]

lemma moveRecs_back (h : moveRecs recLen bid k0 bits recs st=.ok (st',recs')) (hn : NbSingle recLen st)
    (hf : ∀r∈recs,r.isRemoved=false → htrieIdx r.key bits≠k0 → st.nb (htrieIdx r.key bits)=none)
    (hp : ((recs.filter fun r => !r.isRemoved).map key).Pairwise fun k k' =>
      htrieIdx k bits=htrieIdx k' bits → htrieIdx k bits=k0) :
    NbSingle recLen st' ∧ List.Forall₂ Lost recs recs' ∧ Fresh (nbIds st) (nbIds st') st.alloc st'.alloc ∧
      st'.nb k0=st.nb k0 := by
  induction recs generalizing st recs' with
  | nil =>
    cases h
    exact ⟨hn,.nil,Fresh.refl _ rfl,rfl⟩
  | cons r recs ih =>
    rw [moveRecs] at h
    obtain ⟨⟨st1,r1⟩,hmo,h⟩ := bind_eq_ok.1 h
    obtain ⟨⟨st2,rest⟩,hre,h⟩ := bind_eq_ok.1 h
    cases h
    obtain ⟨hn1,hls,hfs,hs⟩ := moveRec_back hmo hn (hf r (.head _))
    have hf1 : ∀r'∈recs,r'.isRemoved=false → htrieIdx r'.key bits≠k0 → st1.nb (htrieIdx r'.key bits)=none := by
      intro r' hr' hin' hk'
      rw [hs]
      · exact hf r' (.tail _ hr') hin' hk'
      · cases hr : r.isRemoved with
        | true => exact .inr (.inl rfl)
        | false =>
          refine .inr (.inr fun heq => hk' ?_)
          rw [filter_cons_of_pos (by simp [hr]),map_cons] at hp
          have hm : r'.key∈(recs.filter fun r => !r.isRemoved).map key :=
            mem_map_of_mem (mem_filter.2 ⟨hr',by simp [hin']⟩)
          rw [heq]
          exact rel_of_pairwise_cons hp hm heq.symm
    have hp1 : ((recs.filter fun r => !r.isRemoved).map key).Pairwise fun k k' =>
        htrieIdx k bits=htrieIdx k' bits → htrieIdx k bits=k0 :=
      hp.sublist (List.Sublist.map _ (List.Sublist.filter _ (sublist_cons_self r recs)))
    obtain ⟨hn2,hl,hf2,hk0⟩ := ih hre hn1 hf1 hp1
    exact ⟨hn2,.cons hls hl,hfs.trans hf2,hk0.trans (hs k0 (.inl rfl))⟩

def Shift.ids (sh : Shift D) : Multiset Nat := Tdb.ids sh.bckts

def LeafSafe (recLen : Nat) (sh : Shift D) : Prop :=
  sh=.none ∨ ∃b,sh=.bckt b [] ∧ BackBckt recLen b ∧ chainSafe recLen b []=true

lemma Single.leafSafe (h : Single recLen b) : LeafSafe recLen (.bckt b []) := by
  refine .inr ⟨b,rfl,h.back,?_⟩
  cases hd : b.first with
  | none =>
    unfold chainSafe
    rw [hd]
    rfl
  | some d => exact (chainSafe_iff hd).2 (.inr ⟨by simp,spread_of_nil (h.alone d hd)⟩)

/-- The entry of the new index node for an entry of `nb` -/
def nbShift : Option (TdbBucket D×Nat) → Shift D
  | none => .none
  | some (b,_) => .bckt b []

lemma htrieBurst_eq_ok {id : Nat} {frec : TdbFRec D} {rest : List (TdbFRec D)} (hd : b.first=some ⟨id,frec::rest⟩)
    (h : htrieBurst recLen beyond b bits a=.ok (shifts,a')) :
    ∃st moved,moveRecs recLen b.id (htrieIdx frec.key bits) bits (rest.take (burstCount recLen-1))
        ⟨fun _ => none,a⟩=.ok (st,moved) ∧ a'=st.alloc ∧ ∀i,shifts i=if i=htrieIdx frec.key bits then
          .bckt ⟨b.id,if frec.isRemoved then none else some ⟨id,frec::(moved++rest.drop (burstCount recLen-1))⟩⟩ []
        else nbShift (st.nb i) := by
  unfold htrieBurst at h
  rw [hd] at h
  obtain ⟨⟨st,moved⟩,hm,h⟩ := bind_eq_ok.1 h
  refine ⟨st,moved,hm,?_⟩
  by_cases he : (((rest.drop (burstCount recLen-1)).any fun r => !r.isRemoved) || beyond id bits)=true
  · have h := (if_pos he).symm.trans h
    obtain ⟨rfl,rfl⟩ := Prod.mk.inj (Except.ok.inj h)
    refine ⟨rfl,fun i => ?_⟩
    by_cases hi : i=htrieIdx frec.key bits
    · exact (if_pos hi).trans (if_pos hi).symm
    · refine (if_neg hi).trans (Eq.trans ?_ (if_neg hi).symm)
      cases st.nb i with
      | none => rfl
      | some e => rfl
  · have h := (if_neg he).symm.trans h
    cases h

lemma htrieBurst_back {rem : Nat} (h : htrieBurst recLen beyond b (bitsAt rem) a=.ok (shifts,a'))
    (hr : rem<16) (hd : b.first=some d) (hb : BackBckt recLen b) (hsp : spread d=true) :
    (∀i,LeafSafe recLen (shifts i)) ∧ Fresh {b.id} (∑ i,(shifts i).ids) a a' := by
  have hre := hb d hd
  obtain ⟨id,recs⟩ := d
  cases recs with
  | nil =>
    have hp := roomCount_pos recLen
    rw [← hre.length] at hp
    cases hp
  | cons frec rest =>
    obtain ⟨st,moved,hm,rfl,hs⟩ := htrieBurst_eq_ok hd h
    have hpa : (((rest.take (burstCount recLen-1)).filter fun r => !r.isRemoved).map key).Pairwise
        fun k k' => htrieIdx k (bitsAt rem)=htrieIdx k' (bitsAt rem) →
          htrieIdx k (bitsAt rem)=htrieIdx frec.key (bitsAt rem) := by
      have hal := of_decide_eq_true hsp
      refine (hal.imp fun hap heq => ?_).sublist (List.Sublist.map _ (List.Sublist.filter _ (take_sublist _ rest)))
      have hr' := all_eq_true.1 hap rem (mem_range.2 hr)
      simpa [heq,bucketKey] using hr'
    obtain ⟨hnb,hls,hf,hno⟩ := moveRecs_back hm (fun k b off hk => by cases hk) (fun _ _ _ _ => rfl) hpa
    have hl : List.Forall₂ Lost (frec::rest) (frec::(moved++rest.drop (burstCount recLen-1))) := by
      have ha := rel_append hls (lost_refl (rest.drop (burstCount recLen-1)))
      simp only [take_append_drop] at ha
      exact .cons (Lost.refl frec) ha
    refine ⟨fun i => ?_,?_⟩
    · rw [hs i]
      by_cases hi : i=htrieIdx frec.key (bitsAt rem)
      · rw [if_pos hi]
        cases frec.isRemoved with
        | true =>
          refine .inr ⟨_,rfl,fun d' hd' => ?_,rfl⟩
          cases hd'
        | false =>
          refine .inr ⟨_,rfl,fun d' hd' => ?_,?_⟩
          · cases hd'
            exact hre.lost hl
          · refine (chainSafe_iff rfl).2 (.inr ⟨by simp,?_⟩)
            exact spread_mono hsp (keys_lost (forall₂_cons.1 hl).2) rfl
      · rw [if_neg hi]
        cases hn : st.nb i with
        | none => exact .inl rfl
        | some e => exact (hnb i e.1 e.2 hn).leafSafe
    · have he : ∀i,(shifts i).ids=(if i=htrieIdx frec.key (bitsAt rem) then {b.id} else 0)+nbId (st.nb i) := by
        intro i
        rw [hs i]
        by_cases hi : i=htrieIdx frec.key (bitsAt rem)
        · rw [if_pos hi,if_pos hi,hi,hno,nbId,add_zero]
          rfl
        · rw [if_neg hi,if_neg hi,zero_add]
          cases st.nb i with
          | none => rfl
          | some e => rfl
      have h0 : nbIds (⟨fun _ => none,a⟩ : Burst D)=0 := Finset.sum_eq_zero fun _ _ => rfl
      have hf := hf.add {b.id}
      rw [h0,add_zero] at hf
      rw [Finset.sum_congr rfl fun i _ => he i,Finset.sum_add_distrib,Finset.sum_ite_eq',if_pos (Finset.mem_univ _)]
      exact hf
end VetWaf.Tdb
