import VetWaf.Tdb.Buckets

namespace VetWaf.Tdb
open Finset List Function Outcome

lemma sum_update {ι α M : Type*} [Fintype ι] [DecidableEq ι] [AddCommMonoid M] (f : α → M) (g : ι → α) (i : ι)
    (v : α) : ∑ k,f (Function.update g i v k)+f (g i) = ∑ k,f (g k)+f v := by
  rw [← add_sum_erase _ _ (mem_univ i),← add_sum_erase _ (fun k => f (g k)) (mem_univ i),update_self]
  have hr : ∀k∈univ.erase i,f (Function.update g i v k)=f (g k) := by
    intro k hk
    rw [update_of_ne (ne_of_mem_erase hk)]
  rw [sum_congr rfl hr,add_comm (f v),add_comm (f (g i)),add_right_comm]

variable {D : Type} {recLen : Nat}
lemma small_of_room (h : 1<roomCount recLen) : recordsAreLarge recLen=false := by
  cases hl : recordsAreLarge recLen with
  | false => rfl
  | true =>
    rw [roomCount,smallCount_of_large hl] at h
    cases h with
    | step h => cases h

/-- The bag of an entry of `nb` -/
def nbEntry : Option (TdbBucket D×Nat) → Multiset (Nat×D)
  | none => 0
  | some (b,_) => bucketBag b

def nbBag (st : Burst D) : Multiset (Nat×D) := ∑ k,nbEntry (st.nb k)

/-- The new buckets after `m` turns. -/
def Moved (recLen : Nat) (users : Bool) (P : Fin 16 → Nat → Prop) (m : Nat) (st : Burst D) : Prop :=
  ∀k b off,st.nb k=some (b,off) → ∃blk,b.first=some blk ∧ BlkOk recLen users b.id (P k) blk.recs ∧ off ≤ m ∧
    ∀j r,off≤j → blk.recs[j]?=some r → r.isRemoved=true

variable {users : Bool} {P : Fin 16 → Nat → Prop} {m : Nat} {st : Burst D} {r : TdbFRec D} {bid bits : Nat}
variable {b : TdbBucket D} {blk : DataBlk D}
lemma Moved.update (h : Moved recLen users P m st) {k : Fin 16} {off : Nat}
    (hf : b.first=some blk) (hok : BlkOk recLen users b.id (P k) blk.recs) (ho : off ≤ m+1)
    (hfr : ∀j r,off≤j → blk.recs[j]?=some r → r.isRemoved=true) (a : Alloc) :
    Moved recLen users P (m+1) ⟨Function.update st.nb k (some (b,off)),a⟩ := by
  intro k' b' off' hn
  by_cases hk : k'=k
  · subst hk
    simp only [update_self] at hn
    cases hn
    exact ⟨blk,hf,hok,ho,hfr⟩
  · simp only [update_of_ne hk] at hn
    obtain ⟨blk',hf',hok',ho',hfr'⟩ := h k' b' off' hn
    exact ⟨blk',hf',hok',by omega,hfr'⟩

variable [Inhabited D]
lemma Moved.moveRec (h : Moved recLen users P m st) (k0 : Fin 16) (hm : m+1<roomCount recLen)
    (hsl : Slot recLen users bid r) (hP : r.isRemoved=false → htrieIdx r.key bits≠k0 → P (htrieIdx r.key bits) r.key) :
    ∃st' r',moveRec recLen bid k0 bits st r=.ok (st',r') ∧ Moved recLen users P (m+1) st' ∧
      Slot recLen users bid r' ∧ (r'.isRemoved=false → r'=r ∧ htrieIdx r.key bits=k0) ∧
      nbBag st'+entryBag r'=nbBag st+entryBag r := by
  have hla : recordsAreLarge recLen=false := small_of_room (by omega)
  have hmo : Moved recLen users P (m+1) st := by
    intro k b off hnb
    obtain ⟨blk,hf,hok,ho,hfr⟩ := h k b off hnb
    exact ⟨blk,hf,hok,by omega,hfr⟩
  unfold Tdb.moveRec
  have hgo : ∀ {q : TdbFRec D} {k : Fin 16},q.isRemoved=true → q.isRemoved=false → q=r ∧ k=k0 := by
    intro q k hr hin
    rw [hr] at hin
    cases hin
  obtain hr | hli := hsl
  · refine ⟨st,r,if_pos ?_,hmo,.inl hr,hgo hr.1,rfl⟩
    simp [hr.1]
  · have hin : ¬(r.isRemoved || !r.live)=true := by simp [TdbFRec.live,hli.isRemoved,hli.key_ne]
    rw [if_neg hin]
    by_cases hk : htrieIdx r.key bits=k0
    · simp only [if_pos hk]
      exact ⟨st,r,rfl,hmo,.inr hli,fun _ => ⟨rfl,hk⟩,rfl⟩
    · simp only [if_neg hk]
      have hke := hP hli.isRemoved hk
      generalize htrieIdx r.key bits=k at hk hke
      obtain ⟨r',hp,hr⟩ := hli.removePut
      have hn : NewKey recLen users (P k) (createRec bid r.key r.data) :=
        newKey_create goodRefs_one hli.key_ne hli.key_lt hke bid r.data
      have hs := sum_update nbEntry st.nb k
      cases hnb : st.nb k with
      | none =>
        obtain ⟨hok,hbag⟩ := hn.newBucket st.alloc
        generalize hb : newBucket recLen (createRec bid r.key r.data) st.alloc=nb at hok hbag
        obtain ⟨b,a⟩ := nb
        have hf : b.first=some ⟨st.alloc.datas,(replicate (roomCount recLen) default).set 0
            (createRec st.alloc.bckts r.key r.data)⟩ := by
          cases hb
          rfl
        simp only [hp,ok_bind]
        refine ⟨_,r',rfl,?_,.inl hr,hgo hr.1,?_⟩
        · refine h.update hf (hok _ hf) (by omega) (fun j q hj hq => ?_) a
          rw [getElem?_set_ne (by omega)] at hq
          rw [eq_of_mem_replicate (mem_of_getElem? hq)]
          rfl
        · have hba := hs (some (b,1))
          rw [hnb,nbEntry,add_zero] at hba
          rw [nbBag,hba,entryBag_of_removed hr.1,add_zero,entryBag_of_live hli.isRemoved]
          exact congrArg (nbBag st + ·) hbag
      | some nbk =>
        obtain ⟨b,off⟩ := nbk
        obtain ⟨blk,hf,hok,ho,hfr⟩ := h k b off hnb
        have hlt : off<blk.recs.length := by
          rw [hok.length]
          omega
        have hb : BucketOk recLen users (P k) b := fun blk' hb' => by
          rw [hf] at hb'
          cases hb'
          exact hok
        have hre : NewRec recLen users b.id (P k) (createRec bid r.key r.data) :=
          ⟨⟨hli.key_ne,hli.key_lt,rfl,fun hl => (by rw [hla] at hl; cases hl),rfl,Nat.one_pos,fun _ => rfl⟩,hke⟩
        have hg := getElem?_eq_getElem hlt
        obtain ⟨hok',hbag⟩ := hb.setRec hf hg (hfr off _ le_rfl hg) hre
        have hf' : (b.setRec off (createRec bid r.key r.data)).first =
            some {blk with recs:=blk.recs.set off (createRec bid r.key r.data)} := by
          rw [TdbBucket.setRec,hf]
          rfl
        simp only [hp,ok_bind]
        refine ⟨_,r',rfl,?_,.inl hr,hgo hr.1,?_⟩
        · refine h.update hf' (hok' _ hf') (by omega) (fun j q hj hq => ?_) _
          rw [getElem?_set_ne (by omega)] at hq
          exact hfr j q (by omega) hq
        · have hba := hs (some (b.setRec off (createRec bid r.key r.data),off+1))
          rw [hnb,nbEntry,nbEntry,hbag] at hba
          rw [entryBag_of_removed hr.1,add_zero,entryBag_of_live hli.isRemoved]
          refine add_right_cancel (hba.trans ?_)
          rw [← add_assoc]
          rfl

lemma Moved.moveRecs (h : Moved recLen users P m st) (k0 : Fin 16) {recs : List (TdbFRec D)}
    (hm : m+recs.length<roomCount recLen) (hs : ∀r∈recs,Slot recLen users bid r)
    (hP : ∀r∈recs,r.isRemoved=false → htrieIdx r.key bits≠k0 → P (htrieIdx r.key bits) r.key) :
    ∃st' recs',moveRecs recLen bid k0 bits recs st=.ok (st',recs') ∧
      Moved recLen users P (m+recs.length) st' ∧ recs'.length=recs.length ∧ (∀r∈recs',Slot recLen users bid r) ∧
      (∀r∈recs',r.isRemoved=false → r∈recs ∧ htrieIdx r.key bits=k0) ∧
      nbBag st'+recsBag recs'=nbBag st+recsBag recs := by
  induction recs generalizing m st with
  | nil => exact ⟨st,[],rfl,h,rfl,by simp,by simp,rfl⟩
  | cons r recs ih =>
    rw [length_cons] at hm
    obtain ⟨st1,r',hmv,hmo,hr',hkey,hb⟩ := h.moveRec k0 (by omega) (hs r (.head _)) (hP r (.head _))
    obtain ⟨st2,recs',hr,hm',hl,hst,hke,hba⟩ := ih hmo (by omega)
      (fun q hq => hs q (.tail _ hq)) (fun q hq => hP q (.tail _ hq))
    refine ⟨st2,r'::recs',?_,?_,?_,?_,?_,?_⟩
    · simp only [Tdb.moveRecs,hmv,hr,ok_bind]
    · rw [length_cons,add_comm recs.length 1,← add_assoc]
      exact hm'
    · rw [length_cons,length_cons,hl]
    · intro q hq
      obtain rfl | hq := mem_cons.1 hq
      · exact hr'
      · exact hst q hq
    · intro q hq hne
      obtain rfl | hq := mem_cons.1 hq
      · obtain ⟨rfl,hk⟩ := hkey hne
        exact ⟨.head _,hk⟩
      · exact (hke q hq hne).imp_left (mem_cons_of_mem _)
    · rw [recsBag_cons,recsBag_cons,add_left_comm,hba,add_left_comm,← add_assoc,hb,add_assoc]

def leafBag : Shift D → Multiset (Nat×D)
  | .bckt b [] => bucketBag b
  | _ => 0

/-- An entry that is empty or has one bucket with keys as `P` says -/
def LeafOk (recLen : Nat) (users : Bool) (P : Nat → Prop) (sh : Shift D) : Prop :=
  sh=.none ∨ ∃b,sh=.bckt b [] ∧ BucketOk recLen users P b

lemma BucketOk.htrieBurst {Q : Nat → Prop} (h : BucketOk recLen users Q b) (hl : GoodLen recLen) (hf : b.first=some blk)
    (hh : (blk.recs.headD default).isRemoved=false) {beyond : Nat → Nat → Bool}
    (hbe : ∀id bits,beyond id bits=true) (bits : Nat) (a : Alloc) : ∃shifts a',
      htrieBurst recLen beyond b bits a=.ok (shifts,a') ∧
      (∀i,LeafOk recLen users (fun k => Q k ∧ htrieIdx k bits=i) (shifts i)) ∧ ∑ i,leafBag (shifts i)=bucketBag b := by
  obtain ⟨hln,hs,hkey,-⟩ := h blk hf
  unfold Tdb.htrieBurst
  obtain ⟨id,recs⟩ := blk
  cases recs with
  | nil => cases hh
  | cons frec rest =>
    obtain ⟨ht,hd⟩ := hl.take_burst hln
    have hre : ∀r∈rest,r∈frec::rest := fun r hr => .tail _ hr
    have hsr : Moved (D := D) recLen users (fun i k => i≠htrieIdx frec.key bits ∧ Q k ∧ htrieIdx k bits=i) 0
        ⟨fun _ => none,a⟩ := by
      intro k b off hn
      cases hn
    obtain ⟨st,moved,hmv,hm,hl',hst,hke,hb⟩ := hsr.moveRecs (htrieIdx frec.key bits)
      (by rw [zero_add]; exact Nat.lt_of_succ_le (le_of_eq hln)) (fun r hr => hs r (hre r hr))
      (fun r hr hne hk => ⟨hk,hkey r (hre r hr) hne,rfl⟩)
    have hin : frec.isRemoved=false := hh
    simp only [hf,headD_cons,tail_cons,ht,hd,hmv,ok_bind,hbe,hin,
      Bool.or_true,if_true,append_nil,Bool.false_eq_true,if_false]
    have hbl : BlkOk recLen users b.id (fun k => Q k ∧ htrieIdx k bits=htrieIdx frec.key bits) (frec::moved) := by
      refine ⟨by rw [length_cons,hl']; exact hln,?_,?_,⟨frec,.head _,hh⟩,?_⟩
      · intro r hr
        obtain rfl | hr := mem_cons.1 hr
        · exact hs r (.head _)
        · exact hst r hr
      · intro r hr hne
        obtain rfl | hr := mem_cons.1 hr
        · exact ⟨hkey r (.head _) hne,rfl⟩
        · obtain ⟨hr',hidx⟩ := hke r hr hne
          exact ⟨hkey r (hre r hr') hne,hidx⟩
      · intro _ r rest heq
        cases heq
        exact hh
    refine ⟨_,st.alloc,rfl,fun i => ?_,?_⟩
    · by_cases hi : i=htrieIdx frec.key bits
      · subst hi
        rw [if_pos rfl]
        refine .inr ⟨_,rfl,fun blk' hb' => ?_⟩
        cases hb'
        exact hbl
      · rw [if_neg hi]
        cases hn : st.nb i with
        | none => exact .inl rfl
        | some e =>
          refine .inr ⟨e.1,rfl,fun blk' hb' => ?_⟩
          obtain ⟨blk'',hf',hok,-⟩ := hm i e.1 e.2 hn
          rw [hf'] at hb'
          cases hb'
          exact ⟨hok.length,hok.slot,fun r hr hne => (hok.key r hr hne).2,hok.alive,hok.head⟩
    · have hno : st.nb (htrieIdx frec.key bits)=none := by
        cases hn : st.nb (htrieIdx frec.key bits) with
        | none => rfl
        | some e =>
          obtain ⟨blk',-,hok,-⟩ := hm _ e.1 e.2 hn
          obtain ⟨r,hr,hne⟩ := hok.alive
          exact absurd rfl (hok.key r hr hne).1
      -- the bag of an entry: what stayed, if it is the first record's, and what was moved to it
      refine (sum_congr (g := fun i => (if i=htrieIdx frec.key bits then recsBag (frec::moved) else 0) +
        nbEntry (st.nb i)) rfl fun i _ => ?_).trans ?_
      · by_cases hi : i=htrieIdx frec.key bits
        · simp only [if_pos hi]
          rw [hi,hno,nbEntry,add_zero]
          rfl
        · simp only [if_neg hi,zero_add]
          cases st.nb i with
          | none => rfl
          | some e => rfl
      · have h0 : nbBag (⟨fun _ => none,a⟩ : Burst D)=0 := sum_eq_zero fun _ _ => rfl
        rw [h0,zero_add] at hb
        rw [sum_add_distrib,sum_ite_eq',if_pos (mem_univ _),bucketBag_of_some hf,
          recsBag_cons,recsBag_cons,add_assoc,add_comm (recsBag moved)]
        exact congrArg (entryBag frec + ·) hb
end VetWaf.Tdb
