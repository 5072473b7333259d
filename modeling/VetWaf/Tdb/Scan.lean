import VetWaf.Tdb.Multimap

namespace VetWaf.Tdb
open List Outcome Nat
variable {D : Type} {recLen rem key : Nat} {users : Bool} {P : Nat → Prop}
lemma ShiftOk.descend {sh : Shift D} (h : ShiftOk recLen users rem P sh) (hrem : rem≤16) (ha : Agree rem P)
    (hP : P key) (hlt : key<2^64) : ∃chain Q,descend key rem sh=.ok chain ∧ (∀b∈chain,BucketOk recLen users Q b) ∧
      (∀b∈chain.tail,BucketOk recLen users (· = key) b) ∧
      (shiftBag sh).filter (fun e => e.1=key)=(chainBag chain).filter (fun e => e.1=key) := by
  induction sh generalizing rem P with
  | none => exact ⟨[],P,by rw [Tdb.descend],by simp,by simp,rfl⟩
  | bckt b coll =>
    obtain ⟨hb,hc⟩ := shiftOk_bckt.1 h
    refine ⟨b::coll,P,by rw [Tdb.descend],hb,?_,rfl⟩
    rw [tail_cons]
    cases rem with
    | zero =>
      intro b' hb' blk hbl
      obtain ⟨hl,hs,hk,hal,hh⟩ := hb b' (.tail _ hb') blk hbl
      refine ⟨hl,hs,?_,hal,hh⟩
      intro r hr hin
      exact ha.eq (hk r hr hin) hP ((hs r hr).live hin).key_lt hlt
    | succ rem =>
      rw [hc (succ_ne_zero rem)]
      simp
  | index shifts ih =>
    cases rem with
    | zero => exact h.elim
    | succ rem =>
      obtain ⟨chain,Q,hd,hok,ht,hba⟩ :=
        ih (htrieIdx key (bitsAt (rem+1))) (h _) (by omega) (ha.below (by omega) _) ⟨hP,rfl⟩
      refine ⟨chain,Q,by rw [Tdb.descend,hd],hok,ht,?_⟩
      have hre : (∑ k∈Finset.univ.erase (htrieIdx key (bitsAt (rem+1))),shiftBag (shifts k)).filter
          (fun e => e.1=key)=0 := by
        refine Multiset.filter_eq_nil.2 fun e he heq => ?_
        exact h.not_mem_rest he (by rw [heq])
      rw [shiftBag_split shifts (htrieIdx key (bitsAt (rem+1))),Multiset.filter_add,hre,add_zero,hba]

def matching (key : Nat) (r : TdbFRec D) : Bool := !r.isRemoved && r.key == key

def blkRecs (b : TdbBucket D) : List (TdbFRec D) :=
  match b.first with
  | none => []
  | some blk => blk.recs

def chainRecs (key : Nat) (chain : List (TdbBucket D)) : List (TdbFRec D) :=
  chain.flatMap fun b => (blkRecs b).filter (matching key)

lemma chainRecs_cons (key : Nat) (b : TdbBucket D) (chain : List (TdbBucket D)) :
    chainRecs key (b::chain)=(blkRecs b).filter (matching key)++chainRecs key chain := flatMap_cons ..

variable {j : Nat} {dbh : TdbHdr D} {beyond : Nat → Nat → Bool}
lemma filter_drop_first {α : Type} {l : List α} {p : α → Bool} {i : Nat} (hij : i≤j) (hj : j<l.length)
    (hp : p l[j]=true) (hb : ∀k (hk : k<l.length),i≤k → k<j → p l[k]=false) :
    (l.drop i).filter p=l[j]::(l.drop (j+1)).filter p := by
  induction hij using decreasingInduction with
  | self => rw [drop_eq_getElem_cons hj,filter_cons_of_pos hp]
  | of_succ i hi ih =>
    have hlt : i<l.length := by omega
    rw [drop_eq_getElem_cons hlt,filter_cons_of_neg (by simp [hb i hlt (le_refl i) (by omega)])]
    exact ih fun k hk hik hkj => hb k hk (by omega) hkj

lemma Slot.matching_complete {bid : Nat} {r : TdbFRec D} (h : Slot recLen users bid r) :
    (!r.isRemoved && r.complete && r.key == key)=matching key r := by
  unfold matching
  obtain hr | hl := h
  · rw [hr.1]
    rfl
  · rw [hl.complete,Bool.and_true]

lemma length_chainRecs {chain : List (TdbBucket D)} (hok : ∀b∈chain,BucketOk recLen users P b) :
    (chainRecs key chain).length≤chain.length*roomCount recLen := by
  induction chain with
  | nil => exact zero_le
  | cons b chain ih =>
    have hl : ((blkRecs b).filter (matching key)).length≤roomCount recLen := by
      refine Nat.le_trans (length_filter_le ..) ?_
      unfold blkRecs
      cases hf : b.first with
      | none => exact zero_le
      | some blk => exact Nat.le_of_eq (hok b (.head _) blk hf).length
    rw [chainRecs_cons,length_append,length_cons,Nat.succ_mul,Nat.add_comm]
    exact Nat.add_le_add (ih fun b' hb' => hok b' (.tail _ hb')) hl

def TdbFRec.entry (r : TdbFRec D) : Nat×D := (r.key,r.data)

lemma recsBag_matching (key : Nat) (recs : List (TdbFRec D)) :
    (((recs.filter (matching key)).map TdbFRec.entry : List (Nat×D)) : Multiset (Nat×D)) =
      (recsBag recs).filter (fun e => e.1=key) := by
  induction recs with
  | nil => rfl
  | cons r recs ih =>
    rw [recsBag_cons,Multiset.filter_add,← ih]
    cases hin : r.isRemoved with
    | true =>
      have hm : ¬matching key r=true := by simp [matching,hin]
      rw [filter_cons_of_neg hm,entryBag_of_removed hin,Multiset.filter_zero,zero_add]
    | false =>
      rw [entryBag_of_live hin,Multiset.filter_singleton]
      by_cases hk : r.key=key
      · have hm : matching key r=true := by simp [matching,hin,hk]
        rw [filter_cons_of_pos hm,if_pos hk]
        rfl
      · have hm : ¬matching key r=true := by simp [matching,hk]
        rw [filter_cons_of_neg hm,if_neg hk]
        exact (zero_add _).symm

lemma chainBag_matching (key : Nat) (chain : List (TdbBucket D)) :
    (((chainRecs key chain).map TdbFRec.entry : List (Nat×D)) : Multiset (Nat×D)) =
      (chainBag chain).filter (fun e => e.1=key) := by
  induction chain with
  | nil => rfl
  | cons b chain ih =>
    rw [chainRecs_cons,chainBag_cons,Multiset.filter_add,map_append,← Multiset.coe_add,ih]
    refine congrArg (· + _) ?_
    unfold blkRecs bucketBag
    cases hf : b.first with
    | none => rfl
    | some blk => exact recsBag_matching key blk.recs

variable [Inhabited D] {b : TdbBucket D} {blk : DataBlk D}
lemma getRec_of_lt (hf : b.first=some blk) (hj : j<blk.recs.length) : b.getRec j=blk.recs[j] := by
  rw [TdbBucket.getRec,hf]
  exact getD_eq_getElem _ _ hj

lemma nextInBlk_spec (hb : BucketOk recLen users P b) (hl : GoodLen recLen) (hf : b.first=some blk) (key j : Nat) :
    (nextInBlk recLen key b j=none ∧ (blk.recs.drop (j+1)).filter (matching key)=[]) ∨
      ∃i,nextInBlk recLen key b j=some i ∧ i<blk.recs.length ∧ (blk.recs.drop (j+1)).filter (matching key) =
          b.getRec i::(blk.recs.drop (i+1)).filter (matching key) := by
  have hln := (hb blk hf).length
  unfold nextInBlk
  cases hla : recordsAreLarge recLen with
  | true =>
    -- a large record is alone in its block
    refine .inl ⟨?_,?_⟩
    · rw [smallCount_of_large hla]
      exact ite_self none
    · rw [roomCount,smallCount_of_large hla] at hln
      rw [drop_of_length_le (by omega)]
      rfl
  | false =>
    rw [hl.roomCount_eq hla] at hln
    have hmi : ¬mindrec≤recLen := fun hle => by
      rw [large_of_ge hle] at hla
      cases hla
    rw [if_neg hmi,← hln,find?_filter]
    cases hfn : List.find? (fun i => decide (decide (j < i)=true ∧
        (!(b.getRec i).isRemoved && (b.getRec i).key == key)=true)) (List.range blk.recs.length) with
    | none =>
      refine .inl ⟨rfl,filter_eq_nil_iff.2 fun r hr => ?_⟩
      obtain ⟨i,hi,rfl⟩ := mem_drop_iff_getElem.1 hr
      rw [add_comm] at hi
      have hn := find?_eq_none.1 hfn (j+1+i) (mem_range.2 hi)
      rw [getRec_of_lt hf hi] at hn
      intro hma
      exact hn (decide_eq_true ⟨decide_eq_true (by omega),hma⟩)
    | some i =>
      obtain ⟨hi,hra,hbe⟩ := find?_range_eq_some.1 hfn
      have hlt := mem_range.1 hra
      obtain ⟨hj,hma⟩ := of_decide_eq_true hi
      rw [getRec_of_lt hf hlt] at hma
      refine .inr ⟨i,rfl,hlt,?_⟩
      rw [getRec_of_lt hf hlt]
      refine filter_drop_first (of_decide_eq_true hj) hlt hma fun k hk hjk hki => ?_
      have hn := hbe k hki
      rw [getRec_of_lt hf hk,Bool.not_eq_true',decide_eq_false_iff_not] at hn
      cases hm : matching key blk.recs[k] with
      | false => rfl
      | true => exact absurd ⟨decide_eq_true (by omega),hm⟩ hn

variable {chain : List (TdbBucket D)}
def Position.behind (key : Nat) (p : Position D) : List (TdbFRec D) :=
  ((blkRecs p.bckt).drop (p.slot+1)).filter (matching key)++chainRecs key p.rest

def Headed (recLen : Nat) (users : Bool) (key : Nat) (chain : List (TdbBucket D)) : Prop :=
  ∀b∈chain,BucketOk recLen users (· = key) b ∧ ∀blk,b.first=some blk → (b.getRec 0).isRemoved=false

/-- What a scan does next. -/
def NextIs (recLen : Nat) (users : Bool) (key : Nat) (left : List (TdbFRec D)) (q : Option (Position D)) : Prop :=
  match q with
  | none => left=[]
  | some q => left=q.bckt.getRec q.slot::q.behind key ∧ (∃P,BucketOk recLen users P q.bckt) ∧
      q.bckt.first.isSome=true ∧ Headed recLen users key q.rest

lemma nextInChain_spec (h : Headed recLen users key chain) (addr : Nat → Nat) (fr : Option Nat) :
    ∃q,nextInChain recLen key addr fr chain=.ok q ∧ NextIs recLen users key (chainRecs key chain) q := by
  induction chain with
  | nil => exact ⟨none,rfl,rfl⟩
  | cons b chain ih =>
    obtain ⟨hb,hh⟩ := h b (.head _)
    have hr : Headed recLen users key chain := fun b' hb' => h b' (.tail _ hb')
    rw [chainRecs_cons,blkRecs,nextInChain]
    cases hf : b.first with
    | none => exact ih hr
    | some blk =>
      obtain ⟨hl,hsl,hke,-⟩ := hb blk hf
      have hp : 0<blk.recs.length := hl ▸ roomCount_pos recLen
      have hg := getRec_of_lt hf hp
      have hin := hh blk hf
      have hm : blk.recs[0]∈blk.recs := getElem_mem hp
      have hma : matching key (b.getRec 0)=true := by
        rw [hg] at hin ⊢
        rw [matching,hin,hke _ hm hin]
        simp
      have hc := hma
      rw [hg,← (hsl _ hm).matching_complete,← hg] at hc
      refine ⟨some ⟨b,chain,0⟩,if_pos hc,?_,⟨_,hb⟩,by rw [hf]; rfl,hr⟩
      have hs := filter_drop_first (p := matching key) (zero_le 0) hp (hg ▸ hma)
        (fun k _ _ hk => absurd hk (not_lt_zero k))
      rw [drop_zero] at hs
      rw [Position.behind,blkRecs,hf,← cons_append,hg]
      exact congrArg (· ++ chainRecs key chain) hs

lemma nextRec_spec (hl : GoodLen recLen) {p : Position D} (hb : BucketOk recLen users P p.bckt)
    (hf : p.bckt.first.isSome=true) (hrs : Headed recLen users key p.rest) (addr : Nat → Nat) :
    ∃q,nextRec recLen addr key p=.ok q ∧ NextIs recLen users key (p.behind key) q := by
  obtain ⟨blk,hbl⟩ := Option.isSome_iff_exists.1 hf
  have hr : blkRecs p.bckt=blk.recs := by rw [blkRecs,hbl]
  unfold nextRec Position.behind
  rw [hr]
  obtain ⟨hno,hn⟩ | ⟨i,hs,hi,hc⟩ := nextInBlk_spec hb hl hbl key p.slot
  · rw [hno,hn]
    exact nextInChain_spec hrs addr _
  · rw [hs,hc]
    refine ⟨some {p with slot:=i},rfl,?_,⟨P,hb⟩,hf,hrs⟩
    rw [Position.behind,hr,cons_append]

lemma iterate_spec (hl : GoodLen recLen) (addr : Nat → Nat) {n : Nat} {left : List (TdbFRec D)}
    {q : Option (Position D)} (h : NextIs recLen users key left q) (hn : left.length≤n) :
    iterate recLen addr key n q=.ok left := by
  induction n generalizing left q with
  | zero =>
    cases q with
    | none =>
      rw [show left=[] from h]
      rfl
    | some q =>
      rw [h.1] at hn
      cases hn
  | succ n ih =>
    cases q with
    | none =>
      rw [show left=[] from h]
      rfl
    | some q =>
      obtain ⟨hlf,⟨P,hb⟩,hf,hr⟩ := h
      obtain ⟨q',hnx,hq'⟩ := nextRec_spec hl hb hf hr addr
      rw [hlf,length_cons] at hn
      rw [iterate,hnx,ok_bind,ih hq' (by omega),hlf]
      rfl

lemma bscanForRec_spec (hok : ∀b∈chain,BucketOk recLen users P b) (hre : Headed recLen users key chain.tail) :
    NextIs recLen users key (chainRecs key chain) (bscanForRec recLen key chain) := by
  induction chain with
  | nil => exact rfl
  | cons b chain ih =>
    have hb := hok b (.head _)
    have hnx := ih (fun b' hb' => hok b' (.tail _ hb')) (fun b' hb' => hre b' (mem_of_mem_tail hb'))
    rw [chainRecs_cons,blkRecs,bscanForRec]
    cases hf : b.first with
    | none => exact hnx
    | some blk =>
      obtain ⟨hl,hs,-,-⟩ := hb blk hf
      rw [Option.bind_some,take_of_length_le (le_of_eq hl)]
      cases hfn : blk.recs.findIdx? fun r => !r.isRemoved && r.complete && r.key == key with
      | none =>
        have hn : blk.recs.filter (matching key)=[] := by
          refine filter_eq_nil_iff.2 fun r hr => ?_
          rw [← (hs r hr).matching_complete,findIdx?_eq_none_iff.1 hfn r hr]
          exact Bool.false_ne_true
        rw [hn]
        exact hnx
      | some j =>
        obtain ⟨hj,hm,hbe⟩ := findIdx?_eq_some_iff_getElem.1 hfn
        rw [(hs _ (getElem_mem hj)).matching_complete] at hm
        have hsp := filter_drop_first (zero_le j) hj hm (fun k hk _ hkj => by
          rw [← (hs _ (getElem_mem hk)).matching_complete]
          exact Bool.eq_false_iff.2 (hbe k hkj))
        rw [drop_zero] at hsp
        refine ⟨?_,⟨P,hb⟩,by rw [hf]; rfl,hre⟩
        rw [Position.behind,blkRecs,hf,← cons_append,getRec_of_lt hf hj]
        exact congrArg (· ++ chainRecs key chain) hsp

def firstsLive (dbh : TdbHdr D) (key : Nat) : Bool :=
  match htrieLookup dbh key with
  | .ok chain => chain.tail.all fun b => b.first.isNone || !(b.getRec 0).isRemoved
  | .error _ => false

lemma TableOk.lookup (h : TableOk recLen users dbh) (hlt : key<2^64)
    (hfir : users=false → firstsLive dbh key=true) : ∃chain,htrieLookup dbh key=.ok chain ∧
      NextIs recLen users key (chainRecs key chain) (bscanForRec recLen key chain) ∧
      (chainRecs key chain).length≤chain.length*roomCount recLen ∧
      (((chainRecs key chain).map TdbFRec.entry : List (Nat×D)) : Multiset (Nat×D)) =
        (tableBag dbh).filter (fun e => e.1=key) := by
  obtain ⟨chain,Q,hd,hok,ht,hba⟩ := ShiftOk.descend h (le_refl 16) agree_root trivial hlt
  have hlo : htrieLookup dbh key=.ok chain := by
    rw [Tdb.descend] at hd
    exact hd
  have hh : Headed recLen users key chain.tail := by
    intro b hb
    refine ⟨ht b hb,fun blk hbl => ?_⟩
    cases users with
    | true =>
      obtain ⟨hl,-,-,-,hhe⟩ := ht b hb blk hbl
      have hp : 0<blk.recs.length := hl ▸ roomCount_pos recLen
      rw [getRec_of_lt hbl hp]
      exact hhe rfl _ _ (getElem_cons_drop hp).symm
    | false =>
      have hf := hfir rfl
      rw [firstsLive,hlo] at hf
      have hf := all_eq_true.1 hf b hb
      rwa [hbl,Option.isNone_some,Bool.false_or,Bool.not_eq_true'] at hf
  refine ⟨chain,hlo,bscanForRec_spec hok hh,length_chainRecs hok,?_⟩
  rw [chainBag_matching,tableBag,hba]

lemma TableOk.allRecs (h : TableOk recLen users dbh) (hl : GoodLen recLen)
    (hlt : key<2^64) (hf : users=false → firstsLive dbh key=true) (addr : Nat → Nat) :
    ∃recs,allRecs recLen addr dbh key=.ok recs ∧ ((recs.map TdbFRec.entry : List (Nat×D)) : Multiset (Nat×D)) =
        (tableBag dbh).filter (fun e => e.1=key) := by
  obtain ⟨chain,hlo,hn,hln,hb⟩ := h.lookup hlt hf
  refine ⟨chainRecs key chain,?_,hb⟩
  rw [Tdb.allRecs,hlo,ok_bind]
  exact iterate_spec hl addr hn hln

/-- A call that changes the table. -/
inductive TableOp (D : Type) where
  | insert (key : Nat) (data : D)
  | remove (key : Nat) (eq : Nat → D → Bool)

def TableOp.Valid : TableOp D → Prop
  | .insert key _ => key≠0 ∧ key<2^64
  | .remove key eq => ∀k d,eq k d=true → k=key

def tableStep (recLen : Nat) (beyond : Nat → Nat → Bool) (dbh : TdbHdr D) : TableOp D → Except TdbStop (TdbHdr D)
  | .insert key data => htrieInsert recLen beyond dbh key data
  | .remove key eq => htrieRemove recLen dbh key (eqOf eq)

def tableRun (recLen : Nat) (beyond : Nat → Nat → Bool) : TdbHdr D → List (TableOp D) → Except TdbStop (TdbHdr D)
  | dbh, [] => .ok dbh
  | dbh, op::ops => do
    let dbh ← tableStep recLen beyond dbh op
    tableRun recLen beyond dbh ops

def bagStep (bag : Multiset (Nat×D)) : TableOp D → Multiset (Nat×D)
  | .insert key data => {(key,data)}+bag
  | .remove _ eq => bag.filter fun e => eq e.1 e.2=false

lemma TableOk.step (h : TableOk recLen false dbh) (hl : GoodLen recLen)
    (hb : ∀id bits,beyond id bits=true) {op : TableOp D} (ho : op.Valid) :
    ∃dbh',tableStep recLen beyond dbh op=.ok dbh' ∧ TableOk recLen false dbh' ∧
      tableBag dbh'=bagStep (tableBag dbh) op := by
  cases op with
  | insert key data => exact h.insert hl hb ho.1 ho.2 data
  | remove key eq => exact h.remove hl ho

lemma TableOk.run (h : TableOk recLen false dbh) (hl : GoodLen recLen) (hbe : ∀id bits,beyond id bits=true)
    {ops : List (TableOp D)}
    (ho : ∀op∈ops,op.Valid) : ∃dbh',tableRun recLen beyond dbh ops=.ok dbh' ∧ TableOk recLen false dbh' ∧
      tableBag dbh'=ops.foldl bagStep (tableBag dbh) := by
  induction ops generalizing dbh with
  | nil => exact ⟨dbh,rfl,h,rfl⟩
  | cons op ops ih =>
    obtain ⟨dbh1,hst,hok,hb⟩ := h.step hl hbe (ho op (.head _))
    obtain ⟨dbh',hr,hok',hb'⟩ := ih hok fun op hop => ho op (.tail _ hop)
    refine ⟨dbh',?_,hok',?_⟩
    · rw [tableRun,hst,ok_bind,hr]
    · rw [hb',hb,foldl_cons]

/-- Every history succeeds, and after it a scan for a key gives exactly the records that were inserted under it and
not removed. -/
theorem table_is_multimap (hlen : GoodLen recLen) (beyond : Nat → Nat → Bool)
    (hbeyond : ∀id bits,beyond id bits=true) (ops : List (TableOp D)) (hops : ∀op∈ops,op.Valid) :
    ∃dbh,tableRun recLen beyond {} ops=.ok dbh ∧ ∀key addr,key≠0 → key<2^64 → firstsLive dbh key=true →
        ∃recs,allRecs recLen addr dbh key=.ok recs ∧ ((recs.map TdbFRec.entry : List (Nat×D)) : Multiset (Nat×D)) =
            (ops.foldl bagStep 0).filter (fun e => e.1=key) := by
  obtain ⟨dbh,hr,hok,hb⟩ := tableOk_empty.run hlen hbeyond hops
  rw [tableBag_empty] at hb
  refine ⟨dbh,hr,fun key addr _ hlt hf => ?_⟩
  rw [← hb]
  exact hok.allRecs hlen hlt (fun _ => hf) addr

def burstHistory : List (TableOp Nat) :=
  [.insert 0x1 1,.insert 0x11 2,.insert 0x11 3,.insert 0x21 4,.remove 0x11 fun k d => k == 0x11 && d == 3]

theorem table_is_multimap_burst :
    ∃dbh recs,tableRun 16 (fun _ _ => true) {} burstHistory=.ok dbh ∧ allRecs 16 id dbh 0x11=.ok recs ∧
      ((recs.map TdbFRec.entry : List (Nat×Nat)) : Multiset (Nat×Nat))={(0x11,2)} := by
  have hl : GoodLen 16 := ⟨by decide,by decide,by decide⟩
  obtain ⟨dbh,hr,h⟩ := table_is_multimap hl (fun _ _ => true) (fun _ _ => rfl) burstHistory
    (by simp [burstHistory,TableOp.Valid])
  have hf : (do
      let dbh ← tableRun 16 (fun _ _ => true) {} burstHistory
      .ok (firstsLive dbh 0x11) : Except TdbStop Bool)=.ok true := by
    decide +kernel
  rw [hr,ok_bind] at hf
  obtain ⟨recs,hre,hb⟩ := h 0x11 id (by decide) (by decide) (Except.ok.inj hf)
  exact ⟨dbh,recs,hr,hre,hb.trans (by decide +kernel)⟩

def scanAfter (recLen : Nat) (ops : List (TableOp D)) (key : Nat) : Except TdbStop (List D) := do
  let dbh ← tableRun recLen (fun _ _ => true) {} ops
  let recs ← allRecs recLen id dbh key
  .ok (recs.map TdbFRec.data)

/-- With 40 bytes the second record of a block ends with the block. -/
theorem scan_loses_records : scanAfter 40 [.insert 0x1 1,.insert 0x11 2,.insert 0x21 3] 0x11=.ok [] ∧
      scanAfter 16 [.insert 0x11 2,.insert 0x11 5,.insert 0x11 6,.insert 0x11 7,.insert 0x11 8,
        .remove 0x11 fun k d => k == 0x11 && d == 7] 0x11=.ok [2,5,6] ∧
      scanAfter 112 [.insert 0x11 2,.insert 0x11 7,.remove 0x11 fun k d => k == 0x11 && d == 7] 0x11=.ok [] := by
  decide +kernel
end VetWaf.Tdb
