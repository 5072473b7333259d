import VetWaf.Tdb.Htrie

namespace VetWaf.Tdb
open List Option Outcome
variable {D : Type}
def usedAfter (isThere : Bool) (used : Nat) : Nat := if isThere then used else used+2

/-- The loop of `MOVE_RECORDS` when allocation number `fail` fails and `used` have succeeded. -/
def moveRecsFail (fail bits : Nat) (k0 : Fin 16) :
    Nat → (Fin 16 → Bool) → List (TdbFRec D) → Except TdbStop (Option (List (TdbFRec D)))
  | _, _, [] => .ok none
  | used, nb, r::rest =>
    if r.isRemoved || !r.live || htrieIdx r.key bits=k0 then do
      let res ← moveRecsFail fail bits k0 used nb rest
      .ok (res.map (r :: ·))
    else if !nb (htrieIdx r.key bits) && fail<used+2 then
      if k0.val≠0 ∧ ∃i,nb i then .error .fault else .ok (some (r::rest))
    else do
      let r' ← removePut r
      let res ← moveRecsFail fail bits k0 (usedAfter (nb (htrieIdx r.key bits)) used)
        (Function.update nb (htrieIdx r.key bits) true) rest
      .ok (res.map (r' :: ·))

/-- `tdb_htrie_burst`. -/
def htrieBurstFail (recLen fail : Nat) (b : TdbBucket D) (bits : Nat) : Except TdbStop (Option (TdbBucket D)) :=
  if fail=0 then .ok (some b)
  else
    match b.first with
    | some ⟨id,frec::rest⟩ => do
      let res ← moveRecsFail fail bits (htrieIdx frec.key bits) 1 (fun _ => false)
        (rest.take (burstCount recLen-1))
      .ok (res.map fun recs => {b with first :=
        if frec.isRemoved then none else some ⟨id,frec::(recs++rest.drop (burstCount recLen-1))⟩})
    | _ => .error .bug

def reachable (recs : List (TdbFRec D)) : List (TdbFRec D) := recs.filter fun r => !(r.isRemoved || !r.live)
def TdbBucket.reachable (b : TdbBucket D) : List (TdbFRec D) := Tdb.reachable ((b.first.map DataBlk.recs).getD [])

variable {fail bits used : Nat} {k0 : Fin 16} {nb : Fin 16 → Bool} {recs recs' : List (TdbFRec D)}
lemma reachable_cons (r : TdbFRec D) (recs : List (TdbFRec D)) :
    reachable (r::recs)=if r.isRemoved || !r.live then reachable recs else r::reachable recs := by
  rw [reachable,filter_cons]
  cases r.isRemoved || !r.live <;> rfl

lemma reachable_append (recs recs' : List (TdbFRec D)) :
    reachable (recs++recs')=reachable recs++reachable recs' := filter_append ..

lemma isRemoved_removePut {r r' : TdbFRec D} (h : removePut r=.ok r') : r'.isRemoved=true := by
  unfold removePut at h
  simp only at h
  split_ifs at h
  · cases h
    rfl
  · cases h
    rfl

lemma moveRecsFail_cases (h : moveRecsFail fail bits k0 used nb recs=.ok (some recs')) :
    (recs'=recs ∧ fail<used+2 ∧ reachable recs≠[]) ∨ (reachable recs').length<(reachable recs).length := by
  induction recs generalizing used nb recs' with
  | nil => cases h
  | cons r rest ih =>
    rw [moveRecsFail] at h
    split_ifs at h with hs hfl hf
    · obtain ⟨res,hre,hr⟩ := bind_eq_ok.1 h
      obtain ⟨res',rfl,rfl⟩ := map_eq_some_iff.1 (Except.ok.inj hr)
      obtain ⟨rfl,hlt,hne⟩ | hlt := ih hre
      · refine .inl ⟨rfl,hlt,?_⟩
        rw [reachable_cons]
        split_ifs
        · exact hne
        · exact cons_ne_nil _ _
      · right
        rw [reachable_cons,reachable_cons]
        split_ifs
        · exact hlt
        · exact Nat.succ_lt_succ hlt
    · cases h
      have hl : ¬(r.isRemoved || !r.live)=true := by simp_all
      refine .inl ⟨rfl,by simp_all,?_⟩
      rw [reachable_cons,if_neg hl]
      exact cons_ne_nil _ _
    · obtain ⟨r',hp,h⟩ := bind_eq_ok.1 h
      obtain ⟨res,hre,hr⟩ := bind_eq_ok.1 h
      obtain ⟨res',rfl,rfl⟩ := map_eq_some_iff.1 (Except.ok.inj hr)
      have hl : ¬(r.isRemoved || !r.live)=true := by simp_all
      have hle : (reachable res').length≤(reachable rest).length := by
        obtain ⟨rfl,-,-⟩ | hlt := ih hre
        · exact le_rfl
        · exact le_of_lt hlt
      right
      rw [reachable_cons,if_pos (by simp [isRemoved_removePut hp]),reachable_cons,if_neg hl]
      exact Nat.lt_succ_of_le hle

lemma keeps_fail {recLen id : Nat} {b b' : TdbBucket D} {frec : TdbFRec D} {rest : List (TdbFRec D)}
    (hf : b.first=some ⟨id,frec::rest⟩) (hb : htrieBurstFail recLen fail b bits=.ok (some b'))
    (hs : b.reachable.Subperm b'.reachable) : fail=0 ∨ fail≤2 ∧ frec.isRemoved=false := by
  unfold htrieBurstFail at hb
  split_ifs at hb with h0
  · exact .inl h0
  simp only [hf] at hb
  obtain ⟨res,hm,hre⟩ := bind_eq_ok.1 hb
  obtain ⟨recs,rfl,rfl⟩ := map_eq_some_iff.1 (Except.ok.inj hre)
  obtain ⟨n,hn⟩ : ∃n,n=burstCount recLen - 1 := ⟨_,rfl⟩
  rw [← hn] at hm hs
  have hle := hs.length_le
  have hbe : b.reachable.length=(Tdb.reachable [frec]).length+(Tdb.reachable (rest.take n)).length +
      (Tdb.reachable (rest.drop n)).length := by
    rw [TdbBucket.reachable,hf,← length_append,← length_append,← reachable_append,← reachable_append,
      append_assoc,take_append_drop]
    rfl
  rw [hbe] at hle
  cases hr : frec.isRemoved with
  | true =>
    -- the whole block is unlinked
    rw [hr,if_pos rfl] at hle
    have hso : 0<(Tdb.reachable (rest.take n)).length := by
      obtain ⟨-,-,hne⟩ | hlt := moveRecsFail_cases hm
      · exact length_pos_iff.2 hne
      · omega
    have hno : (Tdb.reachable (D := D) []).length=0 := rfl
    simp only [TdbBucket.reachable,map_none,getD_none,hno] at hle
    omega
  | false =>
    rw [hr,if_neg Bool.false_ne_true] at hle
    have ha : (Tdb.reachable (frec::(recs++rest.drop n))).length=(Tdb.reachable [frec]).length +
        (Tdb.reachable recs).length+(Tdb.reachable (rest.drop n)).length := by
      rw [← length_append,← length_append,← reachable_append,← reachable_append,append_assoc]
      rfl
    simp only [TdbBucket.reachable,map_some,getD_some,ha] at hle
    obtain ⟨-,hlt,-⟩ | hlt := moveRecsFail_cases hm
    · exact .inr ⟨by omega,rfl⟩
    · omega

lemma moveRecsFail_first (bits : Nat) (k0 : Fin 16) (recs : List (TdbFRec D)) (hfl : fail<used+2) :
    moveRecsFail fail bits k0 used (fun _ => false) recs=.ok none ∨
      moveRecsFail fail bits k0 used (fun _ => false) recs=.ok (some recs) := by
  induction recs with
  | nil => exact .inl rfl
  | cons r rest ih =>
    rw [moveRecsFail]
    split_ifs with hs hst hf
    · obtain hi | hi := ih
      · exact .inl (by rw [hi]; rfl)
      · exact .inr (by rw [hi]; rfl)
    · simp at hf
    · exact .inr rfl
    · simp [hfl] at hst

/-- A failed burst returns and leaves all records reachable exactly when the index node or the first new bucket cannot
be allocated, and then it leaves the bucket as it was: no record is removed, put or released. -/
theorem htrieBurstFail_keeps_iff (recLen fail bits id : Nat) (b : TdbBucket D) (frec : TdbFRec D)
    (rest : List (TdbFRec D)) (hfirst : b.first=some ⟨id,frec::rest⟩)
    (hburst : htrieBurstFail recLen fail b bits ≠ .ok none) :
    ((∃b',htrieBurstFail recLen fail b bits=.ok (some b') ∧ b.reachable.Subperm b'.reachable) ↔
      fail=0 ∨ fail≤2 ∧ frec.isRemoved=false) ∧
    (htrieBurstFail recLen fail b bits=.ok (some b) ↔ fail=0 ∨ fail≤2 ∧ frec.isRemoved=false) := by
  have hkeep : fail=0 ∨ fail≤2 ∧ frec.isRemoved=false → htrieBurstFail recLen fail b bits=.ok (some b) := by
    intro hc
    unfold htrieBurstFail at hburst ⊢
    split_ifs at hburst ⊢ with h0
    · rfl
    obtain ⟨hle,hr⟩ := hc.resolve_left h0
    simp only [hfirst] at hburst ⊢
    rcases moveRecsFail_first bits (htrieIdx frec.key bits) (rest.take (burstCount recLen - 1))
      (show fail<1+2 by omega) with hm | hm
    · rw [hm] at hburst
      exact absurd rfl hburst
    · rw [hm,ok_bind,map_some,hr,if_neg Bool.false_ne_true,take_append_drop,← hfirst]
  refine ⟨⟨?_,fun hc => ⟨b,hkeep hc,.refl _⟩⟩,fun hb => keeps_fail hfirst hb (.refl _),hkeep⟩
  rintro ⟨b',hb',hs⟩
  exact keeps_fail hfirst hb' hs

def threeWays : TdbBucket Unit := ⟨0,some ⟨0,[createRec 0 0x01 (),createRec 0 0x11 (),createRec 0 0x21 ()]⟩⟩

theorem htrieBurstFail_keeps_iff_first : htrieBurstFail 16 2 threeWays 4=.ok (some threeWays) :=
  (htrieBurstFail_keeps_iff 16 2 4 0 threeWays _ _ rfl (fun h => nomatch h)).2.2 (.inr ⟨le_rfl,rfl⟩)

/-- The second new bucket cannot be allocated: the record that was moved to the first one is lost. -/
theorem htrieBurstFail_loses :
    (htrieBurstFail 16 3 threeWays 4).toOption.map (Option.map fun b => b.reachable.map TdbFRec.key) =
      some (some [0x01,0x21]) := by
  decide +kernel
end VetWaf.Tdb
