import VetWaf.Tdb.Htrie

namespace VetWaf.Tdb
open List Option

/-- What is found at the positions from the first record of a bucket on, taken as headers of records -/
structure Layout where
  removed : Nat → Bool
  len : Nat → Nat

/-- The positions that the loop of `MOVE_RECORDS` looks at behind the first record. -/
def moveWalk (hdr : Nat) (m : Layout) : Nat → Nat → Nat → Option (List Nat)
  | 0, _, _ => none
  | fuel+1, c, n =>
    if m.removed c then (moveWalk hdr m fuel (c+n) n).map (c :: ·)
    else if mindrec≤hdr+c then some [c]
    else if mindrec ≤ m.len c+c then some [c]
    else (moveWalk hdr m fuel (c+m.len c) (m.len c)).map (c :: ·)

def WalksInside (hdr : Nat) (m : Layout) : Prop :=
  ∃fuel ps,moveWalk hdr m fuel (m.len 0) (m.len 0)=some ps ∧ ∀c∈ps,c+m.len c ≤ mindrec

/-- The records from `c` on fill the block to its end. -/
inductive Filled (m : Layout) : Nat → Nat → Prop
  | last {c n : Nat} : m.removed c=false → c+m.len c=mindrec → Filled m c n
  | skip {c n : Nat} : m.removed c=true → c+m.len c ≤ mindrec → Filled m (c+n) n → Filled m c n
  | next {c n : Nat} : m.removed c=false → c+m.len c < mindrec → Filled m (c+m.len c) (m.len c) → Filled m c n

/-- The number of bursts of `tdb_htrie_insert` from an entry with `rem` levels below it on -/
def burstCountFrom {D : Type} [Inhabited D] (recLen : Nat) (beyond : Nat → Nat → Bool) (key : Nat) (data : D) :
    Nat → Shift D → Alloc → Nat
  | rem+1, .index shifts, a => burstCountFrom recLen beyond key data rem (shifts (htrieIdx key (bitsAt (rem+1)))) a
  | rem+1, .bckt b coll, a =>
    if b.first.isNone || (smallrecLink recLen (createRec b.id key data) (b::coll)).isSome then 0
    else
      match htrieBurst recLen beyond b (bitsAt (rem+1)) a with
      | .error _ => 1
      | .ok (shifts,a) => 1+burstCountFrom recLen beyond key data rem (shifts (htrieIdx key (bitsAt (rem+1)))) a
  | _, _, _ => 0

variable {hdr : Nat} {m : Layout}
lemma Filled.walk (hl : ∀c,hdr ≤ m.len c) {c n : Nat} (h : Filled m c n) :
    ∃fuel ps,moveWalk hdr m fuel c n=some ps ∧ ∀c'∈ps,c'+m.len c' ≤ mindrec := by
  induction h with
  | @last c n hli he =>
    refine ⟨1,[c],?_,?_⟩
    · rw [moveWalk,if_neg (by simp [hli]),if_pos (show mindrec ≤ m.len c+c by omega),ite_self]
    · intro c' hc'
      rw [mem_singleton.1 hc']
      exact le_of_eq he
  | @skip c n hr hin _ ih =>
    obtain ⟨fuel,ps,hw,hp⟩ := ih
    refine ⟨fuel+1,c::ps,?_,forall_mem_cons.2 ⟨hin,hp⟩⟩
    rw [moveWalk,if_pos hr,hw,map_some]
  | @next c n hli hin _ ih =>
    obtain ⟨fuel,ps,hw,hp⟩ := ih
    have hh := hl c
    refine ⟨fuel+1,c::ps,?_,forall_mem_cons.2 ⟨le_of_lt hin,hp⟩⟩
    rw [moveWalk,if_neg (by simp [hli]),if_neg (by omega),if_neg (by omega),hw,map_some]

lemma filled_of_walk (hl : ∀c,hdr ≤ m.len c) {fuel c n : Nat} {ps : List Nat}
    (h : moveWalk hdr m fuel c n=some ps) (hp : ∀c'∈ps,c'+m.len c' ≤ mindrec) : Filled m c n := by
  induction fuel generalizing c n ps with
  | zero => cases h
  | succ fuel ih =>
    have hh := hl c
    rw [moveWalk] at h
    split_ifs at h with hr hs he
    · obtain ⟨rest,hre,rfl⟩ := map_eq_some_iff.1 h
      obtain ⟨hin,hp⟩ := forall_mem_cons.1 hp
      exact .skip hr hin (ih hre hp)
    · cases h
      have hin := hp c (.head _)
      exact .last (Bool.not_eq_true _ ▸ hr) (by omega)
    · cases h
      have hin := hp c (.head _)
      exact .last (Bool.not_eq_true _ ▸ hr) (by omega)
    · obtain ⟨rest,hre,rfl⟩ := map_eq_some_iff.1 h
      obtain ⟨-,hp⟩ := forall_mem_cons.1 hp
      exact .next (Bool.not_eq_true _ ▸ hr) (by omega) (ih hre hp)

lemma burstCountFrom_le {D : Type} [Inhabited D] (recLen : Nat) (beyond : Nat → Nat → Bool) (key : Nat) (data : D)
    (rem : Nat) (sh : Shift D) (a : Alloc) : burstCountFrom recLen beyond key data rem sh a≤rem := by
  fun_induction burstCountFrom recLen beyond key data rem sh a with
  | case1 rem shifts a ih => omega
  | case2 => omega
  | case3 => omega
  | case4 rem b coll a _ shifts a' _ ih => omega
  | case5 => omega

/-- An insertion bursts at most 16 times; and the record loop of a burst ends and stays in the block exactly when the
records of the block fill it and the last one is not removed. -/
theorem burst_walks_inside_iff (hdr : Nat) (m : Layout) (hlen : ∀c,hdr ≤ m.len c) {D : Type} [Inhabited D]
    (recLen : Nat) (beyond : Nat → Nat → Bool) (key : Nat) (data : D) (dbh : TdbHdr D) :
    burstCountFrom recLen beyond key data 15 (dbh.root (htrieIdx key 0)) dbh.alloc≤16 ∧
      (WalksInside hdr m ↔ Filled m (m.len 0) (m.len 0)) := by
  refine ⟨Nat.le_succ_of_le (burstCountFrom_le ..),?_,fun h => h.walk hlen⟩
  intro ⟨fuel,ps,hw,hp⟩
  exact filled_of_walk hlen hw hp

/-- Four records of 32 bytes -/
theorem burst_walks_inside_iff_four : WalksInside frecSize ⟨fun _ => false,fun _ => 32⟩ := by
  refine (burst_walks_inside_iff frecSize ⟨fun _ => false,fun _ => 32⟩ (fun _ => (by decide : 24≤32)) 8
    (fun _ _ => true) 1 () {}).2.2 (.next rfl (by decide) (.next rfl (by decide) (.last rfl rfl)))

/-- A full block of three records of 40 bytes, and zeroes behind them: the loop does not end. -/
theorem burst_walks_over_zeroes :
    ¬∃fuel ps,moveWalk frecSize ⟨fun c => decide (80<c),fun _ => 40⟩ fuel 40 40=some ps := by
  have hw : ∀fuel c,80<c → moveWalk frecSize ⟨fun c => decide (80<c),fun _ => 40⟩ fuel c 40=none := by
    intro fuel
    induction fuel with
    | zero => exact fun _ _ => rfl
    | succ fuel ih =>
      intro c hc
      rw [moveWalk,if_pos (by simpa using hc),ih (c+40) (by omega),map_none]
  rintro ⟨fuel,ps,h⟩
  match fuel with
  | 0 => cases h
  | 1 => cases h
  | fuel+2 =>
    have hb := hw fuel 120 (by decide)
    rw [frecSize] at hb h
    simp [moveWalk,mindrec,hb] at h
end VetWaf.Tdb
