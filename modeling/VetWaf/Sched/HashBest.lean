import VetWaf.Lib.Word

namespace VetWaf.Sched
open List Word Nat

/-- `__bsearch` over the sorted hashes of the connections. -/
def bsearchLoop (hashes : List Nat) (hash : Nat) : Nat → Nat → Nat → Nat
  | 0, start, _ => start
  | fuel+1, start, «end» =>
    if start < «end» then
      let mid := start+(«end»-start)/2
      let midHash := hashes.getD mid 0
      if hash < midHash then bsearchLoop hashes hash fuel start mid
      else if midHash<hash then bsearchLoop hashes hash fuel (mid+1) «end»
      else mid
    else start

def bsearch (hash : Nat) (hashes : List Nat) : Nat := bsearchLoop hashes hash hashes.length 0 (hashes.length-1)

/-- `__add_conn`; `none` is `-EEXIST`. -/
def addConn (hashes : List Nat) (hash : Nat) : Option (List Nat) :=
  if hashes=[] then some [hash]
  else
    let idx := bsearch hash hashes
    if hashes.getD idx 0=hash then none
    else
      let at' := if hashes.getD idx 0<hash then idx+1 else idx
      some (hashes.take at'++hash::hashes.drop at')

/-- What `__find_best_conn` returns. -/
inductive Found where
  | conn (idx : Nat)
  | null
  | fault
  deriving DecidableEq

/-- The nearest neighbour that is live and suitable. -/
def neighbours (hashes : List Nat) (best : Nat) (ok : Nat → Bool) : Nat → Nat → Nat → Found
  | 0, _, _ => .null
  | fuel+1, l, r =>
    if 0<l ∨ r<hashes.length then
      let lDiff := if 0<l then sub 64 best (hashes.getD (l-1) 0) else 2^64-1
      let rDiff := if r<hashes.length then sub 64 (hashes.getD r 0) best else 2^64-1
      if lDiff≤rDiff then
        if l=0 then .fault else if ok (l-1) then .conn (l-1) else neighbours hashes best ok fuel (l-1) r
      else if ok r then .conn r
      else neighbours hashes best ok fuel l (r+1)
    else .null

def findBestConn (ok : Nat → Bool) (hashes : List Nat) (msgHash : Nat) : Found :=
  let best := (2^64-1)^^^msgHash
  if hashes=[] then .null
  else
    let idx := bsearch best hashes
    if ok idx then .conn idx
    else neighbours hashes best ok (hashes.length+1) idx (idx+1)

variable {hashes : List Nat} {best : Nat}

/-- The search ends at the first hash that is not below the one searched for, or at the last one. -/
def Nearest (hashes : List Nat) (best i : Nat) : Prop :=
  i<hashes.length ∧ (∀j < i,hashes.getD j 0<best) ∧ (best≤hashes.getD i 0 ∨ i+1=hashes.length)

lemma getD_lt (hs : hashes.Pairwise (· < ·)) {i j : Nat} (hi : i<j) (hj : j<hashes.length) :
    hashes.getD i 0<hashes.getD j 0 := by
  rw [getD_eq_getElem _ _ hj,getD_eq_getElem _ _ (hi.trans hj)]
  exact pairwise_iff_getElem.1 hs i j (hi.trans hj) hj hi

lemma bsearchLoop_nearest (hs : hashes.Pairwise (· < ·)) {fuel start «end» : Nat} (hf : «end»-start<fuel)
    (hle : start ≤ «end») (he : «end» < hashes.length) (hb : ∀j<start,hashes.getD j 0<best)
    (ha : best≤hashes.getD «end» 0 ∨ «end»+1=hashes.length) :
    Nearest hashes best (bsearchLoop hashes best fuel start «end») := by
  induction fuel generalizing start «end» with
  | zero => omega
  | succ fuel ih =>
    rw [bsearchLoop]
    split_ifs with hlt
    · have hm : start+(«end»-start)/2 < «end» := by omega
      have hu (j : Nat) (hj : j<start+(«end»-start)/2) := getD_lt hs hj (hm.trans he)
      dsimp only
      split_ifs with h1 h2
      · exact ih (by omega) (by omega) (by omega) hb (.inl h1.le)
      · refine ih (by omega) (by omega) he (fun j hj => ?_) ha
        obtain hj | rfl := Nat.lt_succ_iff_lt_or_eq.1 hj
        · exact (hu j hj).trans h2
        · exact h2
      · exact ⟨hm.trans he,fun j hj => (hu j hj).trans_le (Nat.not_lt.1 h1),.inl (Nat.not_lt.1 h2)⟩
    · obtain rfl : start=«end» := by omega
      exact ⟨he,hb,ha⟩

lemma bsearch_nearest (best : Nat) (hs : hashes.Pairwise (· < ·)) (hne : hashes≠[]) :
    Nearest hashes best (bsearch best hashes) := by
  have hp := length_pos_iff.2 hne
  exact bsearchLoop_nearest hs (by omega) zero_le (by omega) (fun j hj => absurd hj (not_lt_zero j))
    (.inr (by omega))

lemma pairwise_insert {hash k : Nat} (hs : hashes.Pairwise (· < ·)) (hlt : ∀j<k,hashes.getD j 0<hash)
    (hgt : ∀j<hashes.length,k≤j → hash<hashes.getD j 0) : (hashes.take k++hash::hashes.drop k).Pairwise (· < ·) := by
  have ht : ∀a∈hashes.take k,a<hash := by
    intro a ha
    obtain ⟨j,hj,rfl⟩ := mem_take_iff_getElem.1 ha
    rw [← getD_eq_getElem _ 0 (by omega)]
    exact hlt j (by omega)
  have hd : ∀b∈hashes.drop k,hash<b := by
    intro b hb
    obtain ⟨j,hj,rfl⟩ := mem_drop_iff_getElem.1 hb
    rw [← getD_eq_getElem _ 0 (by omega)]
    exact hgt _ (by omega) (by omega)
  refine pairwise_append.2 ⟨hs.sublist (take_sublist ..),
    pairwise_cons.2 ⟨hd,hs.sublist (drop_sublist ..)⟩,fun a ha b hb => ?_⟩
  obtain rfl | hb := mem_cons.1 hb
  · exact ht a ha
  · exact (ht a ha).trans (hd b hb)

lemma addConn_sorted {ha' : List Nat} {hash : Nat} (hs : hashes.Pairwise (· < ·))
    (h : addConn hashes hash=some ha') : ha'.Pairwise (· < ·) := by
  rw [addConn] at h
  by_cases hne : hashes=[]
  · rw [if_pos hne] at h
    cases h
    exact pairwise_singleton ..
  obtain ⟨hl,hb,ha⟩ := bsearch_nearest hash hs hne
  generalize bsearch hash hashes=idx at h hl hb ha
  rw [if_neg hne] at h
  dsimp only at h
  split_ifs at h with heq hlt
  · cases h
    refine pairwise_insert hs (fun j hj => ?_) fun j hj hle => by omega
    obtain hj | rfl := Nat.lt_succ_iff_lt_or_eq.1 hj
    · exact hb j hj
    · exact hlt
  · cases h
    refine pairwise_insert hs hb fun j hj hle => ?_
    have hi : hash<hashes.getD idx 0 := by omega
    obtain hle | rfl := hle.lt_or_eq
    · exact hi.trans (getD_lt hs hle hj)
    · exact hi

lemma xor_lt_xor_iff {a b : Nat} (m : Nat) (hab : a≠b) :
    m^^^a < m^^^b ↔ b.testBit (a^^^b).log2≠m.testBit (a^^^b).log2 := by
  have hne : a^^^b≠0 := fun h => hab (Nat.xor_eq_zero_iff.1 h)
  have ht : (a^^^b).testBit (a^^^b).log2=true := Nat.testBit_log2 hne
  have ha (j : Nat) (hj : (a^^^b).log2<j) : a.testBit j=b.testBit j := by
    have := Nat.testBit_lt_two_pow ((Nat.log2_lt hne).1 hj)
    rw [Nat.testBit_xor] at this
    exact bne_eq_false_iff_eq.1 this
  have hlt (x y : Nat) (hx : x.testBit (a^^^b).log2=m.testBit (a^^^b).log2)
      (hy : y.testBit (a^^^b).log2≠m.testBit (a^^^b).log2)
      (hu : ∀j,(a^^^b).log2<j → x.testBit j=y.testBit j) : m^^^x < m^^^y := by
    refine Nat.lt_of_testBit (a^^^b).log2 ?_ ?_ fun j hj => ?_
    · rw [Nat.testBit_xor,hx,Bool.xor_self]
    · rw [Nat.testBit_xor]
      exact bne_iff_ne.2 (Ne.symm hy)
    · rw [Nat.testBit_xor,Nat.testBit_xor,hu j hj]
  rw [Nat.testBit_xor] at ht
  have hd : a.testBit (a^^^b).log2≠b.testBit (a^^^b).log2 := bne_iff_ne.1 ht
  constructor
  · intro h heq
    exact absurd h (hlt b a heq (heq ▸ hd) fun j hj => (ha j hj).symm).not_gt
  · intro h
    refine hlt a b ?_ h ha
    revert hd h
    cases a.testBit (a^^^b).log2 <;> cases b.testBit (a^^^b).log2 <;> cases m.testBit (a^^^b).log2 <;> simp

/-- Of two hashes the greater one has the highest bit in which they differ, and below it they part. -/
lemma branch_bit {h near : Nat} (hlt : h<near) :
    h/2^(h^^^near).log2%2=0 ∧ near/2^(h^^^near).log2=h/2^(h^^^near).log2+1 := by
  have hne : h^^^near≠0 := fun h0 => hlt.ne (Nat.xor_eq_zero_iff.1 h0)
  obtain ⟨hle,hgt⟩ := (Nat.log2_eq_iff hne).1 rfl
  generalize (h^^^near).log2=d at hle hgt ⊢
  have hx : h/2^d^^^near/2^d=1 := by
    rw [← Nat.xor_div_two_pow]
    exact Nat.div_eq_of_lt_le (by omega) (by rw [Nat.pow_succ] at hgt; omega)
  have hn : near/2^d=h/2^d^^^1 := by rw [← hx,← Nat.xor_assoc,Nat.xor_self,Nat.zero_xor]
  have hm : h/2^d≤near/2^d := Nat.div_le_div_right hlt.le
  generalize h/2^d=q at hn hm
  obtain he | ho := Nat.mod_two_eq_zero_or_one q
  · exact ⟨he,by rw [hn,Nat.xor_one_of_even (Nat.even_iff.2 he)]⟩
  · rw [hn,Nat.xor_one_of_odd (Nat.odd_iff.2 ho)] at hm
    omega

/-- A connection is at most as heavy as another exactly when `best` goes with the other where their hashes part. -/
lemma weight_le_iff (msgHash : Nat) {h near : Nat} (hh : h<2^64) (hn : near<2^64) (hne : h≠near) :
    msgHash^^^h ≤ msgHash^^^near ↔ ((2^64-1)^^^msgHash).testBit (h^^^near).log2=decide (h<near) := by
  have hx : msgHash^^^h≠msgHash^^^near := fun h' => hne (xor_right_injective h')
  have hd : (h^^^near).log2<64 :=
    (Nat.log2_lt fun h0 => hne (Nat.xor_eq_zero_iff.1 h0)).2 (Nat.xor_lt_two_pow hh hn)
  have ho := xor_lt_xor_iff 0 hne
  rw [Nat.zero_xor,Nat.zero_xor,Nat.zero_testBit] at ho
  rw [le_iff_lt_or_eq,or_iff_left hx,xor_lt_xor_iff msgHash hne,Nat.testBit_xor,Nat.testBit_two_pow_sub_one]
  by_cases hlt : h<near
  · simp [ho.1 hlt,hd,hlt]
  · simp [not_not.1 (mt ho.2 hlt),hd,hlt]

/-- A hash that is lighter than the nearest one below `best` is no better than any that is farther below. -/
lemma below_of_nearest {best h p near : Nat} (hhp : h≤p) (hp : p<best) (hnear : best≤near)
    (hb : best.testBit (p^^^near).log2=true) : best.testBit (h^^^near).log2=true := by
  obtain ⟨he,hn⟩ := branch_bit (show h<near by omega)
  by_contra hz
  -- otherwise `p` is with `h` and `best` on the lower side of their branch
  generalize hd : (h^^^near).log2=d at he hn hz
  have hbd : best/2^d%2=0 := by
    rw [Nat.testBit_eq_decide_div_mod_eq] at hz
    simpa using hz
  have h1 : h/2^d≤p/2^d := Nat.div_le_div_right hhp
  have h2 : p/2^d≤best/2^d := Nat.div_le_div_right hp.le
  have h3 : best/2^d≤near/2^d := Nat.div_le_div_right hnear
  have hpx : (p^^^near)/2^d=(h^^^near)/2^d := by
    rw [Nat.xor_div_two_pow,Nat.xor_div_two_pow,show p/2^d=h/2^d by omega]
  have hx0 : h^^^near≠0 := fun h0 => (show h≠near by omega) (Nat.xor_eq_zero_iff.1 h0)
  have hpd : (p^^^near).log2=d := by
    obtain ⟨hle,hgt⟩ := (Nat.log2_eq_iff hx0).1 hd
    have hq : (h^^^near)/2^d=1 := Nat.div_eq_of_lt_le (by omega) (by rw [Nat.pow_succ] at hgt; omega)
    rw [hq] at hpx
    have hpos : 0<2^d := Nat.two_pow_pos d
    have hne : p^^^near≠0 := fun h0 => (show p≠near by omega) (Nat.xor_eq_zero_iff.1 h0)
    refine (Nat.log2_eq_iff hne).2 ⟨?_,?_⟩
    · have := Nat.div_mul_le_self (p^^^near) (2^d)
      rw [hpx] at this
      omega
    · have := Nat.lt_mul_div_succ (p^^^near) hpos
      rw [hpx] at this
      rw [Nat.pow_succ]
      omega
  rw [hpd] at hb
  exact hz hb

/-- The bits of `best` where the hash next to it parts from the others: from the next one below it and from all above,
or from all others if there is none above. -/
def Heaviest (best : Nat) (below : List Nat) : List Nat → Prop
  | near::above => (∀p∈below.getLast?,best.testBit (p^^^near).log2=true) ∧
      ∀h∈above,best.testBit (h^^^near).log2=false
  | [] => ∀near∈below.getLast?,∀h∈below.dropLast,best.testBit (h^^^near).log2=true

lemma heaviest_of_above (best near : Nat) {below above : List Nat} (hs : (below++near::above).Pairwise (· < ·))
    (hb : ∀h∈below,h<best) (hn : best≤near) : Heaviest best below (near::above) ↔
      ∀h∈below++near::above,h≠near → best.testBit (h^^^near).log2=decide (h<near) := by
  obtain ⟨hsb,hsa,hba⟩ := pairwise_append.1 hs
  have hab := (pairwise_cons.1 hsa).1
  constructor
  · rintro ⟨hl,hr⟩ h hh hne
    obtain hh | hh := mem_append.1 hh
    · rw [decide_eq_true (hba h hh near (.head _))]
      obtain ⟨p,hp⟩ := Option.isSome_iff_exists.1 (getLast?_isSome.2 (ne_nil_of_mem hh))
      have hhp : h≤p := by
        obtain ⟨as,rfl⟩ := getLast?_eq_some_iff.1 hp
        obtain hh | hh := mem_append.1 hh
        · exact ((pairwise_append.1 hsb).2.2 h hh p (.head _)).le
        · exact (mem_singleton.1 hh).le
      exact below_of_nearest hhp (hb p (mem_of_getLast? hp)) hn (hl p hp)
    · have hh := (mem_cons.1 hh).resolve_left hne
      rw [hr h hh,decide_eq_false (hab h hh).not_gt]
  · intro h
    refine ⟨fun p hp => ?_,fun a ha => ?_⟩
    · have hlt := hba p (mem_of_getLast? hp) near (.head _)
      rw [h p (mem_append_left _ (mem_of_getLast? hp)) hlt.ne,decide_eq_true hlt]
    · rw [h a (mem_append_right _ (.tail _ ha)) (hab a ha).ne',decide_eq_false (hab a ha).not_gt]

lemma heaviest_of_below (best near : Nat) {below : List Nat} (hs : (below++[near]).Pairwise (· < ·)) :
    Heaviest best (below++[near]) [] ↔
      ∀h∈below++[near],h≠near → best.testBit (h^^^near).log2=decide (h<near) := by
  have hlt : ∀h∈below,h<near := fun h hh => (pairwise_append.1 hs).2.2 h hh near (.head _)
  simp only [Heaviest,getLast?_append,getLast?_singleton,Option.some_or,Option.mem_some,forall_eq',dropLast_concat,
    mem_append,mem_singleton]
  constructor
  · rintro h a (ha | rfl) hne
    · rw [h a ha,decide_eq_true (hlt a ha)]
    · exact absurd rfl hne
  · intro h a ha
    rw [h a (.inl ha) (hlt a ha).ne,decide_eq_true (hlt a ha)]

/-- With all connections live and suitable the one chosen is the first whose hash is not below the complement of the
message's, or the last: it is the heaviest exactly when the complement goes with it where the hashes part. -/
theorem best_conn_iff (msgHash : Nat) (ok : Nat → Bool) (hs : hashes.Pairwise (· < ·)) (hne : hashes≠[])
    (hword : ∀h∈hashes,h<2^64) (hok : ∀i<hashes.length,ok i=true) :
    (∃i near,findBestConn ok hashes msgHash=.conn i ∧ hashes[i]?=some near ∧ ∀h∈hashes,msgHash^^^h ≤ msgHash^^^near) ↔
      Heaviest ((2^64-1)^^^msgHash) (hashes.takeWhile (· < (2^64-1)^^^msgHash))
        (hashes.dropWhile (· < (2^64-1)^^^msgHash)) := by
  have hn := bsearch_nearest ((2^64-1)^^^msgHash) hs hne
  have hf : findBestConn ok hashes msgHash=.conn (bsearch ((2^64-1)^^^msgHash) hashes) := by
    rw [findBestConn,if_neg hne,if_pos (hok _ hn.1)]
  generalize hbest : (2^64-1)^^^msgHash=best at hn hf ⊢
  generalize bsearch best hashes=i at hn hf
  obtain ⟨hi,hlt,hge⟩ := hn
  obtain ⟨near,hnear⟩ : ∃near,hashes[i]?=some near := ⟨_,getElem?_eq_getElem hi⟩
  have hget : hashes.getD i 0=near := by rw [getD_eq_getElem?_getD,hnear,Option.getD_some]
  have hsplit : hashes.take i++near::hashes.drop (i+1)=hashes := by
    have h := (List.getElem?_eq_some_iff.1 hnear).2
    rw [← h,getElem_cons_drop,take_append_drop]
  have hbelow : ∀h∈hashes.take i,h<best := by
    intro h hh
    obtain ⟨j,hj,rfl⟩ := mem_take_iff_getElem.1 hh
    rw [← getD_eq_getElem _ 0 (by omega)]
    exact hlt j (by omega)
  -- the choice is right when all comparisons with it are
  have hr : (∃i near,findBestConn ok hashes msgHash=.conn i ∧ hashes[i]?=some near ∧
      ∀h∈hashes,msgHash^^^h ≤ msgHash^^^near) ↔
      ∀h∈hashes,h≠near → best.testBit (h^^^near).log2=decide (h<near) := by
    have hw (h : Nat) (hh : h∈hashes) (hne : h≠near) := weight_le_iff msgHash (hword h hh)
      (hword near (mem_of_getElem? hnear)) hne
    simp only [hbest] at hw
    constructor
    · rintro ⟨i',near',hf',hn',hle⟩ h hh hne
      rw [hf,Found.conn.injEq] at hf'
      rw [← hf',hnear,Option.some.injEq] at hn'
      exact (hw h hh hne).1 (hn' ▸ hle h hh)
    · intro h
      refine ⟨i,near,hf,hnear,fun a ha => ?_⟩
      by_cases hne : a=near
      · rw [hne]
      · exact (hw a ha hne).2 (h a ha hne)
  rw [hr]
  by_cases hge' : best≤near
  · have ht : hashes.takeWhile (· < best)=hashes.take i ∧ hashes.dropWhile (· < best)=near::hashes.drop (i+1) := by
      have ha : ∀h∈hashes.take i,decide (h<best)=true := fun h hh => decide_eq_true (hbelow h hh)
      rw [← hsplit,takeWhile_append_of_pos ha,dropWhile_append_of_pos ha,
        takeWhile_cons_of_neg (by simpa using hge'),dropWhile_cons_of_neg (by simpa using hge'),hsplit,append_nil]
      exact ⟨rfl,rfl⟩
    have hh := heaviest_of_above best near (by rwa [hsplit]) hbelow hge'
    rw [hsplit] at hh
    rw [ht.1,ht.2,hh]
  · -- all are below: the last one is chosen
    have hlast : i+1=hashes.length := hge.resolve_left (hget ▸ hge')
    rw [drop_of_length_le hlast.ge] at hsplit
    have hall : ∀h∈hashes,decide (h<best)=true := by
      intro h hh
      rw [← hsplit] at hh
      obtain hh | hh := mem_append.1 hh
      · exact decide_eq_true (hbelow h hh)
      · rw [mem_singleton.1 hh]
        exact decide_eq_true (by omega)
    have hh := heaviest_of_below best near (by rwa [hsplit])
    rw [hsplit] at hh
    rw [takeWhile_eq_self_iff.2 hall,dropWhile_eq_nil_iff.2 hall,hh]

theorem best_conn_iff_three : ∃i near,findBestConn (fun _ => true) [1,6,2^63] (2^64-6)=.conn i ∧
    [1,6,2^63][i]?=some near ∧ ∀h∈[1,6,2^63],(2^64-6)^^^h≤(2^64-6)^^^near :=
  (best_conn_iff (2^64-6) _ (by decide) (by decide) (by decide) fun _ _ => rfl).2
    ⟨by decide +kernel,by decide +kernel⟩

theorem best_conn_not_heaviest : findBestConn (fun _ => true) [4,8] (2^64-8)=.conn 1 ∧ (2^64-8)^^^8<(2^64-8)^^^4 := by
  decide +kernel

/-- The connections in the order in which the loop over the neighbours tries them. -/
def visits (hashes : List Nat) (best : Nat) : Nat → Nat → Nat → List Nat
  | 0, _, _ => []
  | fuel+1, l, r =>
    if 0<l ∨ r<hashes.length then
      let lDiff := if 0<l then sub 64 best (hashes.getD (l-1) 0) else 2^64-1
      let rDiff := if r<hashes.length then sub 64 (hashes.getD r 0) best else 2^64-1
      if lDiff≤rDiff then (l-1)::visits hashes best fuel (l-1) r else r::visits hashes best fuel l (r+1)
    else []

def tryOrder (hashes : List Nat) (msgHash : Nat) : List Nat :=
  let best := (2^64-1)^^^msgHash
  let idx := bsearch best hashes
  if hashes=[] then [] else idx::visits hashes best (hashes.length+1) idx (idx+1)

def firstOk (ok : Nat → Bool) (order : List Nat) : Found := (order.find? ok).elim .null .conn

lemma firstOk_eq_conn {ok : Nat → Bool} {order : List Nat} {c : Nat} : firstOk ok order=.conn c ↔
    ok c=true ∧ ∃as bs,order=as++c::bs ∧ ∀i∈as,(!ok i)=true := by
  rw [← find?_eq_some_iff_append,firstOk]
  cases order.find? ok <;> simp

/-- `run` tries the connections of `P` once each, as `order` has them, and takes the first that is usable. -/
structure Tries (order : List Nat) (P : Nat → Prop) (run : (Nat → Bool) → Found) : Prop where
  nodup : order.Nodup
  mem : ∀i,i∈order ↔ P i
  run : ∀ok,run ok=firstOk ok order

lemma Tries.cons {order : List Nat} {P P' : Nat → Prop} {run : (Nat → Bool) → Found} {i : Nat} (h : Tries order P run)
    (hi : ¬P i) (hP : ∀j,P' j ↔ j=i ∨ P j) : Tries (i::order) P' fun ok => if ok i then .conn i else run ok := by
  refine ⟨nodup_cons.2 ⟨fun hin => hi ((h.mem i).1 hin),h.nodup⟩,fun j => by rw [mem_cons,h.mem,hP],fun ok => ?_⟩
  rw [h.run,firstOk,firstOk,find?_cons]
  cases ok i <;> rfl

lemma tries_neighbours {fuel l r : Nat} (hri : ∀j<hashes.length,r≤j → sub 64 (hashes.getD j 0) best<2^64-1)
    (hlr : l≤r) (hf : l+(hashes.length-r)<fuel) : Tries (visits hashes best fuel l r)
      (fun i => i<l ∨ r ≤ i ∧ i<hashes.length) fun ok => neighbours hashes best ok fuel l r := by
  induction fuel generalizing l r with
  | zero => omega
  | succ fuel ih =>
    simp only [visits,neighbours]
    generalize hl : (if 0<l then sub 64 best (hashes.getD (l-1) 0) else 2^64-1)=lDiff
    generalize hr : (if r<hashes.length then sub 64 (hashes.getD r 0) best else 2^64-1)=rDiff
    have hr' := hri r
    have hl' : sub 64 best (hashes.getD (l-1) 0)<2^64 := trunc_lt ..
    by_cases hm : 0<l ∨ r<hashes.length
    · by_cases hn : lDiff≤rDiff
      · have hp : 0<l := by split_ifs at hl hr <;> omega
        simp only [if_pos hm,if_pos hn,if_neg hp.ne']
        exact (ih (l := l-1) hri (by omega) (by omega)).cons (by omega) (by omega)
      · have hla : r<hashes.length := by split_ifs at hl hr <;> omega
        simp only [if_pos hm,if_neg hn]
        exact (ih (r := r+1) (fun j hj hle => hri j hj (by omega)) (by omega) (by omega)).cons (by omega) (by omega)
    · simp only [if_neg hm]
      exact ⟨nodup_nil,fun i => by simp; omega,fun ok => rfl⟩

/-- The list after any calls of `__add_conn` -/
def addConns (calls : List Nat) : List Nat := calls.foldl (fun hashes hash => (addConn hashes hash).getD hashes) []

lemma addConns_spec (calls : List Nat) : (addConns calls).Pairwise (· < ·) ∧ ∀h∈addConns calls,h∈calls := by
  induction calls using reverseRecOn with
  | nil => exact ⟨Pairwise.nil,fun _ h => h⟩
  | append_singleton calls hash ih =>
    rw [addConns,foldl_append,foldl_cons,foldl_nil,← addConns]
    cases ha : addConn (addConns calls) hash with
    | none => exact ⟨ih.1,fun h hh => mem_append_left _ (ih.2 h hh)⟩
    | some hashes =>
      refine ⟨addConn_sorted ih.1 ha,fun h hh => ?_⟩
      rw [mem_append,mem_singleton]
      have hn : h=hash ∨ h∈addConns calls := by
        rw [addConn] at ha
        simp only at ha
        split_ifs at ha with hni
        · cases ha
          exact .inl (mem_singleton.1 hh)
        all_goals
          cases ha
          obtain hh | hh := mem_append.1 hh
          · exact .inr (mem_of_mem_take hh)
          · obtain hh | hh := mem_cons.1 hh
            · exact .inl hh
            · exact .inr (mem_of_mem_drop hh)
      obtain rfl | hold := hn
      · exact .inr rfl
      · exact .inl (ih.2 h hold)

lemma tries_findBestConn {msgHash : Nat} (hs : hashes.Pairwise (· < ·)) (hwo : ∀h∈hashes,h<2^64)
    (hf : ∀h∈hashes,h≠((2^64-1)^^^msgHash)+(2^64-1)) :
    Tries (tryOrder hashes msgHash) (· < hashes.length) fun ok => findBestConn ok hashes msgHash := by
  by_cases hne : hashes=[]
  · subst hne
    exact ⟨nodup_nil,fun i => by simp [tryOrder],fun ok => rfl⟩
  obtain ⟨hl,-,ha⟩ := bsearch_nearest ((2^64-1)^^^msgHash) hs hne
  simp only [tryOrder,findBestConn,if_neg hne]
  generalize (2^64-1)^^^msgHash=best at hf hl ha ⊢
  generalize bsearch best hashes=idx at hl ha ⊢
  have hr : ∀j<hashes.length,idx+1≤j → sub 64 (hashes.getD j 0) best<2^64-1 := by
    intro j hj hle
    have hi := getD_lt hs hle hj
    have hin : hashes.getD j 0∈hashes := by
      rw [getD_eq_getElem _ _ hj]
      exact getElem_mem hj
    have hj' := hf _ hin
    have hw := hwo _ hin
    rw [sub_of_le hw (by omega)]
    omega
  exact (tries_neighbours hr (by omega) (by omega)).cons (by omega) (by omega)

/-- The order in which connections are tried does not depend on which of them are usable. -/
theorem hash_scheduling_stable (calls : List Nat) (msgHash : Nat) (hword : ∀h∈calls,h<2^64)
    (hfar : ∀h∈addConns calls,h≠((2^64-1)^^^msgHash)+(2^64-1)) :
    (addConns calls).Pairwise (· < ·) ∧ (tryOrder (addConns calls) msgHash).Nodup ∧
      (∀ok,findBestConn ok (addConns calls) msgHash=firstOk ok (tryOrder (addConns calls) msgHash)) ∧
      (∀ok,findBestConn ok (addConns calls) msgHash=.null ↔ ∀i<(addConns calls).length,ok i=false) ∧
      ∀ok ok' c,findBestConn ok (addConns calls) msgHash=.conn c → (∀i,ok' i=true → ok i=true) → ok' c=true →
        findBestConn ok' (addConns calls) msgHash=.conn c := by
  obtain ⟨hs,hm⟩ := addConns_spec calls
  obtain ⟨hnd,ha,hr⟩ := tries_findBestConn hs (fun h hh => hword h (hm h hh)) hfar
  refine ⟨hs,hnd,hr,fun ok => ?_,fun ok ok' c hfd hsu hc => ?_⟩
  · simp only [hr,firstOk,← ha]
    cases hf : (tryOrder (addConns calls) msgHash).find? ok with
    | none => simpa using hf
    | some i => simpa using ⟨i,mem_of_find?_eq_some hf,find?_some hf⟩
  · rw [hr,firstOk_eq_conn] at hfd ⊢
    obtain ⟨-,as,bs,hap,has⟩ := hfd
    refine ⟨hc,as,bs,hap,fun i hi => ?_⟩
    have hn := has i hi
    cases hi' : ok' i
    · rfl
    · simp [hsu i hi'] at hn

theorem hash_scheduling_stable_three : findBestConn (fun i => i == 2) [4,8,9] (2^64-8)=.conn 2 := by
  have h : addConns [9,4,8,4]=[4,8,9] := by decide
  have hs := hash_scheduling_stable [9,4,8,4] (2^64-8) (by decide) (by rw [h]; decide +kernel)
  rw [h] at hs
  -- the connections 0 and 2, of which 2 is chosen, and then 2 alone
  exact hs.2.2.2.2 (fun i => i == 0 || i == 2) _ 2 (by decide +kernel) (by simp +contextual) rfl
end VetWaf.Sched
