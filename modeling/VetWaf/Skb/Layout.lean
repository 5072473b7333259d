import VetWaf.Skb.Fragment

namespace VetWaf.Skb
open List Outcome Frag Function

/-- The fragments in the first `n` slots -/
def slots (frags : Nat → Frag) (n : Nat) : List Frag := (List.range n).map frags

lemma length_slots (frags : Nat → Frag) (n : Nat) : (slots frags n).length=n := by rw [slots,length_map,length_range]

variable {frags : Nat → Frag} {n j nr start : Nat}
lemma getElem?_slots (hj : j<n) : (slots frags n)[j]?=some (frags j) := by
  rw [slots,getElem?_map,getElem?_range hj]
  rfl

lemma slots_eq {l : List Frag} (hl : l.length=n) (h : ∀j f,l[j]?=some f → frags j=f) : slots frags n=l := by
  refine ext_getElem? fun j => ?_
  by_cases hj : j<n
  · have hg := getElem?_eq_getElem (hl.symm ▸ hj : j<l.length)
    rw [getElem?_slots hj,hg,h j _ hg]
  · rw [getElem?_eq_none (by rw [length_slots]; omega),getElem?_eq_none (by omega)]

def sizes (row : List (Option Frag)) : Int := (row.map fun o => ((o.elim 0 size : Nat) : Int)).sum

lemma sizes_append (row row' : List (Option Frag)) : sizes (row++row')=sizes row+sizes row' := by
  rw [sizes,map_append,sum_append,sizes,sizes]

lemma sizes_cons (o : Option Frag) (row : List (Option Frag)) : sizes (o::row)=(o.elim 0 size : Nat)+sizes row := by
  rw [sizes,map_cons,sum_cons,sizes]

lemma sizes_set {row : List (Option Frag)} {o : Option Frag} (hj : row[j]?=some o) (f : Option Frag) :
    sizes (row.set j f)=sizes row+((f.elim 0 size : Nat)-(o.elim 0 size : Nat)) := by
  induction row generalizing j with
  | nil => cases hj
  | cons o' row ih =>
    cases j with
    | zero =>
      cases hj
      rw [set_cons_zero,sizes_cons,sizes_cons]
      omega
    | succ j =>
      rw [set_cons_succ,sizes_cons,sizes_cons,ih hj]
      omega

lemma sizes_take_drop (row : List (Option Frag)) (n : Nat) : sizes row=sizes (row.take n)+sizes (row.drop n) := by
  rw [← sizes_append,take_append_drop]

/-- The row with `n` free slots from `start` on -/
def gap (frags : Nat → Frag) (nr start n : Nat) : List (Option Frag) := (List.range (nr+n)).map fun j =>
    if j<start then some (frags j) else if j<start+n then none else some (frags (j-n))

lemma length_gap (frags : Nat → Frag) (nr start n : Nat) : (gap frags nr start n).length=nr+n := by
  rw [gap,length_map,length_range]

lemma getElem?_gap (hj : j<nr+n) : (gap frags nr start n)[j]?=some
      (if j<start then some (frags j) else if j<start+n then none else some (frags (j-n))) := by
  rw [gap,getElem?_map,getElem?_range hj]
  rfl

lemma gap_eq (hst : start≤nr) : gap frags nr start n=((slots frags nr).take start).map some++List.replicate n none ++
      ((slots frags nr).drop start).map some := by
  refine ext_getElem? fun j => ?_
  have ht : (((slots frags nr).take start).map some).length=start := by
    rw [length_map,length_take,length_slots]
    omega
  rw [append_assoc]
  by_cases hj : j<nr+n
  · rw [getElem?_gap hj]
    by_cases hl : j<start
    · rw [if_pos hl,getElem?_append_left (by omega),getElem?_map,getElem?_take_of_lt hl,getElem?_slots (by omega)]
      rfl
    · rw [if_neg hl,getElem?_append_right (by omega),ht]
      by_cases hm : j<start+n
      · rw [if_pos hm,getElem?_append_left (by rw [length_replicate]; omega),getElem?_replicate_of_lt (by omega)]
      · rw [if_neg hm,getElem?_append_right (by rw [length_replicate]; omega),length_replicate,
          getElem?_map,getElem?_drop,getElem?_slots (by omega)]
        exact congrArg (fun k => some (some (frags k))) (by omega)
  · rw [getElem?_eq_none (by rw [length_gap]; omega),getElem?_eq_none]
    rw [length_append,length_append,ht,length_replicate,length_map,length_drop,length_slots]
    omega

lemma sizes_replicate (n : Nat) : sizes (List.replicate n none)=0 := by
  induction n with
  | zero => rfl
  | succ n ih => rw [replicate_succ,sizes_cons,ih]; rfl

lemma sizes_gap (hst : start≤nr) : sizes (gap frags nr start n)=sizes ((slots frags nr).map some) := by
  rw [gap_eq hst,sizes_append,sizes_append,sizes_replicate,add_zero,← sizes_append,← map_append,take_append_drop]

def SkBuff.fragList (s : SkBuff) : List Frag := slots s.frags s.nrFrags
def SkBuff.lin (s : SkBuff) : Nat×Nat×Nat×Nat×Bool := (s.ptr,s.data,s.tail,s.bufEnd,s.tailLock)

structure SkBuff.Ok (s : SkBuff) : Prop where
  lin_le : s.data ≤ s.tail
  nrFrags_le : s.nrFrags ≤ maxSkbFrags
  dataLen : s.dataLen=sizes (s.fragList.map some)
  headlen : s.headlen=s.tail-s.data

/-- The slot `j` of the row that a buffer and the next one have -/
def slotAt (s : SkBuff) (after : List SkBuff) (j : Nat) : Frag :=
  if j < maxSkbFrags then s.frags j
  else
    match after with
    | [] => default
    | nskb::_ => nskb.frags (j-maxSkbFrags)

lemma slotAt_of_lt {s : SkBuff} {after : List SkBuff} {j : Nat} (hj : j < maxSkbFrags) :
    slotAt s after j=s.frags j := if_pos hj

lemma slotAt_of_ge {s nskb : SkBuff} {after : List SkBuff} {j : Nat} (hj : maxSkbFrags≤j) :
    slotAt s (nskb::after) j=nskb.frags (j-maxSkbFrags) := if_neg (Nat.not_lt.2 hj)

/-- Where an excess of `nExcess` fragments goes. -/
inductive Spill (buf : Nat → Nat×Nat) (fresh nExcess : Nat) (after : List SkBuff) :
    SkBuff → List SkBuff → Nat → Prop where
  | next {base : SkBuff} {rest : List SkBuff} (hafter : after=base::rest) (hlin : base.headlen=0)
      (hroom : base.nrFrags+nExcess ≤ maxSkbFrags) : Spill buf fresh nExcess after base rest fresh
  | new : Spill buf fresh nExcess after (skbAlloc buf fresh 0) after (fresh+1)

/-- Buffer `nskb` is `base` with slots for the excess before its fragments. -/
structure Pushed (base nskb : SkBuff) (excess : List (Option Frag)) : Prop where
  lin : nskb.lin=base.lin
  headlen : nskb.headlen=base.headlen
  nrFrags : nskb.nrFrags=base.nrFrags+excess.length
  dataLen : nskb.dataLen=base.dataLen+sizes excess
  frags : ∀k,k<base.nrFrags → nskb.frags (k+excess.length)=base.frags k

/-- Buffers `s'` and `after'` have the fragments of a row in place of those of `s`. -/
structure Laid (buf : Nat → Nat×Nat) (fresh : Nat) (s : SkBuff) (after : List SkBuff) (row : List (Option Frag))
    (s' : SkBuff) (after' : List SkBuff) (fresh' : Nat) : Prop where
  lin : s'.lin=s.lin
  headlen : s'.headlen=s.headlen
  nrFrags : s'.nrFrags=min row.length maxSkbFrags
  dataLen : s'.dataLen=sizes (row.take maxSkbFrags)
  slot : ∀j f,row[j]?=some (some f) → slotAt s' after' j=f
  after : row.length ≤ maxSkbFrags ∧ after'=after ∧ fresh'=fresh ∨
    maxSkbFrags<row.length ∧ ∃base rest nskb,after'=nskb::rest ∧
      Spill buf fresh (row.length-maxSkbFrags) after base rest fresh' ∧ Pushed base nskb (row.drop maxSkbFrags)

lemma moveExcess_spec (src : Nat → Frag) (n lo i : Nat) (dst : Nat → Frag) (e : Nat) :
    (∀j,(moveExcess src n lo i (dst,e)).1 j =
      if lo≤j ∧ j < i then src (maxSkbFrags-n+j) else dst j) ∧ ((moveExcess src n lo i (dst,e)).2 : Int)=e +
      sizes ((List.range i).map fun j => if j<lo then none else some (src (maxSkbFrags-n+j))) := by
  induction i generalizing dst e with
  | zero => exact ⟨fun j => by simp [moveExcess],by simp [moveExcess,sizes]⟩
  | succ i ih =>
    rw [moveExcess]
    by_cases hl : i<lo
    · simp only [if_pos hl]
      constructor
      · intro j
        rw [if_neg (by omega)]
      · have hn : (List.range (i+1)).map (fun j => if j<lo then none else some (src (maxSkbFrags-n+j))) =
            List.replicate (i+1) none := by
          refine eq_replicate_iff.2 ⟨by rw [length_map,length_range],fun o ho => ?_⟩
          obtain ⟨j,hj,rfl⟩ := mem_map.1 ho
          have hlt := mem_range.1 hj
          exact if_pos (by omega)
        rw [hn,sizes_replicate,add_zero]
    · simp only [if_neg hl]
      obtain ⟨hd,he⟩ := ih (update dst i (src (maxSkbFrags - n+i))) (e+(src (maxSkbFrags-n+i)).size)
      constructor
      · intro j
        rw [hd]
        by_cases hji : j=i
        · subst hji
          rw [if_neg (by omega),if_pos (by omega),update_self]
        · rw [update_of_ne hji]
          by_cases hj : lo≤j ∧ j < i
          · rw [if_pos hj,if_pos (by omega)]
          · rw [if_neg hj,if_neg (by omega)]
      · rw [he,range_succ,map_append,sizes_append,map_singleton,if_neg hl,sizes_cons]
        simp only [Option.elim_some,sizes,map_nil,sum_nil,Int.natCast_add]
        omega

lemma drop_gap (frags : Nat → Frag) (nr : Nat) (hst : start ≤ maxSkbFrags) (hn : n ≤ maxSkbFrags) :
    (gap frags nr start n).drop maxSkbFrags=(List.range (nr+n-maxSkbFrags)).map fun j =>
      if j<start+n-maxSkbFrags then none else some (frags (maxSkbFrags-n+j)) := by
  refine ext_getElem? fun j => ?_
  rw [getElem?_drop]
  by_cases hj : j<nr+n-maxSkbFrags
  · rw [getElem?_gap (by omega),getElem?_map,getElem?_range hj,Option.map_some]
    by_cases hf : j<start+n-maxSkbFrags
    · rw [if_pos hf]
      rw [if_neg (by omega),if_pos (by omega)]
    · rw [if_neg hf,if_neg (by omega),if_neg (by omega)]
      exact congrArg (fun k => some (some (frags k))) (by omega)
  · rw [getElem?_eq_none (by rw [length_gap]; omega),getElem?_eq_none]
    rw [length_map,length_range]
    omega

variable {buf : Nat → Nat×Nat} {fresh start n nExcess : Nat} {s : SkBuff} {after : List SkBuff}
lemma shiftTail_ok (hle : nExcess ≤ s.nrFrags-start+1) : shiftTail s start n nExcess=.ok {s with
      frags:=shiftFrags s.frags start n (s.nrFrags-start-nExcess)
      nrFrags:=s.nrFrags+n-nExcess} := if_neg (by omega)

lemma excessSkb_spec (buf : Nat → Nat×Nat) (fresh : Nat) {nExcess : Nat} (hle : nExcess ≤ maxSkbFrags)
    (after : List SkBuff) : ∃nskb rest fresh' base,excessSkb buf fresh nExcess after=.ok (nskb,rest,fresh') ∧
      Spill buf fresh nExcess after base rest fresh' ∧ Pushed base nskb (List.replicate nExcess none) := by
  have hn : Pushed (skbAlloc buf fresh 0) (skbAlloc buf fresh nExcess) (List.replicate nExcess none) := by
    refine ⟨rfl,rfl,?_,?_,fun k hk => nomatch hk⟩
    · rw [length_replicate]
      exact (Nat.zero_add _).symm
    · rw [sizes_replicate]
      rfl
  cases after with
  | nil => exact ⟨_,_,_,_,rfl,.new,hn⟩
  | cons nskb rest =>
    rw [excessSkb]
    split_ifs with hnx
    · obtain ⟨hl,hr⟩ := hnx
      rw [shiftTail_ok zero_le,ok_bind]
      refine ⟨_,_,_,nskb,rfl,.next rfl hl ?_,rfl,rfl,?_,?_,?_⟩
      · omega
      · rw [length_replicate]
        rfl
      · rw [sizes_replicate,add_zero]
      · intro k hk
        rw [length_replicate]
        change shiftFrags nskb.frags 0 nExcess (nskb.nrFrags-0-0) (k+nExcess)=nskb.frags k
        rw [shiftFrags,if_pos (by omega),Nat.add_sub_cancel]
    · exact ⟨_,_,_,_,rfl,.new,hn⟩

section
variable (buf : Nat → Nat×Nat) (fresh : Nat) (after : List SkBuff) (hok : s.Ok)
include hok
lemma extendPgfrags_fit (hst : start ≤ s.nrFrags) (hp : 0<n) (hn : n≤2)
    (hf : s.nrFrags+n ≤ maxSkbFrags) : ∃s',extendPgfrags buf fresh s after start n=.ok (s',after,fresh) ∧
      Laid buf fresh s after (gap s.frags s.nrFrags start n) s' after fresh := by
  have hl := length_gap s.frags s.nrFrags start n
  unfold extendPgfrags
  rw [if_neg (by omega),if_pos hf,shiftTail_ok zero_le,ok_bind]
  refine ⟨_,rfl,rfl,rfl,?_,?_,?_,.inl ⟨by omega,rfl,rfl⟩⟩
  · rw [hl,Nat.min_eq_left hf]
    rfl
  · rw [take_of_length_le (by omega),sizes_gap hst]
    exact hok.dataLen
  · intro j f hj
    have hlt := (List.getElem?_eq_some_iff.1 hj).1
    rw [hl] at hlt
    rw [getElem?_gap hlt] at hj
    rw [slotAt_of_lt (by omega)]
    change shiftFrags s.frags start n (s.nrFrags-start-0) j=f
    unfold shiftFrags
    split_ifs at hj with hlo hm
    · rw [if_neg (by omega)]
      exact Option.some.inj (Option.some.inj hj)
    · cases hj
    · rw [if_pos (by omega)]
      exact Option.some.inj (Option.some.inj hj)

lemma extendPgfrags_last (hp : 0<n) (hn : n≤2) (hexc : maxSkbFrags<s.nrFrags+n) :
    ∃s' after' fresh',extendPgfrags buf fresh s after s.nrFrags n=.ok (s',after',fresh') ∧
      Laid buf fresh s after (gap s.frags s.nrFrags s.nrFrags n) s' after' fresh' := by
  have hm : maxSkbFrags=17 := rfl
  have hle := hok.nrFrags_le
  have hl := length_gap s.frags s.nrFrags s.nrFrags n
  have hno : (gap s.frags s.nrFrags s.nrFrags n).drop maxSkbFrags = List.replicate (s.nrFrags+n-maxSkbFrags) none := by
    rw [drop_gap _ _ hle (by omega)]
    refine eq_replicate_iff.2 ⟨by rw [length_map,length_range],fun o ho => ?_⟩
    obtain ⟨j,hj,rfl⟩ := mem_map.1 ho
    exact if_pos (mem_range.1 hj)
  have hs := sizes_take_drop (gap s.frags s.nrFrags s.nrFrags n) maxSkbFrags
  rw [sizes_gap le_rfl,← SkBuff.fragList,← hok.dataLen,hno,sizes_replicate,add_zero] at hs
  obtain ⟨nskb,rest,fresh',base,he,hsl,hpu⟩ :=
    excessSkb_spec buf fresh (show s.nrFrags+n-maxSkbFrags ≤ maxSkbFrags by omega) after
  unfold extendPgfrags
  rw [if_neg (by omega),if_neg (by omega)]
  simp only [he,ok_bind,Nat.sub_self,if_pos]
  refine ⟨_,_,_,rfl,rfl,rfl,?_,hs,?_,.inr ⟨by omega,base,rest,nskb,rfl,?_,?_⟩⟩
  · rw [hl]
    change s.nrFrags+n-(s.nrFrags+n-maxSkbFrags)=_
    omega
  · intro j f hj
    have hlt := (List.getElem?_eq_some_iff.1 hj).1
    rw [hl] at hlt
    rw [getElem?_gap hlt] at hj
    split_ifs at hj with hlo
    · rw [slotAt_of_lt (by omega)]
      exact Option.some.inj (Option.some.inj hj)
    · cases hj
  · rw [hl]
    exact hsl
  · rw [hno]
    exact hpu

lemma extendPgfrags_moved (hst : start<s.nrFrags) (hp : 0<n) (hn : n≤2) (hexc : maxSkbFrags<s.nrFrags+n) :
    ∃s' after' fresh',extendPgfrags buf fresh s after start n=.ok (s',after',fresh') ∧
      Laid buf fresh s after (gap s.frags s.nrFrags start n) s' after' fresh' := by
  have hm : maxSkbFrags=17 := rfl
  have hle := hok.nrFrags_le
  have hl := length_gap s.frags s.nrFrags start n
  have hln : ((gap s.frags s.nrFrags start n).drop maxSkbFrags).length=s.nrFrags+n-maxSkbFrags := by rw [length_drop,hl]
  have hsl := sizes_take_drop (gap s.frags s.nrFrags start n) maxSkbFrags
  rw [sizes_gap (Nat.le_of_lt hst),← SkBuff.fragList,← hok.dataLen] at hsl
  obtain ⟨nskb,rest,fresh',base,he,hsp,hpu⟩ :=
    excessSkb_spec buf fresh (show s.nrFrags+n-maxSkbFrags ≤ maxSkbFrags by omega) after
  -- the fragments that are moved are those of the row that do not fit
  obtain ⟨hmo,hs⟩ := moveExcess_spec s.frags n (s.nrFrags+n - maxSkbFrags - (s.nrFrags - start))
    (s.nrFrags+n-maxSkbFrags) nskb.frags 0
  rw [show s.nrFrags+n-maxSkbFrags-(s.nrFrags-start)=start+n-maxSkbFrags by omega] at hmo hs
  rw [← drop_gap _ _ (by omega) (by omega)] at hs
  unfold extendPgfrags
  rw [if_neg (by omega),if_neg (by omega)]
  simp only [he,ok_bind,if_neg (show ¬s.nrFrags-start=0 by omega),
    show s.nrFrags+n-maxSkbFrags-(s.nrFrags-start)=start+n-maxSkbFrags by omega]
  generalize moveExcess s.frags n (start+n-maxSkbFrags) (s.nrFrags+n-maxSkbFrags) (nskb.frags,0)=moved at hmo hs
  obtain ⟨frags,eSize⟩ := moved
  replace hmo : ∀j,frags j=if start+n-maxSkbFrags≤j ∧ j<s.nrFrags+n-maxSkbFrags then
      s.frags (maxSkbFrags-n+j) else nskb.frags j := hmo
  replace hs : (eSize : Int)=sizes ((gap s.frags s.nrFrags start n).drop maxSkbFrags) := by simpa using hs
  have hsh : shiftTail (s.adjustDataLen (-eSize)) start n (s.nrFrags+n-maxSkbFrags)=.ok _ :=
    shiftTail_ok (show s.nrFrags+n-maxSkbFrags ≤ s.nrFrags-start+1 by omega)
  simp only [hsh,ok_bind]
  refine ⟨_,_,_,rfl,rfl,?_,?_,?_,?_,.inr ⟨by omega,base,rest,_,rfl,hl ▸ hsp,?_⟩⟩
  · change s.len + -eSize-(s.dataLen + -eSize)=s.len-s.dataLen
    omega
  · rw [hl]
    change s.nrFrags+n-(s.nrFrags+n-maxSkbFrags)=_
    omega
  · change s.dataLen + -eSize=_
    omega
  · intro j f hj
    have hlt := (List.getElem?_eq_some_iff.1 hj).1
    rw [hl] at hlt
    rw [getElem?_gap hlt] at hj
    by_cases hh : j < maxSkbFrags
    · rw [slotAt_of_lt hh]
      change shiftFrags s.frags start n (s.nrFrags-start-(s.nrFrags+n-maxSkbFrags)) j=f
      unfold shiftFrags
      split_ifs at hj with hlo hmi
      · rw [if_neg (by omega)]
        exact Option.some.inj (Option.some.inj hj)
      · cases hj
      · rw [if_pos (by omega)]
        exact Option.some.inj (Option.some.inj hj)
    · rw [slotAt_of_ge (by omega)]
      change frags (j-maxSkbFrags)=f
      rw [hmo]
      split_ifs at hj with hlo hmi
      · omega
      · cases hj
      · rw [if_pos (by omega),show maxSkbFrags-n+(j-maxSkbFrags)=j-n by omega]
        exact Option.some.inj (Option.some.inj hj)
  · have hf := hpu.frags
    have hnr := hpu.nrFrags
    have hd := hpu.dataLen
    rw [length_replicate] at hf hnr
    rw [sizes_replicate,add_zero] at hd
    refine ⟨hpu.lin,?_,hln.symm ▸ hnr,?_,?_⟩
    · rw [← hpu.headlen]
      change nskb.len+eSize-(nskb.dataLen+eSize)=nskb.len-nskb.dataLen
      omega
    · change nskb.dataLen+eSize=_
      rw [hd,hs]
    · intro k hk
      rw [hln]
      change frags (k+(s.nrFrags+n-maxSkbFrags))=base.frags k
      rw [hmo,if_neg (by omega),hf k hk]

lemma extendPgfrags_laid (hst : start ≤ s.nrFrags) (hp : 0<n) (hn : n≤2) :
    ∃s' after' fresh',extendPgfrags buf fresh s after start n=.ok (s',after',fresh') ∧
      Laid buf fresh s after (gap s.frags s.nrFrags start n) s' after' fresh' := by
  by_cases hf : s.nrFrags+n ≤ maxSkbFrags
  · obtain ⟨s',he,hl⟩ := extendPgfrags_fit buf fresh after hok hst hp hn hf
    exact ⟨s',after,fresh,he,hl⟩
  · obtain hlt | rfl := Nat.lt_or_eq_of_le hst
    · exact extendPgfrags_moved buf fresh after hok hlt hp hn (Nat.lt_of_not_le hf)
    · exact extendPgfrags_last buf fresh after hok hp hn (Nat.lt_of_not_le hf)

end

/-- Slot `j` of the row gets fragment `f`. -/
def refill (s : SkBuff) (after : List SkBuff) (j : Nat) (f : Frag) (delta : Int) : SkBuff×List SkBuff :=
  if j < maxSkbFrags then ((s.fillPageDesc j f).adjustDataLen delta,after)
  else
    match after with
    | [] => (s,[])
    | nskb::after => (s,(nskb.fillPageDesc (j-maxSkbFrags) f).adjustDataLen delta::after)

lemma fill_headlen (s : SkBuff) (j : Nat) (f : Frag) (delta : Int) :
    ((s.fillPageDesc j f).adjustDataLen delta).headlen=s.headlen := by
  change s.len+delta-(s.dataLen+delta)=s.len-s.dataLen
  omega

lemma fill_frags_self (s : SkBuff) (j : Nat) (f : Frag) (delta : Int) :
    ((s.fillPageDesc j f).adjustDataLen delta).frags j=f := update_self ..

lemma fill_frags_ne (s : SkBuff) {i j : Nat} (hi : i≠j) (f : Frag) (delta : Int) :
    ((s.fillPageDesc j f).adjustDataLen delta).frags i=s.frags i := update_of_ne hi ..

variable {row : List (Option Frag)} {s' : SkBuff} {after' : List SkBuff} {fresh' j : Nat} {o : Option Frag}
lemma Pushed.refill {base nskb : SkBuff} {excess : List (Option Frag)} (h : Pushed base nskb excess)
    (hj : excess[j]?=some o) (f : Frag) :
    Pushed base ((nskb.fillPageDesc j f).adjustDataLen ((f.size : Int)-(o.elim 0 size : Nat)))
      (excess.set j (some f)) := by
  have hlt := (List.getElem?_eq_some_iff.1 hj).1
  refine ⟨h.lin,?_,?_,?_,?_⟩
  · rw [fill_headlen]
    exact h.headlen
  · rw [length_set]
    exact h.nrFrags
  · rw [sizes_set hj,← add_assoc,← h.dataLen]
    rfl
  · intro k hk
    rw [length_set,fill_frags_ne _ (by omega)]
    exact h.frags k hk

lemma Laid.refill (h : Laid buf fresh s after row s' after' fresh') (hj : row[j]?=some o) (f : Frag) :
    Laid buf fresh s after (row.set j (some f)) (Skb.refill s' after' j f ((f.size : Int)-(o.elim 0 size : Nat))).1
      (Skb.refill s' after' j f ((f.size : Int)-(o.elim 0 size : Nat))).2 fresh' := by
  have hlt := (List.getElem?_eq_some_iff.1 hj).1
  unfold Skb.refill
  by_cases hh : j < maxSkbFrags
  · simp only [if_pos hh]
    have hd : (row.set j (some f)).drop maxSkbFrags=row.drop maxSkbFrags := by rw [drop_set,if_pos hh]
    refine ⟨h.lin,(fill_headlen ..).trans h.headlen,?_,?_,?_,?_⟩
    · rw [length_set]
      exact h.nrFrags
    · have hj' : (row.take maxSkbFrags)[j]?=some o := (getElem?_take_of_lt hh).trans hj
      rw [take_set,sizes_set hj',← h.dataLen]
      rfl
    · intro i g hi
      by_cases hij : i=j
      · subst hij
        rw [getElem?_set_self hlt] at hi
        rw [slotAt_of_lt hh,fill_frags_self]
        exact Option.some.inj (Option.some.inj hi)
      · rw [getElem?_set_ne (Ne.symm hij)] at hi
        rw [← h.slot i g hi]
        unfold slotAt
        rw [fill_frags_ne _ hij]
    · rw [length_set,hd]
      exact h.after
  · simp only [if_neg hh]
    obtain ⟨hr,base,rest,nskb,rfl,hs,hp⟩ := h.after.resolve_left (by omega)
    have hj' : (row.drop maxSkbFrags)[j-maxSkbFrags]?=some o := by
      rw [getElem?_drop,show maxSkbFrags+(j-maxSkbFrags)=j by omega]
      exact hj
    refine ⟨h.lin,h.headlen,?_,?_,?_,.inr ⟨?_,base,rest,_,rfl,?_,?_⟩⟩
    · rw [length_set]
      exact h.nrFrags
    · rw [take_set_of_le (by omega)]
      exact h.dataLen
    · intro i g hi
      by_cases hij : i=j
      · subst hij
        rw [getElem?_set_self hlt] at hi
        rw [slotAt_of_ge (by omega),fill_frags_self]
        exact Option.some.inj (Option.some.inj hi)
      · rw [getElem?_set_ne (Ne.symm hij)] at hi
        rw [← h.slot i g hi]
        unfold slotAt
        by_cases hi' : i < maxSkbFrags
        · rw [if_pos hi',if_pos hi']
        · rw [if_neg hi',if_neg hi']
          exact fill_frags_ne _ (by omega) ..
    · rw [length_set]
      exact hr
    · rw [length_set]
      exact hs
    · rw [drop_set,if_neg (by omega)]
      exact hp.refill hj' f

lemma newPgfrag_laid (buf : Nat → Nat×Nat) (fresh page size : Nat) (after : List SkBuff) {i : Nat} (hok : s.Ok)
    (hi : i ≤ s.nrFrags) (hp : 0<n) (hn : n≤2) :
    ∃s' after' fresh',newPgfrag buf fresh page s after size i n=.ok (s',after',fresh') ∧
      Laid buf fresh s after ((gap s.frags s.nrFrags i n).set i (some ⟨page,size⟩)) s' after' fresh' := by
  have hle := hok.nrFrags_le
  obtain ⟨s1,after1,fresh',he,hld⟩ := extendPgfrags_laid buf fresh after hok hi hp hn
  have hfr : (gap s.frags s.nrFrags i n)[i]?=some none := by
    rw [getElem?_gap (by omega),if_neg (Nat.lt_irrefl i),if_pos (by omega)]
  have hf := hld.refill hfr ⟨page,size⟩
  rw [Option.elim_none,Int.natCast_zero,Int.sub_zero] at hf
  unfold newPgfrag
  rw [if_neg (by omega),he,ok_bind]
  by_cases hla : i=maxSkbFrags
  · have hl := length_gap s.frags s.nrFrags i n
    obtain ⟨-,base,rest,nskb,rfl,-,-⟩ := hld.after.resolve_left (by omega)
    unfold Skb.refill at hf
    rw [if_neg (by omega),hla,Nat.sub_self] at hf
    rw [hla] at *
    exact ⟨_,_,_,rfl,hf⟩
  · unfold Skb.refill at hf
    rw [if_pos (by omega)] at hf
    simp only [if_neg hla]
    exact ⟨_,_,_,rfl,hf⟩

lemma gap_one (hst : start≤nr) (f : Frag) : (gap frags nr start 1).set start (some f) =
      ((slots frags nr).take start++f::(slots frags nr).drop start).map some := by
  have hl : (((slots frags nr).take start).map some).length=start := by
    rw [length_map,length_take,length_slots]
    omega
  rw [gap_eq hst,append_assoc,set_append_right _ _ (Nat.le_of_eq hl),hl,Nat.sub_self,map_append,map_cons]
  rfl

lemma gap_two (hst : start≤nr) (f g : Frag) : ((gap frags nr start 2).set start (some f)).set (start+1) (some g) =
      ((slots frags nr).take start++f::g::(slots frags nr).drop start).map some := by
  have hl : (((slots frags nr).take start).map some).length=start := by
    rw [length_map,length_take,length_slots]
    omega
  rw [gap_eq hst,append_assoc,set_append_right _ _ (Nat.le_of_eq hl),hl,Nat.sub_self,
    set_append_right _ _ (by omega),hl,Nat.add_sub_cancel_left,map_append,map_cons,map_cons]
  rfl

/-- Buffers `s'` and `after'` have the fragments of `l` in place of those of `s`. -/
structure Relaid (buf : Nat → Nat×Nat) (fresh : Nat) (s : SkBuff) (after : List SkBuff) (l : List Frag)
    (s' : SkBuff) (after' : List SkBuff) (fresh' : Nat) : Prop where
  lin : s'.lin=s.lin
  headlen : s'.headlen=s.headlen
  fragList : s'.fragList=l.take maxSkbFrags
  dataLen : s'.dataLen=sizes (s'.fragList.map some)
  after : l.length ≤ maxSkbFrags ∧ after'=after ∧ fresh'=fresh ∨
    maxSkbFrags<l.length ∧ ∃base rest nskb,after'=nskb::rest ∧
      Spill buf fresh (l.length-maxSkbFrags) after base rest fresh' ∧ nskb.lin=base.lin ∧
      nskb.headlen=base.headlen ∧ nskb.fragList=l.drop maxSkbFrags++base.fragList ∧
      nskb.dataLen=base.dataLen+sizes ((l.drop maxSkbFrags).map some)

lemma Laid.relaid {l : List Frag} (h : Laid buf fresh s after (l.map some) s' after' fresh') :
    Relaid buf fresh s after l s' after' fresh' := by
  have hs : ∀j f,l[j]?=some f → slotAt s' after' j=f := fun j f hj => h.slot j f (by rw [getElem?_map,hj]; rfl)
  have hn := h.nrFrags
  have ha := h.after
  rw [length_map] at hn ha
  have hf : s'.fragList=l.take maxSkbFrags := by
    refine slots_eq (by rw [length_take,hn,Nat.min_comm]) fun j f hj => ?_
    have hlt := (List.getElem?_eq_some_iff.1 hj).1
    rw [length_take] at hlt
    rw [getElem?_take_of_lt (by omega)] at hj
    rw [← hs j f hj,slotAt_of_lt (by omega)]
  refine ⟨h.lin,h.headlen,hf,?_,?_⟩
  · rw [hf,map_take]
    exact h.dataLen
  · obtain hfi | ⟨he,base,rest,nskb,rfl,hsp,hp⟩ := ha
    · exact .inl hfi
    · have hl : ((l.map some).drop maxSkbFrags).length=l.length-maxSkbFrags := by rw [length_drop,length_map]
      refine .inr ⟨he,base,rest,nskb,rfl,hsp,hp.lin,hp.headlen,?_,?_⟩
      · refine slots_eq ?_ fun j f hj => ?_
        · rw [length_append,length_drop,SkBuff.fragList,length_slots,hp.nrFrags,hl,Nat.add_comm]
        · by_cases hlo : j<l.length-maxSkbFrags
          · rw [getElem?_append_left (by rw [length_drop]; exact hlo),getElem?_drop] at hj
            rw [← hs _ f hj,slotAt_of_ge (by omega),Nat.add_sub_cancel_left]
          · have hlt := (List.getElem?_eq_some_iff.1 hj).1
            rw [length_append,length_drop,SkBuff.fragList,length_slots] at hlt
            rw [getElem?_append_right (by rw [length_drop]; omega),length_drop,SkBuff.fragList,
              getElem?_slots (by omega)] at hj
            have hpu := hp.frags (j-(l.length-maxSkbFrags)) (by omega)
            rw [hl,Nat.sub_add_cancel (by omega)] at hpu
            rw [hpu]
            exact Option.some.inj hj
      · rw [map_drop]
        exact hp.dataLen
end VetWaf.Skb
