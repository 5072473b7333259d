import Mathlib.Order.Nat

namespace VetWaf
open List Nat
variable {α P : Type*}

/-- `lane` is what has entered the lane, of which `taken` works are taken already. -/
structure Lanes (α : Type*) where
  lane : List α
  taken : Nat
  aside : List (Nat×α)
  out : List (Option Nat×α)

namespace Lanes

lemma getElem?_concat_some {l : List α} {x y : α} {i : Nat} (h : (l++[x])[i]?=some y) :
    l[i]?=some y ∨ i=l.length ∧ y=x := by
  obtain hi | hi | hi := lt_trichotomy i l.length
  · exact .inl (List.getElem?_append_left hi ▸ h)
  · rw [hi,getElem?_concat_length] at h
    exact .inr ⟨hi,(Option.some.inj h).symm⟩
  · rw [getElem?_eq_none (by rw [length_append]; exact hi)] at h
    cases h

/-- The first work comes before the second one, if they are of one owner. -/
def Before (owner : α → P) (num : α → Nat) (x y : α) : Prop := owner x=owner y → num x<num y

/-- The works of a list that are from the lane -/
def laneWorks (out : List (Option Nat×α)) : List α := out.filterMap fun o => if o.1.isNone then some o.2 else none

lemma laneWorks_append (out out' : List (Option Nat×α)) :
    laneWorks (out++out')=laneWorks out++laneWorks out' := filterMap_append

/-- The work waits in the lane or aside. -/
inductive Waits (s : Lanes α) (x : α) : Prop where
  | lane (i : Nat) (hi : s.taken ≤ i) (hx : s.lane[i]?=some x)
  | aside (t : Nat) (hx : (t,x)∈s.aside)

/-- Every work that has come is as `q` says. -/
structure All (q : α → Prop) (s : Lanes α) : Prop where
  lane : ∀y∈s.lane,q y
  aside : ∀n∈s.aside,q n.2
  out : ∀o∈s.out,q o.2

/-- The work comes after all that have come. -/
abbrev Latest (owner : α → P) (num : α → Nat) (s : Lanes α) (x : α) : Prop := s.All fun y => Before owner num y x

/-- The works of each owner leave in their order. -/
structure Ordered (owner : α → P) (num : α → Nat) (s : Lanes α) : Prop where
  le : s.taken ≤ s.lane.length
  lane : s.lane.Pairwise (Before owner num)
  aside : s.aside.Pairwise fun n m => n.1 ≤ m.1 ∧ Before owner num n.2 m.2
  bound : ∀n∈s.aside,n.1 ≤ s.lane.length
  cross : ∀ (i : Nat) x,s.lane[i]?=some x → ∀n∈s.aside,owner x=owner n.2 →
    i<n.1 ∧ num x<num n.2 ∨ n.1 ≤ i ∧ num n.2<num x
  out : s.out.Pairwise fun o o' => Before owner num o.2 o'.2
  later : ∀o∈s.out,∀x,s.Waits x → Before owner num o.2 x
  works : laneWorks s.out=s.lane.take s.taken
  tickets : ∀pre t x post,s.out=pre++(some t,x)::post → t≤(laneWorks pre).length

lemma ordered_empty (owner : α → P) (num : α → Nat) : Ordered owner num (⟨[],0,[],[]⟩ : Lanes α) where
  le := le_refl _
  lane := .nil
  aside := .nil
  bound _ h := nomatch h
  cross _ _ h := nomatch h
  out := .nil
  later _ h := nomatch h
  works := rfl
  tickets pre t x post h := by cases pre <;> cases h

variable {owner : α → P} {num : α → Nat} {s : Lanes α} {x : α} {t : Nat}
section
variable (h : Ordered owner num s)
include h
lemma Ordered.enter (hx : Latest owner num s x) : Ordered owner num {s with lane:=s.lane++[x]} where
  le := by
    rw [length_append]
    exact h.le.trans (le_add_right _ _)
  lane := by
    refine pairwise_append.2 ⟨h.lane,pairwise_singleton _ _,?_⟩
    intro y hy z hz
    rw [mem_singleton.1 hz]
    exact hx.lane y hy
  aside := h.aside
  bound n hn := by
    rw [length_append]
    exact (h.bound n hn).trans (le_add_right _ _)
  cross i y hy n hn hon := by
    obtain hy | ⟨hi,hyx⟩ := getElem?_concat_some hy
    · exact h.cross i y hy n hn hon
    · subst hyx
      exact .inr ⟨hi ▸ h.bound n hn,hx.aside n hn hon.symm⟩
  out := h.out
  later o ho y hy := by
    cases hy with
    | lane i hi hy =>
      obtain hy | ⟨-,hyx⟩ := getElem?_concat_some hy
      · exact h.later o ho y (.lane i hi hy)
      · rw [hyx]
        exact hx.out o ho
    | aside t hy => exact h.later o ho y (.aside t hy)
  works := by
    rw [take_append_of_le_length h.le]
    exact h.works
  tickets := h.tickets

/-- A work goes aside with a ticket that is not below those that wait there, and is above the positions of the works
of its owner. -/
lemma Ordered.setAside (hx : Latest owner num s x) (hb : t ≤ s.lane.length)
    (hma : ∀n∈s.aside,n.1≤t) (hl : ∀ (i : Nat) y,s.lane[i]?=some y → owner y=owner x → i<t) :
    Ordered owner num {s with aside:=s.aside++[(t,x)]} where
  le := h.le
  lane := h.lane
  aside := by
    refine pairwise_append.2 ⟨h.aside,pairwise_singleton _ _,?_⟩
    intro n hn m hm
    rw [mem_singleton.1 hm]
    exact ⟨hma n hn,hx.aside n hn⟩
  bound n hn := by
    obtain hn | hn := mem_append.1 hn
    · exact h.bound n hn
    · rw [mem_singleton.1 hn]
      exact hb
  cross i y hy n hn hon := by
    obtain hn | hn := mem_append.1 hn
    · exact h.cross i y hy n hn hon
    · rw [mem_singleton.1 hn] at hon ⊢
      exact .inl ⟨hl i y hy hon,hx.lane y (mem_of_getElem? hy) hon⟩
  out := h.out
  later o ho y hy := by
    cases hy with
    | lane i hi hy => exact h.later o ho y (.lane i hi hy)
    | aside t' hy =>
      obtain hy | hy := mem_append.1 hy
      · exact h.later o ho y (.aside t' hy)
      · injection mem_singleton.1 hy with _ hyx
        rw [hyx]
        exact hx.out o ho
  works := h.works
  tickets := h.tickets

/-- The next work of the lane is taken while all tickets are above its position. -/
lemma Ordered.takeLane (hx : s.lane[s.taken]?=some x) (hf : ∀n∈s.aside,s.taken<n.1) :
    Ordered owner num {s with taken:=s.taken+1, out:=s.out++[(none,x)]} where
  le := (List.getElem?_eq_some_iff.1 hx).1
  lane := h.lane
  aside := h.aside
  bound := h.bound
  cross := h.cross
  out := by
    refine pairwise_append.2 ⟨h.out,pairwise_singleton _ _,?_⟩
    intro o ho o' ho'
    rw [mem_singleton.1 ho']
    exact h.later o ho x (.lane _ (Nat.le_refl _) hx)
  later o ho y hy := by
    obtain ho | ho := mem_append.1 ho
    · refine h.later o ho y ?_
      cases hy with
      | lane i hi hy => exact .lane i (Nat.le_of_succ_le hi) hy
      | aside t hy => exact .aside t hy
    · rw [mem_singleton.1 ho]
      intro hon
      cases hy with
      | lane i hi hy =>
        obtain ⟨hlt,hxe⟩ := List.getElem?_eq_some_iff.1 hx
        obtain ⟨hlt',hye⟩ := List.getElem?_eq_some_iff.1 hy
        have hr := pairwise_iff_getElem.1 h.lane s.taken i hlt hlt' hi
        rw [hxe,hye] at hr
        exact hr hon
      | aside t hy =>
        obtain hlt | hge := h.cross s.taken x hx (t,y) hy hon
        · exact hlt.2
        · exact absurd hge.1 (Nat.not_le_of_lt (hf (t,y) hy))
  works := by
    rw [laneWorks_append,h.works,take_add_one,hx]
    rfl
  tickets pre t y post hs := by
    obtain rfl | ⟨post,o,rfl⟩ := eq_nil_or_concat post
    · have hl := append_inj_right' hs rfl
      cases hl
    · rw [concat_eq_append,← cons_append,← append_assoc] at hs
      exact h.tickets pre t y post (append_inj_left' hs rfl)

end

variable {rest : List (Nat×α)} {pre post : List (Option Nat×α)}

/-- The first work from aside is taken when the lane has been taken up to its ticket. -/
lemma Ordered.takeAside (h : Ordered owner num s) (hx : s.aside=(t,x)::rest)
    (ht : t ≤ s.taken) : Ordered owner num {s with aside:=rest, out:=s.out++[(some t,x)]} := by
  have hr : ∀n∈rest,n∈s.aside := fun n hn => hx ▸ mem_cons_of_mem _ hn
  have hm : (t,x)∈s.aside := hx ▸ (.head _)
  have ha := h.aside
  rw [hx,pairwise_cons] at ha
  constructor
  case le => exact h.le
  case lane => exact h.lane
  case aside => exact ha.2
  case bound => exact fun n hn => h.bound n (hr n hn)
  case cross => exact fun i y hy n hn => h.cross i y hy n (hr n hn)
  case out =>
    refine pairwise_append.2 ⟨h.out,pairwise_singleton _ _,?_⟩
    intro o ho o' ho'
    rw [mem_singleton.1 ho']
    exact h.later o ho x (.aside t hm)
  case later =>
    intro o ho y hy
    obtain ho | ho := mem_append.1 ho
    · refine h.later o ho y ?_
      cases hy with
      | lane i hi hy => exact .lane i hi hy
      | aside t' hy => exact .aside t' (hr _ hy)
    · rw [mem_singleton.1 ho]
      intro hon
      cases hy with
      | lane i hi hy =>
        -- the position is not taken yet, so it is not below the ticket
        obtain hlt | hge := h.cross i y hy (t,x) hm hon.symm
        · exact absurd hlt.1 (Nat.not_lt_of_le (ht.trans hi))
        · exact hge.2
      | aside t' hy => exact (ha.1 _ hy).2 hon
  case works =>
    rw [laneWorks_append,h.works]
    exact append_nil _
  case tickets =>
    intro pre t' y post hs
    obtain rfl | ⟨post,o,rfl⟩ := eq_nil_or_concat post
    · have hl := append_inj_right' hs rfl
      have hp := append_inj_left' hs rfl
      cases hl
      rw [← hp,h.works,length_take,Nat.min_eq_left h.le]
      exact ht
    · rw [concat_eq_append,← cons_append,← append_assoc] at hs
      exact h.tickets pre t' y post (append_inj_left' hs rfl)

/-- When a work from aside leaves, the works of the lane at the positions below its ticket have left. -/
lemma Ordered.take_ticket (h : Ordered owner num s)
    (ho : s.out=pre++(some t,x)::post) : s.lane.take t <+: laneWorks pre := by
  have hle := h.tickets pre t x post ho
  have hp : laneWorks pre <+: s.lane := by
    have hw := h.works
    rw [ho,laneWorks_append] at hw
    exact (prefix_append _ _).trans (hw ▸ take_prefix _ _)
  rw [prefix_iff_eq_take.1 hp]
  exact take_prefix_take_left hle

section
variable {q : α → Prop} (h : s.All q)
include h
lemma All.enter (hx : q x) : All q {s with lane:=s.lane++[x]} :=
  ⟨forall_mem_append.2 ⟨h.lane,forall_mem_singleton.2 hx⟩,h.aside,h.out⟩

lemma All.setAside (hx : q x) : All q {s with aside:=s.aside++[(t,x)]} :=
  ⟨h.lane,forall_mem_append.2 ⟨h.aside,forall_mem_singleton.2 hx⟩,h.out⟩

lemma All.takeLane (hx : s.lane[s.taken]?=some x) : All q {s with taken:=s.taken+1, out:=s.out++[(none,x)]} :=
  ⟨h.lane,h.aside,forall_mem_append.2 ⟨h.out,forall_mem_singleton.2 (h.lane x (mem_of_getElem? hx))⟩⟩

lemma All.takeAside {rest : List (Nat×α)} (hx : s.aside=(t,x)::rest) :
    All q {s with aside:=rest, out:=s.out++[(some t,x)]} := by
  have ha := h.aside
  rw [hx] at ha
  obtain ⟨hf,hr⟩ := forall_mem_cons.1 ha
  exact ⟨h.lane,hr,forall_mem_append.2 ⟨h.out,forall_mem_singleton.2 hf⟩⟩

end

/-- The work waits or has left. -/
def Has (s : Lanes α) (x : α) : Prop := s.Waits x ∨ ∃o,(o,x)∈s.out

variable {y : α}
lemma Has.enter (h : s.Has y) : Has {s with lane:=s.lane++[x]} y := by
  refine h.imp_left fun hy => ?_
  cases hy with
  | lane i hi hy =>
    refine .lane i hi ?_
    rw [List.getElem?_append_left (List.getElem?_eq_some_iff.1 hy).1]
    exact hy
  | aside t hy => exact .aside t hy

lemma Has.setAside (h : s.Has y) : Has {s with aside:=s.aside++[(t,x)]} y := by
  refine h.imp_left fun hy => ?_
  cases hy with
  | lane i hi hy => exact .lane i hi hy
  | aside t' hy => exact .aside t' (mem_append_left _ hy)

lemma Has.takeLane (h : s.Has y) (hx : s.lane[s.taken]?=some x) :
    Has {s with taken:=s.taken+1, out:=s.out++[(none,x)]} y := by
  obtain hy | ⟨o,ho⟩ := h
  · cases hy with
    | lane i hi hy =>
      obtain heq | hlt := eq_or_lt_of_le hi
      · rw [← heq,hx] at hy
        injection hy with hxy
        exact .inr ⟨none,mem_append_right _ (hxy ▸ (.head _))⟩
      · exact .inl (.lane i hlt hy)
    | aside t hy => exact .inl (.aside t hy)
  · exact .inr ⟨o,mem_append_left _ ho⟩

lemma Has.takeAside (h : s.Has y) (hx : s.aside=(t,x)::rest) :
    Has {s with aside:=rest, out:=s.out++[(some t,x)]} y := by
  obtain hy | ⟨o,ho⟩ := h
  · cases hy with
    | lane i hi hy => exact .inl (.lane i hi hy)
    | aside t' hy =>
      rw [hx] at hy
      obtain heq | hy := mem_cons.1 hy
      · injection heq with _ hyx
        exact .inr ⟨some t,mem_append_right _ (hyx ▸ (.head _))⟩
      · exact .inl (.aside t' hy)
  · exact .inr ⟨o,mem_append_left _ ho⟩

/-- When a work leaves, the works of its owner that came before it have left. -/
lemma Ordered.leaves_after (h : Ordered owner num s) {o : Option Nat}
    (hx : s.Has x) (ho : s.out=pre++(o,y)::post) (hon : owner x=owner y) (hn : num x<num y) : x∈pre.map Prod.snd := by
  have hy : (o,y)∈s.out := ho ▸ mem_append_right _ (.head _)
  obtain hx | ⟨o',hx⟩ := hx
  · exact absurd (h.later (o,y) hy x hx hon.symm) (lt_asymm hn)
  · have hp := h.out
    rw [ho] at hx hp
    obtain hx | hx := mem_append.1 hx
    · exact mem_map_of_mem hx
    · obtain heq | hx := mem_cons.1 hx
      · injection heq with _ hxy
        exact absurd hn (hxy ▸ lt_irrefl _)
      · have hl := (pairwise_cons.1 (pairwise_append.1 hp).2.1).1 (o',x) hx hon.symm
        exact absurd hl (lt_asymm hn)
end Lanes
end VetWaf
