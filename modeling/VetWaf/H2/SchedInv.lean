import VetWaf.Lib.Forest
import VetWaf.Lib.Outcome
import VetWaf.H2.Sched

namespace VetWaf.H2
open Function List Forest TfwStreamSched
namespace TfwStreamSched

def Busy (s : TfwStreamSched) (id : Nat) : Prop := s.isActive id=true ∨ s.activeCnt id≠0
instance (s : TfwStreamSched) (id : Nat) : Decidable (s.Busy id) := inferInstanceAs (Decidable (_ ∨ _))
def children (s : TfwStreamSched) (id : Nat) : List Nat := s.active id++s.blocked id

def stateOf (s : TfwStreamSched) (id : Nat) : TfwStreamSchedState :=
  match s.parent id with
  | none => .unknown
  | some _ => if s.Busy id then .active else .blocked

/-- The lists and the states are those of the tree, except that `x` may be in the wrong list or in none
when `but = some x`. -/
structure Linked (but : Option Nat) (s : TfwStreamSched) : Prop where
  active : ∀p c,but≠some c → (c∈s.active p ↔ s.parent c=some p ∧ s.Busy c)
  blocked : ∀p c,but≠some c → (c∈s.blocked p ↔ s.parent c=some p ∧ ¬s.Busy c)
  parent : ∀p c,c∈s.children p → s.parent c=some p
  nodup : ∀p,(s.active p).Nodup ∧ (s.blocked p).Nodup
  state : ∀c,but≠some c → s.schedState c=s.stateOf c

section
variable {s s' : TfwStreamSched} {id p x : Nat}

/-- The lists of `x` and the state of `x` are written. -/
structure Relisted (s s' : TfwStreamSched) : Prop where
  tree : s'.toPriTree=s.toPriTree
  totalWeight : s'.totalWeight=s.totalWeight
  activeCnt : s'.activeCnt=s.activeCnt

lemma Relisted.activeOf (h : Relisted s s') : s'.activeOf=s.activeOf := by
  have hi : s'.isActive=s.isActive := congrArg PriTree.isActive h.tree
  funext c
  rw [TfwStreamSched.activeOf,TfwStreamSched.activeOf,hi,h.activeCnt]

lemma perm_insertBackwardsByWeight (s : TfwStreamSched) (id : Nat) (l : List Nat) :
    (s.insertBackwardsByWeight id l).Perm (id::l) := by
  induction l with
  | nil => exact .refl _
  | cons pos prev ih =>
    rw [insertBackwardsByWeight]
    split_ifs
    · exact .refl _
    · exact (ih.cons pos).trans (.swap id pos prev)

lemma perm_insertByWeight (s : TfwStreamSched) (head : List Nat) (id : Nat) :
    (s.insertByWeight head id).Perm (id::head) := by
  refine (reverse_perm _).trans ?_
  exact (perm_insertBackwardsByWeight s id _).trans ((reverse_perm head).cons id)

lemma Linked.children (h : Linked none s) (p : Nat) : Children s.parent p (s.children p) := by
  have hm : ∀c,c∈s.children p ↔ s.parent c=some p := by
    intro c
    rw [TfwStreamSched.children,mem_append,h.active p c (by simp),h.blocked p c (by simp)]
    tauto
  refine ⟨?_,hm⟩
  refine nodup_append.2 ⟨(h.nodup p).1,(h.nodup p).2,?_⟩
  intro a ha b hb heq
  exact ((h.blocked p b (by simp)).1 hb).2 (heq ▸ ((h.active p a (by simp)).1 ha).2)

lemma Linked.not_mem {but : Option Nat} (h : Linked but s) (hid : s.parent id=none) (p : Nat) : id∉s.children p := by
  intro hm
  have hp := h.parent p id hm
  rw [hid] at hp
  cases hp

lemma Linked.congr {but : Option Nat} (h : Linked but s) (hp : ∀c,but≠some c → s'.parent c=s.parent c)
    (hbu : ∀c,but≠some c → (s'.Busy c ↔ s.Busy c)) (hse : ∀p c,but=some c → c∈s.children p → s'.parent c=some p)
    (ha : s'.active=s.active) (hb : s'.blocked=s.blocked) (hst : s'.schedState=s.schedState) : Linked but s' := by
  have hch : s'.children=s.children := by
    funext p
    rw [TfwStreamSched.children,TfwStreamSched.children,ha,hb]
  refine ⟨?_,?_,?_,?_,?_⟩
  · intro p c hc
    rw [ha,hp c hc,hbu c hc]
    exact h.active p c hc
  · intro p c hc
    rw [hb,hp c hc,hbu c hc]
    exact h.blocked p c hc
  · intro p c hm
    rw [hch] at hm
    by_cases hc : but=some c
    · exact hse p c hc hm
    · rw [hp c hc]
      exact h.parent p c hm
  · rw [ha,hb]
    exact h.nodup
  · intro c hc
    have hs : s'.stateOf c=s.stateOf c := by simp only [stateOf,hp c hc,hbu c hc]
    rw [hst,hs]
    exact h.state c hc

lemma Linked.weaken (h : Linked none s) (x : Nat) : Linked (some x) s :=
  ⟨fun p c _ => h.active p c (by simp),fun p c _ => h.blocked p c (by simp),h.parent,h.nodup,
    fun c _ => h.state c (by simp)⟩

lemma Linked.relist {a b : List Nat} (h : Linked (some x) s) (hp : s.parent x=some p)
    (ha : a.Nodup ∧ ∀c,c∈a ↔ c=x ∧ s.Busy x ∨ c∈(s.active p).erase x)
    (hb : b.Nodup ∧ ∀c,c∈b ↔ c=x ∧ ¬s.Busy x ∨ c∈(s.blocked p).erase x) : Linked none {s with
        active:=update s.active p a
        blocked:=update s.blocked p b
        schedState:=update s.schedState x (s.stateOf x)} := by
  have hs : ∀ {c},c≠x → some x≠some c := fun hc heq => hc (Option.some.inj heq).symm
  have ho : ∀q,q≠p → x∉s.children q := by
    intro q hq hm
    have hpa := h.parent q x hm
    rw [hp] at hpa
    exact hq (Option.some.inj hpa).symm
  have hac : ∀q c,c∈update s.active p a q ↔ s.parent c=some q ∧ s.Busy c := by
    intro q c
    by_cases hq : q=p
    · rw [hq,update_self,ha.2]
      by_cases hc : c=x
      · simp [hc,hp,(h.nodup p).1.not_mem_erase]
      · rw [mem_erase_of_ne hc,h.active p c (hs hc)]
        simp [hc]
    · rw [update_of_ne hq]
      by_cases hc : c=x
      · have hn : x∉s.active q := fun hm => ho q hq (mem_append_left _ hm)
        simp [hc,hp,hn,Ne.symm hq]
      · exact h.active q c (hs hc)
  have hbl : ∀q c,c∈update s.blocked p b q ↔ s.parent c=some q ∧ ¬s.Busy c := by
    intro q c
    by_cases hq : q=p
    · rw [hq,update_self,hb.2]
      by_cases hc : c=x
      · simp [hc,hp,(h.nodup p).2.not_mem_erase]
      · rw [mem_erase_of_ne hc,h.blocked p c (hs hc)]
        simp [hc]
    · rw [update_of_ne hq]
      by_cases hc : c=x
      · have hn : x∉s.blocked q := fun hm => ho q hq (mem_append_right _ hm)
        simp [hc,hp,hn,Ne.symm hq]
      · exact h.blocked q c (hs hc)
  refine ⟨fun q c _ => hac q c,fun q c _ => hbl q c,?_,?_,?_⟩
  · intro q c hc
    obtain hc | hc := mem_append.1 hc
    · exact ((hac q c).1 hc).1
    · exact ((hbl q c).1 hc).1
  · intro q
    by_cases hq : q=p
    · simp only [hq,update_self]
      exact ⟨ha.1,hb.1⟩
    · simp only [update_of_ne hq]
      exact h.nodup q
  · intro c _
    by_cases hc : c=x
    · rw [hc]
      exact update_self ..
    · exact (update_of_ne hc ..).trans (h.state c (hs hc))

lemma Linked.insertActive (h : Linked (some x) s) (hp : s.parent x=some p) (hb : s.Busy x)
    (hst : s.schedState x ≠ .active) : ∃s',s.insertActive x=.ok s' ∧ Linked none s' ∧ Relisted s s' := by
  have hco : ¬(s.isActive x=false ∧ s.activeCnt x=0 ∨ s.schedState x=.active) := by
    rintro (⟨hi,h0⟩ | heq)
    · obtain ha | hc := hb
      · simp [hi] at ha
      · exact hc h0
    · exact hst heq
  have hpe := perm_insertByWeight (s.listDelInit x) ((s.active p).erase x) x
  have hn := (h.nodup p).1.not_mem_erase (a := x)
  have hl := h.relist hp (b := (s.blocked p).erase x)
    ⟨hpe.nodup_iff.2 (nodup_cons.2 ⟨hn,(h.nodup p).1.erase x⟩),by
      intro c
      rw [hpe.mem_iff,mem_cons,and_iff_left hb]⟩
    ⟨(h.nodup p).2.erase x,by simp [hb]⟩
  refine ⟨_,?_,hl,⟨rfl,rfl,rfl⟩⟩
  simp only [TfwStreamSched.insertActive,hp,if_neg hco,listDelInit,update_self,update_idem,stateOf,if_pos hb]

lemma Linked.insertBlocked (h : Linked (some x) s) (hp : s.parent x=some p) (hi : ¬s.Busy x)
    (hst : s.schedState x ≠ .blocked) : ∃s',s.insertBlocked x=.ok s' ∧ Linked none s' ∧ Relisted s s' := by
  have hco : ¬(s.isActive x=true ∨ s.activeCnt x≠0 ∨ s.schedState x=.blocked) := by
    rintro (ha | hc | heq)
    · exact hi (.inl ha)
    · exact hi (.inr hc)
    · exact hst heq
  have hn := (h.nodup p).2.not_mem_erase (a := x)
  have hl := h.relist hp (a := (s.active p).erase x) ⟨(h.nodup p).1.erase x,by simp [hi]⟩
    ⟨nodup_cons.2 ⟨hn,(h.nodup p).2.erase x⟩,by
      intro c
      rw [mem_cons,and_iff_left hi]⟩
  refine ⟨_,?_,hl,⟨rfl,rfl,rfl⟩⟩
  simp only [TfwStreamSched.insertBlocked,hp,if_neg hco,listDelInit,update_self,update_idem,stateOf,if_neg hi]

lemma Linked.unlink (h : Linked none s) (hp : s.parent id=some p)
    (hpa : s'.parent=update s.parent id none) (hbu : ∀c,s'.Busy c ↔ s.Busy c)
    (ha : ∀q,s'.active q=if q=p then (s.active p).erase id else s.active q)
    (hb : ∀q,s'.blocked q=if q=p then (s.blocked p).erase id else s.blocked q)
    (hst : ∀c,s'.schedState c=if c=id then .unknown else s.schedState c) : Linked none s' := by
  -- in the lists of `p` only `id` is missing, and the others did not have it
  have hm : ∀q c,(c∈s'.active q ↔ c≠id ∧ c∈s.active q) ∧ (c∈s'.blocked q ↔ c≠id ∧ c∈s.blocked q) := by
    intro q c
    rw [ha,hb]
    split_ifs with hq
    · rw [hq,(h.nodup p).1.mem_erase_iff,(h.nodup p).2.mem_erase_iff]
      exact ⟨Iff.rfl,Iff.rfl⟩
    · have hn : c∈s.children q → c≠id := by
        intro hc heq
        have hc' := h.parent q c hc
        rw [heq,hp] at hc'
        exact hq (Option.some.inj hc').symm
      exact ⟨⟨fun hc => ⟨hn (mem_append_left _ hc),hc⟩,fun hc => hc.2⟩,
        ⟨fun hc => ⟨hn (mem_append_right _ hc),hc⟩,fun hc => hc.2⟩⟩
  have hp' : ∀q c,s'.parent c=some q ↔ c≠id ∧ s.parent c=some q := by
    intro q c
    rw [hpa,update_apply]
    split_ifs with hc
    · simp [hc]
    · simp [hc]
  have ha' : ∀q c,c∈s'.active q ↔ s'.parent c=some q ∧ s'.Busy c := by
    intro q c
    rw [(hm q c).1,hp',hbu,h.active q c (by simp),and_assoc]
  have hb' : ∀q c,c∈s'.blocked q ↔ s'.parent c=some q ∧ ¬s'.Busy c := by
    intro q c
    rw [(hm q c).2,hp',hbu,h.blocked q c (by simp),and_assoc]
  refine ⟨fun q c _ => ha' q c,fun q c _ => hb' q c,?_,?_,?_⟩
  · intro q c hc
    obtain hc | hc := mem_append.1 hc
    · exact ((ha' q c).1 hc).1
    · exact ((hb' q c).1 hc).1
  · intro q
    rw [ha,hb]
    split_ifs
    · exact ⟨(h.nodup p).1.erase id,(h.nodup p).2.erase id⟩
    · exact h.nodup q
  · intro c _
    by_cases hc : c=id
    · rw [hst,if_pos hc,stateOf,hpa,hc,update_self]
    · rw [hst,if_neg hc,h.state c (by simp),stateOf,stateOf,hpa,update_of_ne hc]
      simp only [hbu]

lemma Linked.detached (h : Linked (some x) s) (hx : s.parent x=none)
    (hst : s.schedState x=.unknown) : Linked none s := by
  have hs : ∀ {c},c≠x → some x≠some c := fun hc heq => hc (Option.some.inj heq).symm
  have hn := h.not_mem hx
  refine ⟨?_,?_,h.parent,h.nodup,?_⟩
  · intro p c _
    by_cases hc : c=x
    · have hm : x∉s.active p := fun hm => hn p (mem_append_left _ hm)
      simp [hc,hx,hm]
    · exact h.active p c (hs hc)
  · intro p c _
    by_cases hc : c=x
    · have hm : x∉s.blocked p := fun hm => hn p (mem_append_right _ hm)
      simp [hc,hx,hm]
    · exact h.blocked p c (hs hc)
  · intro c _
    by_cases hc : c=x
    · rw [hc,hst,stateOf,hx]
    · exact h.state c (hs hc)

end
end TfwStreamSched

/-- A difference of `cnt` at one entry, or none. -/
def owed (place : Option Nat) (cnt : Int) : Nat → Int := fun p => if place=some p then cnt else 0

lemma owed_none (cnt : Int) : owed none cnt=0 := by
  funext p
  simp [owed]

lemma owed_zero (place : Option Nat) : owed place 0=0 := by
  funext p
  simp [owed]

/-- The scheduler in the middle of a change. -/
structure SchedInv (off : Nat → Int) (freed : Option Nat) (s : TfwStreamSched) : Prop where
  linked : s.Linked none
  acyclic : Acyclic s.parent
  live : ∀c p,s.parent c=some p → c∈s.streams ∧ p∈0::s.streams
  root : 0∉s.streams
  nodup : s.streams.Nodup
  bounds : ∀c∈s.streams,0<s.weight c ∧ s.weight c<2^16
  weights : ∀p∈0::s.streams,freed≠some p → s.totalWeight p=((s.children p).map s.weight).sum
  counts : ∀p,s.activeCnt p+off p=((s.children p).map s.activeOf).sum
  nonneg : ∀p,0 ≤ s.activeCnt p

namespace SchedInv
variable {off off' : Nat → Int} {freed : Option Nat} {s s' : TfwStreamSched} {id p x : Nat}
section
variable (h : SchedInv off freed s)
include h
lemma recount (hl : s'.Linked none)
    (ht : ∃isActive,s'.toPriTree={s.toPriTree with isActive}) (hto : s'.totalWeight=s.totalWeight)
    (hco : ∀p,s'.activeCnt p+off' p=((s.children p).map s'.activeOf).sum)
    (hn : ∀p,0 ≤ s'.activeCnt p) : SchedInv off' freed s' := by
  obtain ⟨isActive,ht⟩ := ht
  have hs : s'.streams=s.streams := by rw [ht]
  have hpa : s'.parent=s.parent := by rw [ht]
  have hw : s'.weight=s.weight := by rw [ht]
  have hc : ∀p,Children s.parent p (s'.children p) := fun p => hpa ▸ hl.children p
  refine ⟨hl,hpa ▸ h.acyclic,?_,?_,?_,?_,?_,?_,hn⟩
  · rw [hpa,hs]
    exact h.live
  · rw [hs]
    exact h.root
  · rw [hs]
    exact h.nodup
  · rw [hs,hw]
    exact h.bounds
  · rw [hs,hw,hto]
    intro p hp hf
    rw [(hc p).sum_eq s.weight (h.linked.children p)]
    exact h.weights p hp hf
  · intro p
    rw [(hc p).sum_eq s'.activeOf (h.linked.children p)]
    exact hco p

lemma activeOf_nonneg (id : Nat) : 0 ≤ s.activeOf id := by
  have hc := h.nonneg id
  unfold activeOf
  split_ifs <;> omega

lemma parent_zero : s.parent 0=none := by
  cases hp : s.parent 0 with
  | none => rfl
  | some p => exact absurd (h.live 0 p hp).1 h.root

lemma within (p : Nat) : Within s.parent s.fuel p :=
  h.acyclic.within (l := 0::s.streams) (fun c q hq => (h.live c q hq).2) p

end

lemma activeOf_addActiveCnt (s : TfwStreamSched) (p : Nat) (cnt : Int) :
    (s.addActiveCnt p cnt).activeOf=update s.activeOf p (cnt+s.activeOf p) := by
  funext c
  by_cases hc : c=p
  · simp only [hc,activeOf,TfwStreamSched.addActiveCnt,update_self]
    omega
  · simp only [activeOf,TfwStreamSched.addActiveCnt,update_of_ne hc]
    rfl

variable {cnt : Int} {s'' : TfwStreamSched}
lemma counts_addActiveCnt (h : SchedInv (owed (some p) cnt) freed s) (q : Nat) :
    (s.addActiveCnt p cnt).activeCnt q+owed (s.parent p) cnt q =
      ((s.children q).map (s.addActiveCnt p cnt).activeOf).sum := by
  have hc := h.counts q
  rw [activeOf_addActiveCnt,(h.linked.children q).sum_update,← hc,TfwStreamSched.addActiveCnt]
  by_cases hq : q=p
  · have hs : s.parent p≠some p := fun hp => h.acyclic.parent_ne hp rfl
    simp [hq,owed,hs]
  · simp [hq,owed,Ne.symm hq]

lemma linked_addActiveCnt (h : SchedInv off freed s) (p : Nat) (cnt : Int) :
    (s.addActiveCnt p cnt).Linked (some p) := by
  refine (h.linked.weaken p).congr (fun _ _ => rfl) ?_ (fun q c _ => h.linked.parent q c) rfl rfl rfl
  intro c hc
  have hne : c≠p := fun heq => hc (by rw [heq])
  simp only [Busy,TfwStreamSched.addActiveCnt,update_of_ne hne]

lemma relist_addActiveCnt (h : SchedInv (owed (some p) cnt) freed s)
    (hn : 0 ≤ s.activeCnt p+cnt) (hl : s'.Linked none) (hs' : Relisted (s.addActiveCnt p cnt) s') :
    SchedInv (owed (s.parent p) cnt) freed s' := by
  refine h.recount hl ⟨_,hs'.tree⟩ hs'.totalWeight ?_ ?_
  · rw [hs'.activeCnt,hs'.activeOf]
    exact h.counts_addActiveCnt
  · rw [hs'.activeCnt]
    intro q
    by_cases hq : q=p
    · simpa [hq,TfwStreamSched.addActiveCnt] using hn
    · simpa [hq,TfwStreamSched.addActiveCnt] using h.nonneg q

/-- What the loops over the ancestors of an entry leave as it was. -/
structure Counted (p : Nat) (s s' : TfwStreamSched) : Prop where
  tree : s'.toPriTree=s.toPriTree
  totalWeight : s'.totalWeight=s.totalWeight
  activeCnt : ∀x,x≠p → ¬Above s.parent x p → s'.activeCnt x=s.activeCnt x

lemma Counted.addActiveCnt (s : TfwStreamSched) (p : Nat) (cnt : Int) : Counted p s (s.addActiveCnt p cnt) := by
  refine ⟨rfl,rfl,?_⟩
  intro x hx _
  exact update_of_ne hx ..

lemma Counted.relist (h : Counted p s s') (h' : Relisted s' s'') : Counted p s s'' :=
  ⟨h'.tree.trans h.tree,h'.totalWeight.trans h.totalWeight,by rw [h'.activeCnt]; exact h.activeCnt⟩

lemma Counted.next {q : Nat} (h : Counted p s s') (hq : s.parent p=some q)
    (h' : Counted q s' s'') : Counted p s s'' := by
  have hp : s'.parent=s.parent := congrArg PriTree.parent h.tree
  refine ⟨h'.tree.trans h.tree,h'.totalWeight.trans h.totalWeight,?_⟩
  intro x hx ha
  have ha' : ¬(q=x ∨ Above s.parent x q) := fun ho => ha (above_iff.2 ⟨q,hq,ho⟩)
  rw [h'.activeCnt x (fun heq => ha' (.inl heq.symm)) (hp ▸ fun h => ha' (.inr h)),h.activeCnt x hx ha]

lemma addActiveCnt (h : SchedInv (owed (some p) cnt) freed s) (hnn : 0 ≤ s.activeCnt p+cnt)
    (hk : s.parent p=none ∨ ((s.addActiveCnt p cnt).Busy p ↔ s.Busy p)) :
    SchedInv (owed (s.parent p) cnt) freed (s.addActiveCnt p cnt) := by
  refine h.relist_addActiveCnt hnn ?_ ⟨rfl,rfl,rfl⟩
  obtain hn | hb := hk
  · refine (h.linked_addActiveCnt p cnt).detached hn ?_
    rw [TfwStreamSched.addActiveCnt,h.linked.state p (by simp),stateOf,hn]
  · refine h.linked.congr (fun _ _ => rfl) ?_ (fun q c _ => h.linked.parent q c) rfl rfl rfl
    intro c _
    by_cases hc : c=p
    · rw [hc]
      exact hb
    · simp only [Busy,TfwStreamSched.addActiveCnt,update_of_ne hc]

lemma propagateAddLoop {n : Nat} (hcn : 0<cnt) (hn : Within s.parent n p) (h : SchedInv (owed (some p) cnt) freed s) :
    ∃s',TfwStreamSched.propagateAddLoop cnt n s p=.ok s' ∧ SchedInv 0 freed s' ∧ Counted p s s' := by
  induction n generalizing s p with
  | zero => exact hn.elim
  | succ n ih =>
    have hold := h.nonneg p
    have hnew : (s.addActiveCnt p cnt).activeCnt p=s.activeCnt p+cnt := update_self ..
    have hc := Counted.addActiveCnt s p cnt
    rw [TfwStreamSched.propagateAddLoop]
    split
    · rename_i hro
      have hno : s.parent p=none := hro ▸ h.parent_zero
      have hi := h.addActiveCnt (by omega) (.inl hno)
      rw [hno,owed_none] at hi
      exact ⟨_,rfl,hi,hc⟩
    · split
      · rename_i hno
        have hi := h.addActiveCnt (by omega) (.inl hno)
        rw [show s.parent p=none from hno,owed_none] at hi
        exact ⟨_,rfl,hi,hc⟩
      · rename_i q hq
        have hq : s.parent p=some q := hq
        split
        · rename_i hb
          have hk : (s.addActiveCnt p cnt).Busy p ↔ s.Busy p := by
            have hold' : s.Busy p := by
              obtain hne | ha := hb
              · exact .inr hne
              · exact .inl ha
            exact ⟨fun _ => hold',fun _ => .inr (by omega)⟩
          have hi := h.addActiveCnt (by omega) (.inr hk)
          rw [hq] at hi
          have hn' : Within (s.addActiveCnt p cnt).parent n q := hn q hq
          obtain ⟨s',hs',hi',hc'⟩ := ih hn' hi
          exact ⟨s',hs',hi',hc.next hq hc'⟩
        · rename_i hil
          -- the stream was in the list of blocked streams
          have hb : ¬s.Busy p := by
            intro hb
            obtain ha | hne := hb
            · exact hil (.inr ha)
            · exact hil (.inl hne)
          have hst : s.schedState p=.blocked := by
            rw [h.linked.state p (by simp),stateOf,hq]
            exact if_neg hb
          rw [if_neg (by simp [TfwStreamSched.addActiveCnt,hst])]
          obtain ⟨s1,hs1,hl,hr⟩ := (h.linked_addActiveCnt p cnt).insertActive hq
            (.inr (by omega)) (by simp [TfwStreamSched.addActiveCnt,hst])
          have hi := h.relist_addActiveCnt (by omega) hl hr
          rw [hq] at hi
          have hp : s1.parent=s.parent := congrArg PriTree.parent hr.tree
          obtain ⟨s',hs',hi',hc'⟩ := ih (hp ▸ hn q hq) hi
          refine ⟨s',?_,hi',(hc.relist hr).next hq hc'⟩
          rw [hs1]
          exact hs'

lemma propagateDecLoop {n : Nat} (hcnt : 0<cnt) (hn : Within s.parent n p)
    (h : SchedInv (owed (some p) (-cnt)) freed s) :
    ∃s',TfwStreamSched.propagateDecLoop cnt n s p=.ok s' ∧ SchedInv 0 freed s' ∧ Counted p s s' := by
  induction n generalizing s p with
  | zero => exact hn.elim
  | succ n ih =>
    -- the counter is what the children of the entry have
    have hnn : 0 ≤ s.activeCnt p + -cnt := by
      have hcn := h.counts p
      simp only [owed,if_true] at hcn
      rw [hcn]
      refine sum_nonneg ?_
      intro v hv
      obtain ⟨c,-,rfl⟩ := mem_map.1 hv
      exact h.activeOf_nonneg c
    have hne : (s.addActiveCnt p (-cnt)).activeCnt p=s.activeCnt p + -cnt := update_self ..
    have hc := Counted.addActiveCnt s p (-cnt)
    have hold : s.Busy p := .inr (by omega)
    rw [TfwStreamSched.propagateDecLoop]
    split
    · rename_i hro
      have hno : s.parent p=none := hro ▸ h.parent_zero
      have hi := h.addActiveCnt hnn (.inl hno)
      rw [hno,owed_none] at hi
      exact ⟨_,rfl,hi,hc⟩
    · split
      · rename_i hno
        have hi := h.addActiveCnt hnn (.inl hno)
        rw [show s.parent p=none from hno,owed_none] at hi
        exact ⟨_,rfl,hi,hc⟩
      · rename_i q hq
        have hq : s.parent p=some q := hq
        split
        · rename_i hb
          have hi := h.addActiveCnt hnn (.inr ⟨fun _ => hold,fun _ => hb⟩)
          rw [hq] at hi
          have hn' : Within (s.addActiveCnt p (-cnt)).parent n q := hn q hq
          obtain ⟨s',hs',hi',hc'⟩ := ih hn' hi
          exact ⟨s',hs',hi',hc.next hq hc'⟩
        · rename_i hil
          -- the stream was in the list of active streams
          have hst : s.schedState p=.active := by
            rw [h.linked.state p (by simp),stateOf,hq]
            exact if_pos hold
          rw [if_neg (by simp [TfwStreamSched.addActiveCnt,hst])]
          obtain ⟨s1,hs1,hl,hr⟩ := (h.linked_addActiveCnt p (-cnt)).insertBlocked hq
            hil (by simp [TfwStreamSched.addActiveCnt,hst])
          have hi := h.relist_addActiveCnt hnn hl hr
          rw [hq] at hi
          have hp : s1.parent=s.parent := congrArg PriTree.parent hr.tree
          obtain ⟨s',hs',hi',hc'⟩ := ih (hp ▸ hn q hq) hi
          refine ⟨s',?_,hi',(hc.relist hr).next hq hc'⟩
          rw [hs1]
          exact hs'

/-- A stream was taken out of the tree or put into it below `p`. -/
structure Moved (id : Nat) (q : Option Nat) (p : Nat) (s s' : TfwStreamSched) : Prop where
  tree : s'.toPriTree=s.toPriTree.setParent id q
  activeCnt : s'.activeCnt=s.activeCnt
  totalWeight : ∀x,x≠p → s'.totalWeight x=s.totalWeight x

section
variable {q : Option Nat} (h : Moved id q p s s')
include h
lemma Moved.streams : s'.streams=s.streams := by
  rw [h.tree]
  rfl

lemma Moved.parent : s'.parent=update s.parent id q := by
  rw [h.tree]
  rfl

lemma Moved.weight : s'.weight=s.weight := by
  rw [h.tree]
  rfl

lemma Moved.isActive : s'.isActive=s.isActive := by
  rw [h.tree]
  rfl

lemma Moved.busy (c : Nat) : s'.Busy c ↔ s.Busy c := by
  rw [TfwStreamSched.Busy,TfwStreamSched.Busy,h.isActive,h.activeCnt]

lemma Moved.activeOf : s'.activeOf=s.activeOf := by
  funext c
  rw [TfwStreamSched.activeOf,TfwStreamSched.activeOf,h.isActive,h.activeCnt]

end

lemma schedUnlink_eq_ok (hp : s.parent id=some p) : ∃s',s.schedUnlink id=.ok s' ∧ Moved id none p s s' ∧
      (∀q,s'.active q=if q=p then (s.active p).erase id else s.active q) ∧
      (∀q,s'.blocked q=if q=p then (s.blocked p).erase id else s.blocked q) ∧
      (∀c,s'.schedState c=if c=id then .unknown else s.schedState c) ∧
      s'.totalWeight p=subWeight (s.totalWeight p) (s.weight id) := by
  unfold TfwStreamSched.schedUnlink listDelInit
  simp only [hp]
  refine ⟨_,rfl,⟨rfl,rfl,fun x hx => update_of_ne hx ..⟩,?_,?_,?_,?_⟩
  · exact fun q => update_apply ..
  · exact fun q => update_apply ..
  · exact fun c => update_apply ..
  · exact update_self ..

lemma schedUnlink (h : SchedInv off freed s) (hp : s.parent id=some p) : ∃s',s.schedUnlink id=.ok s' ∧
      SchedInv (fun q => off q-owed (some p) (s.activeOf id) q) freed s' ∧ Moved id none p s s' := by
  obtain ⟨s',hs',hm,ha,hb,hst,ht⟩ := schedUnlink_eq_ok hp
  refine ⟨s',hs',?_,hm⟩
  have hl : s'.Linked none := h.linked.unlink hp hm.parent hm.busy ha hb hst
  have ho : ∀q,q≠p → s'.children q=s.children q := by
    intro q hq
    rw [TfwStreamSched.children,TfwStreamSched.children,ha,hb,if_neg hq,if_neg hq]
  have hch : Children (update s.parent id none) p (s'.children p) := hm.parent ▸ hl.children p
  refine ⟨hl,?_,?_,?_,?_,?_,?_,?_,?_⟩
  · rw [hm.parent]
    exact h.acyclic.update_none id
  · rw [hm.parent,hm.streams]
    intro c q hq
    by_cases hc : c=id
    · simp [hc] at hq
    · exact h.live c q (by simpa [hc] using hq)
  · rw [hm.streams]
    exact h.root
  · rw [hm.streams]
    exact h.nodup
  · rw [hm.streams,hm.weight]
    exact h.bounds
  · rw [hm.streams,hm.weight]
    intro q hq hf
    have hbe := h.weights q hq hf
    by_cases heq : q=p
    · rw [heq,(h.linked.children p).sum_of_update_none s.weight hp hch] at hbe
      rw [heq,ht,subWeight,if_pos (by omega)]
      omega
    · rw [hm.totalWeight q heq,ho q heq]
      exact hbe
  · intro q
    have hbe := h.counts q
    rw [hm.activeCnt,hm.activeOf]
    by_cases heq : q=p
    · rw [heq,(h.linked.children p).sum_of_update_none s.activeOf hp hch] at hbe
      simp only [heq,owed,if_true]
      omega
    · rw [ho q heq]
      simp only [owed,Option.some.injEq,Ne.symm heq,if_false]
      omega
  · rw [hm.activeCnt]
    exact h.nonneg

lemma Relisted.moved {q : Option Nat} (h : Moved id q p s s')
    (h' : TfwStreamSched.Relisted s' s'') : Moved id q p s s'' :=
  ⟨h'.tree.trans h.tree,h'.activeCnt.trans h.activeCnt,by rw [h'.totalWeight]; exact h.totalWeight⟩

lemma schedLink_eq_ok (h : SchedInv off freed s) (hid : s.parent id=none) (p : Nat) :
    ∃s',s.schedLink id p=.ok s' ∧ s'.Linked none ∧ Moved id (some p) p s s' ∧
      s'.totalWeight p=s.totalWeight p+s.weight id := by
  have hst : s.schedState id=.unknown := by rw [h.linked.state id (by simp),stateOf,hid]
  unfold TfwStreamSched.schedLink
  generalize hs1 : ({s with
    totalWeight:=update s.totalWeight p (s.totalWeight p+s.weight id)
    parent:=update s.parent id (some p)} : TfwStreamSched)=s1
  have hmo : Moved id (some p) p s s1 := by
    rw [← hs1]
    exact ⟨rfl,rfl,fun x hx => update_of_ne hx ..⟩
  have ht : s1.totalWeight p=s.totalWeight p+s.weight id := by
    rw [← hs1]
    exact update_self ..
  have hst1 : s1.schedState id=.unknown := by
    rw [← hs1]
    exact hst
  have hp1 : s1.parent id=some p := by rw [hmo.parent,update_self]
  have hl : s1.Linked (some id) := by
    refine (h.linked.weaken id).congr ?_ (fun c _ => hmo.busy c) ?_ ?_ ?_ ?_
    · intro c hc
      have hne : c≠id := fun heq => hc (by rw [heq])
      rw [hmo.parent,update_of_ne hne]
    · intro q c hc hm
      cases hc
      exact absurd hm (h.linked.not_mem hid q)
    · rw [← hs1]
    · rw [← hs1]
    · rw [← hs1]
  simp only [hst1,ne_eq,not_true,if_false]
  split_ifs with hb
  · obtain ⟨s',hs',hl',hr⟩ := hl.insertActive hp1 hb (by simp [hst1])
    refine ⟨s',hs',hl',Relisted.moved hmo hr,?_⟩
    rw [hr.totalWeight,ht]
  · obtain ⟨s',hs',hl',hr⟩ := hl.insertBlocked hp1 hb (by simp [hst1])
    refine ⟨s',hs',hl',Relisted.moved hmo hr,?_⟩
    rw [hr.totalWeight,ht]

lemma schedLink (h : SchedInv off freed s) (hid : s.parent id=none) (hli : id∈s.streams)
    (hp : p∈0::s.streams) (hbe : ¬(p=id ∨ Above s.parent id p)) : ∃s',s.schedLink id p=.ok s' ∧
      SchedInv (fun q => off q+owed (some p) (s.activeOf id) q) freed s' ∧ Moved id (some p) p s s' := by
  obtain ⟨s',hs',hl,hm,ht⟩ := h.schedLink_eq_ok hid p
  refine ⟨s',hs',?_,hm⟩
  have hch : ∀q,Children (update s.parent id (some p)) q (s'.children q) := fun q => hm.parent ▸ hl.children q
  have ho : ∀q,q≠p → Children (update s.parent id (some p)) q (s.children q) := by
    intro q hq
    refine (h.linked.children q).update_of_ne ?_ ?_
    · simp [hid]
    · exact fun heq => hq (Option.some.inj heq).symm
  refine ⟨hl,?_,?_,?_,?_,?_,?_,?_,?_⟩
  · rw [hm.parent]
    exact h.acyclic.update_some hbe
  · rw [hm.parent,hm.streams]
    intro c q hq
    by_cases hc : c=id
    · rw [hc,update_self] at hq
      rw [hc,← Option.some.inj hq]
      exact ⟨hli,hp⟩
    · rw [update_of_ne hc] at hq
      exact h.live c q hq
  · rw [hm.streams]
    exact h.root
  · rw [hm.streams]
    exact h.nodup
  · rw [hm.streams,hm.weight]
    exact h.bounds
  · rw [hm.streams,hm.weight]
    intro q hq hf
    have hb := h.weights q hq hf
    by_cases heq : q=p
    · rw [heq] at hb ⊢
      rw [ht,(h.linked.children p).sum_of_update_some s.weight hid (hch p)]
      omega
    · rw [hm.totalWeight q heq,(hch q).sum_eq s.weight (ho q heq)]
      exact hb
  · intro q
    have hb := h.counts q
    rw [hm.activeCnt,hm.activeOf]
    by_cases heq : q=p
    · rw [heq] at hb ⊢
      rw [(h.linked.children p).sum_of_update_some s.activeOf hid (hch p)]
      simp only [owed,if_true]
      omega
    · rw [(hch q).sum_eq s.activeOf (ho q heq)]
      simp only [owed,Option.some.injEq,Ne.symm heq,if_false]
      omega
  · rw [hm.activeCnt]
    exact h.nonneg

/-- A stream was moved, and the counters of its old or new ancestors were brought up to date. -/
structure Placed (id : Nat) (q : Option Nat) (p : Nat) (s s' : TfwStreamSched) : Prop where
  tree : s'.toPriTree=s.toPriTree.setParent id q
  activeCnt : ∀x,x≠p → ¬Above s.parent x p → s'.activeCnt x=s.activeCnt x

lemma schedRemove (h : SchedInv 0 freed s) (hp : s.parent id=some p) :
    ∃s',s.schedRemove id=.ok s' ∧ SchedInv 0 freed s' ∧ Placed id none p s s' := by
  obtain ⟨s1,hs1,hi,hm⟩ := h.schedUnlink hp
  have hn := h.activeOf_nonneg id
  simp only [TfwStreamSched.schedRemove,hp,hs1,Outcome.ok_bind]
  split_ifs with h0
  · refine ⟨s1,rfl,?_,⟨hm.tree,fun x _ _ => by rw [hm.activeCnt]⟩⟩
    convert hi using 1
    funext q
    simp [h0,owed]
  · have hi : SchedInv (owed (some p) (-s.activeOf id)) freed s1 := by
      convert hi using 1
      funext q
      simp only [owed,Pi.zero_apply]
      split_ifs <;> omega
    obtain ⟨s',hs',hi',hc⟩ := hi.propagateDecLoop (by omega) (hi.within p)
    refine ⟨s',hs',hi',⟨hc.tree.trans hm.tree,?_⟩⟩
    intro x hx ha
    rw [hc.activeCnt x hx,hm.activeCnt]
    rw [hm.parent]
    exact fun ha' => ha (above_of_update_none ha')

lemma schedEnqueue (h : SchedInv 0 freed s) (hid : s.parent id=none) (hl : id∈s.streams)
    (hp : p∈0::s.streams) (hb : ¬(p=id ∨ Above s.parent id p)) :
    ∃s',s.schedEnqueue id p=.ok s' ∧ SchedInv 0 freed s' ∧ Placed id (some p) p s s' := by
  obtain ⟨s1,hs1,hi,hm⟩ := h.schedLink hid hl hp hb
  have hn := h.activeOf_nonneg id
  simp only [TfwStreamSched.schedEnqueue,hs1,Outcome.ok_bind,propagateAddActiveCnt,hm.activeOf]
  split_ifs with h0
  · refine ⟨s1,rfl,?_,⟨hm.tree,fun x _ _ => by rw [hm.activeCnt]⟩⟩
    convert hi using 1
    funext q
    simp [h0,owed]
  · have hi : SchedInv (owed (some p) (s.activeOf id)) freed s1 := by
      convert hi using 1
      funext q
      simp
    obtain ⟨s',hs',hi',hc⟩ := hi.propagateAddLoop (by omega) (hi.within p)
    refine ⟨s',hs',hi',⟨hc.tree.trans hm.tree,?_⟩⟩
    intro x hx ha
    rw [hc.activeCnt x hx,hm.activeCnt]
    rw [hm.parent,above_update fun ho => hb ho]
    exact ha
end SchedInv
end VetWaf.H2
