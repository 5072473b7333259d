import VetWaf.H2.SchedTree

namespace VetWaf.H2
open Function List Forest TfwStreamSched Outcome PriTree

lemma shareOf_bounds (weight removed total : Nat) :
    0<shareOf weight removed total ∧ shareOf weight removed total<2^16 := by
  unfold shareOf
  simp only
  split_ifs <;> omega

namespace SchedInv
variable {off : Nat → Int} {freed : Option Nat} {s s' : TfwStreamSched} {id p x : Nat}
lemma schedReinsert {old : Nat} (h : SchedInv off freed s) (hold : s.parent x=some old)
    (hp : p∈0::s.streams) (hb : ¬(p=x ∨ Above s.parent x p)) : ∃s',s.schedReinsert x p=.ok s' ∧
      SchedInv (fun q => off q-owed (some old) (s.activeOf x) q+owed (some p) (s.activeOf x) q) freed s' ∧
      s'.toPriTree=s.toPriTree.setParent x (some p) ∧ s'.activeCnt=s.activeCnt := by
  obtain ⟨s1,hs1,hi1,hm1⟩ := h.schedUnlink hold
  have hx1 : s1.parent x=none := by rw [hm1.parent,update_self]
  obtain ⟨s2,hs2,hi2,hm2⟩ := hi1.schedLink (p := p) hx1
    (by rw [hm1.streams]; exact (h.live x old hold).1) (by rw [hm1.streams]; exact hp)
    (by rw [hm1.parent]; exact fun ho => hb (ho.imp_right above_of_update_none))
  refine ⟨s2,?_,?_,?_,hm2.activeCnt.trans hm1.activeCnt⟩
  · rw [TfwStreamSched.schedReinsert,hs1,ok_bind,hs2]
  · rw [hm1.activeOf] at hi2
    exact hi2
  · rw [hm2.tree,hm1.tree,setParent,setParent,setParent,update_idem]

/-- The streams of one list of `id` are moved to `p`, with new weights when `rescale` is set. -/
structure ChildrenMoved (busy rescale : Bool) (id p total : Nat) (s s' : TfwStreamSched) : Prop where
  streams : s'.streams=s.streams
  isActive : s'.isActive=s.isActive
  activeCnt : s'.activeCnt=s.activeCnt
  parent : ∀c,s'.parent c = if c∈TfwStreamSched.side busy s id then some p else s.parent c
  weight : ∀c,s'.weight c = if c∈TfwStreamSched.side busy s id ∧ rescale=true then
      shareOf (s.weight c) (s.weight id) total
    else s.weight c
  nil : TfwStreamSched.side busy s id=[] → s'=s

lemma reweigh (rescale : Bool) (p total n : Nat) {head : TfwStreamSched → Nat → List Nat}
    {child : Nat} {rest : List Nat} (h : SchedInv off (some id) s) (hh : head s id=child::rest)
    (hc : s.parent child=some id) (hd : rescale=true → total≠0) :
    ∃s1,TfwStreamSched.moveChildrenLoop head id p total rescale (n+1) s=(do
          let s ← s1.schedReinsert child p
          TfwStreamSched.moveChildrenLoop head id p total rescale n s) ∧
      SchedInv off (some id) s1 ∧ s1.streams=s.streams ∧ s1.parent=s.parent ∧
      s1.isActive=s.isActive ∧ s1.activeCnt=s.activeCnt ∧ ∀c,s1.weight c=if c=child ∧ rescale=true then
        shareOf (s.weight child) (s.weight id) total else s.weight c := by
  rw [TfwStreamSched.moveChildrenLoop,hh]
  cases rescale with
  | false => exact ⟨s,rfl,h,rfl,rfl,rfl,rfl,by simp⟩
  | true =>
    refine ⟨s.setWeight child (shareOf (s.weight child) (s.weight id) total),?_,?_,rfl,rfl,rfl,rfl,?_⟩
    · simp [hd rfl]
    · exact h.setWeight (fun q hq => hc.symm.trans hq) (shareOf_bounds ..)
    · intro c
      simp [TfwStreamSched.setWeight,update_apply]

lemma moveChildrenLoop (busy rescale : Bool) (total : Nat) {n : Nat} (h : SchedInv off (some id) s)
    (hid : s.parent id=none) (hp : p∈0::s.streams) (hne : p≠id)
    (hb : ∀c,s.parent c=some id → ¬(p=c ∨ Above s.parent c p)) (hn : (side busy s id).length<n)
    (hd : rescale=true → side busy s id≠[] → total≠0) :
    ∃s' off',TfwStreamSched.moveChildrenLoop (side busy) id p total rescale n s =
        .ok s' ∧ SchedInv off' (some id) s' ∧ off' p+off' id=off p+off id ∧
      (∀q,q≠id → q≠p → off' q=off q) ∧ ChildrenMoved busy rescale id p total s s' := by
  induction n generalizing s off with
  | zero => exact absurd hn (Nat.not_lt_zero _)
  | succ n ih =>
    cases hs : side busy s id with
    | nil =>
      refine ⟨s,off,?_,h,rfl,fun _ _ _ => rfl,rfl,rfl,rfl,by simp [hs],by simp [hs],fun _ => rfl⟩
      rw [TfwStreamSched.moveChildrenLoop,hs]
    | cons child rest =>
      have hch : s.parent child=some id ∧ (s.Busy child ↔ busy=true) := by
        rw [← h.linked.mem_side,hs]
        exact .head _
      have hcn : child≠id := fun heq => h.acyclic.parent_ne hch.1 heq.symm
      obtain ⟨s1,ht,hi1,hs1,hp1,hisa1,hc1,hw1⟩ := h.reweigh rescale p total n hs hch.1 (fun hr => hd hr (by simp [hs]))
      obtain ⟨s2,hs2,hi2,ht2,hc2⟩ := hi1.schedReinsert (p := p)
        (by rw [hp1]; exact hch.1) (by rw [hs1]; exact hp) (by rw [hp1]; exact hb child hch.1)
      have hp2 : s2.parent=update s.parent child (some p) := by rw [ht2,setParent,hp1]
      have hbu2 : ∀c,s2.Busy c ↔ s.Busy c := by
        intro c
        rw [Busy,Busy,hc2,hc1,ht2,setParent,hisa1]
      have hst2 : s2.streams=s.streams := by rw [ht2,setParent,hs1]
      have hw2 : s2.weight=s1.weight := by rw [ht2,setParent]
      have hm2 : ∀c,c∈side busy s2 id ↔ c∈side busy s id ∧ c≠child := by
        intro c
        rw [hi2.linked.mem_side,h.linked.mem_side,hp2,hbu2]
        by_cases hc : c=child
        · simp [hc,hne]
        · simp [hc]
      have hl := h.linked.length_side hi2.linked hs hm2
      have hb2 : ∀c,s2.parent c=some id → ¬(p=c ∨ Above s2.parent c p) := by
        intro c hc
        have hcc : c≠child := by
          intro heq
          rw [heq,hp2,update_self] at hc
          exact hne (Option.some.inj hc)
        rw [hp2,update_of_ne hcc] at hc
        rw [hp2,above_update (hb child hch.1)]
        exact hb c hc
      have hid2 : s2.parent id=none := by rw [hp2,update_of_ne (Ne.symm hcn),hid]
      obtain ⟨s3,off3,hs3,hi3,hsu3,ho3,hm3⟩ := ih hi2 hid2
        (by rw [hst2]; exact hp) hb2 (by omega) (fun hr _ => hd hr (by simp [hs]))
      refine ⟨s3,off3,?_,hi3,?_,?_,?_,?_,?_,?_,?_,?_⟩
      · rw [ht,hs2,ok_bind,hs3]
      · rw [hsu3]
        simp only [owed,Option.some.injEq,hne,Ne.symm hne,if_true,if_false]
        omega
      · intro q hq hqp
        rw [ho3 q hq hqp]
        simp [owed,Ne.symm hq,Ne.symm hqp]
      · rw [hm3.streams,hst2]
      · rw [hm3.isActive,ht2,setParent,hisa1]
      · rw [hm3.activeCnt,hc2,hc1]
      · intro c
        rw [hm3.parent,hp2]
        by_cases hc : c=child
        · simp [hm2,hc,hs]
        · simp [hm2,hc]
      · intro c
        rw [hm3.weight,hw2,hw1,hw1]
        by_cases hc : c=child
        · simp [hm2,hc,hs]
        · simp [hm2,hc,Ne.symm hcn]
      · intro hni
        rw [hs] at hni
        cases hni

lemma clearActiveCnt (h : SchedInv off none s) (hid : s.parent id=none) :
    SchedInv (fun q => if q=id then off id+s.activeCnt id else off q) (some id)
      {s with activeCnt:=update s.activeCnt id 0} := by
  generalize hs' : ({s with activeCnt:=update s.activeCnt id 0} : TfwStreamSched)=s'
  have hcn : ∀c,s'.activeCnt c=if c=id then 0 else s.activeCnt c := by
    intro c
    rw [← hs']
    exact update_apply ..
  have ht : s'.toPriTree=s.toPriTree := by rw [← hs']
  have ha : ∀c,c≠id → s'.activeOf c=s.activeOf c := by
    intro c hc
    rw [activeOf,activeOf,hcn,if_neg hc,ht]
  have hl : s'.Linked none := by
    refine TfwStreamSched.Linked.detached (x := id) ?_ (by rw [ht]; exact hid) ?_
    · refine (h.linked.weaken id).congr (fun _ _ => by rw [ht]) ?_ ?_ (by rw [← hs']) (by rw [← hs']) (by rw [← hs'])
      · intro c hc
        have hne : c≠id := fun heq => hc (by rw [heq])
        rw [Busy,Busy,hcn,if_neg hne,ht]
      · intro q c _ hc
        rw [ht]
        exact h.linked.parent q c hc
    · rw [← hs']
      simp only
      rw [h.linked.state id (by simp),stateOf,hid]
  have hf : SchedInv off (some id) s :=
    ⟨h.linked,h.acyclic,h.live,h.root,h.nodup,h.bounds,fun q hq _ => h.weights q hq (by simp),h.counts,h.nonneg⟩
  refine hf.recount hl ⟨_,ht⟩ (by rw [← hs']) ?_ ?_
  · intro q
    have hs : ((s.children q).map s'.activeOf).sum=((s.children q).map s.activeOf).sum := by
      refine congrArg sum (map_congr_left ?_)
      intro c hc
      refine ha c ?_
      intro heq
      exact h.linked.not_mem hid q (heq ▸ hc)
    rw [hs,← h.counts q,hcn]
    by_cases hq : q=id
    · simp only [hq,if_true]
      omega
    · simp [hq]
  · intro q
    rw [hcn]
    have hn := h.nonneg q
    split_ifs <;> omega

lemma schedHasChildren_iff (h : SchedInv off freed s) (p : Nat) : s.schedHasChildren p=true ↔ ∃c,s.parent c=some p := by
  rw [TfwStreamSched.schedHasChildren,Bool.or_eq_true,Bool.not_eq_true',Bool.not_eq_true',
    isEmpty_eq_false_iff_exists_mem,isEmpty_eq_false_iff_exists_mem,← exists_or]
  refine exists_congr fun c => ?_
  rw [← mem_append]
  exact (h.linked.children p).mem c

lemma totalWeight_pos (h : SchedInv off freed s) (hf : freed≠some p) (hx : s.parent x=some p) : s.totalWeight p≠0 := by
  obtain ⟨hl,hp⟩ := h.live x p hx
  have hm := ((h.linked.children p).mem x).2 hx
  have hle := le_sum_of_mem (mem_map_of_mem (f := s.weight) hm)
  have hpo := (h.bounds x hl).1
  rw [h.weights p hp hf]
  omega

/-- `id` is out of the tree, and its children are those of its parent. -/
structure Removed (id : Nat) (rescale : Bool) (total : Nat) (s s' : TfwStreamSched) : Prop where
  streams : s'.streams=s.streams
  isActive : s'.isActive=s.isActive
  parent : ∀c,s'.parent c = if c=id then none else if s.parent c=some id then s.parent id else s.parent c
  weight : ∀c,s'.weight c = if s.parent c=some id ∧ rescale=true then
      shareOf (s.weight c) (s.weight id) (if s.Busy c then total else s.totalWeight id)
    else s.weight c

lemma schedMoveChildren (rescale : Bool) (h : SchedInv off (some id) s) (hid : s.parent id=none)
    (hp : p∈0::s.streams) (hne : p≠id) (hbe : ∀c,s.parent c=some id → ¬(p=c ∨ Above s.parent c p))
    (hd : s.blocked id≠[] → s.totalWeight id≠0) : ∃s1 total,s.schedMoveChildren (·.blocked) id p rescale=.ok s1 ∧
      (s.blocked id=[] → total=s.totalWeight id) ∧ (rescale=true ∧ s.active id≠[] ∧ total=0 →
        s1.schedMoveChildren (·.active) id p rescale=.error .divZero) ∧ (¬(rescale=true ∧ s.active id≠[] ∧ total=0) →
        ∃s' off',s1.schedMoveChildren (·.active) id p rescale=.ok s' ∧ SchedInv off' (some id) s' ∧
          off' p+off' id=off p+off id ∧ (∀q,q≠id → q≠p → off' q=off q) ∧
          s'.streams=s.streams ∧ s'.isActive=s.isActive ∧ s'.activeCnt=s.activeCnt ∧
          (∀c,s'.parent c=if s.parent c=some id then some p else s.parent c) ∧ (∀c,s'.weight c =
            if s.parent c=some id ∧ rescale=true then
              shareOf (s.weight c) (s.weight id) (if s.Busy c then total else s.totalWeight id) else s.weight c)) := by
  obtain ⟨s1,off1,hs1,hi1,hsu1,ho1,hm1⟩ :=
    h.moveChildrenLoop false rescale (s.totalWeight id) hid hp hne hbe (Nat.lt_succ_self _) (fun _ => hd)
  have hbu1 : ∀c,s1.Busy c ↔ s.Busy c := by
    intro c
    rw [Busy,Busy,hm1.isActive,hm1.activeCnt]
  have hbl : ∀c,c∈side false s id ↔ s.parent c=some id ∧ ¬s.Busy c := by
    intro c
    simp [h.linked.mem_side]
  -- the active children are the same as before
  have ha1 : ∀c,c∈side true s1 id ↔ s.parent c=some id ∧ s.Busy c := by
    intro c
    rw [hi1.linked.mem_side,hbu1,hm1.parent]
    by_cases hc : c∈side false s id
    · simp [hc,hne,((hbl c).1 hc).2]
    · simp [hc]
  have hn : s1.active id=[] ↔ s.active id=[] := by
    have hm : ∀c,c∈s1.active id ↔ c∈s.active id := by
      intro c
      rw [h.linked.active id c (by simp)]
      exact ha1 c
    simp [eq_nil_iff_forall_not_mem,hm]
  have hb1 : ∀c,s1.parent c=some id → ¬(p=c ∨ Above s1.parent c p) := by
    have hs : ∀y,y=p ∨ Above s.parent y p → s1.parent y=s.parent y := by
      intro y hy
      rw [hm1.parent,if_neg]
      intro hm
      exact hbe y ((hbl y).1 hm).1 (hy.imp_left Eq.symm)
    intro c hc
    rw [above_congr hs]
    rw [hm1.parent] at hc
    split_ifs at hc with hm
    · exact absurd (Option.some.inj hc) hne
    · exact hbe c hc
  have hid1 : s1.parent id=none := by
    rw [hm1.parent,if_neg,hid]
    intro hm
    rw [hbl,hid] at hm
    cases hm.1
  refine ⟨s1,s1.totalWeight id,hs1,?_,?_,?_⟩
  · intro hb
    rw [hm1.nil hb]
  · intro h0
    obtain ⟨hr,hac,ht⟩ := h0
    obtain ⟨child,rest,hch⟩ := exists_cons_of_ne_nil (mt hn.1 hac)
    simp [TfwStreamSched.schedMoveChildren,TfwStreamSched.moveChildrenLoop,hch,hr,ht]
  · intro hnz
    obtain ⟨s2,off2,hs2,hi2,hsu2,ho2,hm2⟩ :=
      hi1.moveChildrenLoop true rescale (s1.totalWeight id) hid1 (by rw [hm1.streams]; exact hp)
        hne hb1 (Nat.lt_succ_self _) (fun hr ha ht => hnz ⟨hr,mt hn.2 ha,ht⟩)
    refine ⟨s2,off2,hs2,hi2,hsu2.trans hsu1,?_,?_,?_,?_,?_,?_⟩
    · intro q hq hqp
      rw [ho2 q hq hqp,ho1 q hq hqp]
    · rw [hm2.streams,hm1.streams]
    · rw [hm2.isActive,hm1.isActive]
    · rw [hm2.activeCnt,hm1.activeCnt]
    · intro c
      rw [hm2.parent,hm1.parent]
      simp only [ha1,hbl]
      by_cases hc : s.parent c=some id <;> by_cases hb : s.Busy c <;> simp [hc,hb]
    · intro c
      have hi : s1.weight id=s.weight id := by
        rw [hm1.weight,if_neg]
        intro hm
        rw [hbl,hid] at hm
        cases hm.1.1
      rw [hm2.weight,hi,hm1.weight]
      simp only [ha1,hbl]
      by_cases hc : s.parent c=some id <;> by_cases hb : s.Busy c <;> simp [hc,hb]

/-- The stream is out of the tree, and its children still hang on it. -/
structure Detached (id : Nat) (s s' : TfwStreamSched) : Prop where
  tree : s'.toPriTree=s.toPriTree.setParent id none
  activeCnt : ∀c,s'.activeCnt c=if c=id then 0 else s.activeCnt c
  totalWeight : s'.totalWeight id=s.totalWeight id

lemma detach (h : SchedInv 0 none s) (hp : s.parent id=some p) : ∃s1 s',s.schedUnlink id=.ok s1 ∧
      {s1 with activeCnt:=update s1.activeCnt id 0}=s' ∧ Detached id s s' ∧
      SchedInv (fun q => if q=id then s.activeCnt id else -owed (some p) (s.activeOf id) q) (some id) s' := by
  obtain ⟨s1,hs1,hi1,hm⟩ := h.schedUnlink hp
  have hne : p≠id := h.acyclic.parent_ne hp
  have hid1 : s1.parent id=none := by rw [hm.parent,update_self]
  have hi := hi1.clearActiveCnt hid1
  refine ⟨s1,_,hs1,rfl,⟨hm.tree,?_,hm.totalWeight id (Ne.symm hne)⟩,?_⟩
  · intro c
    rw [← hm.activeCnt]
    exact update_apply ..
  · convert hi using 1
    funext q
    by_cases hq : q=id
    · simp [hq,owed,hne,hm.activeCnt]
    · simp [hq]

section
variable (h : Detached id s s')
include h
lemma Detached.streams : s'.streams=s.streams := by
  rw [h.tree]
  rfl

lemma Detached.weight : s'.weight=s.weight := by
  rw [h.tree]
  rfl

lemma Detached.isActive : s'.isActive=s.isActive := by
  rw [h.tree]
  rfl

lemma Detached.parent : s'.parent=update s.parent id none := by
  rw [h.tree]
  rfl

lemma Detached.parent_eq_some (c q : Nat) : s'.parent c=some q ↔ c≠id ∧ s.parent c=some q := by
  rw [h.parent]
  by_cases hc : c=id
  · simp [hc]
  · simp [hc]

lemma Detached.busy {c : Nat} (hc : c≠id) : s'.Busy c ↔ s.Busy c := by
  rw [TfwStreamSched.Busy,TfwStreamSched.Busy,h.activeCnt,if_neg hc,h.isActive]

lemma Detached.mem_side (hs : s.Linked none) (hs' : s'.Linked none) (hse : s.parent id≠some id)
    (busy : Bool) (c : Nat) : c∈side busy s' id ↔ c∈side busy s id := by
  rw [hs'.mem_side,hs.mem_side,h.parent_eq_some]
  by_cases hc : c=id
  · simp [hc,hse]
  · simp [hc,h.busy hc]

end

lemma removeStreamDep (h : SchedInv 0 none s) (hp : s.parent id=some p) :
    ∃rescale total,(rescale=true ↔ ∃c,c≠id ∧ s.parent c=some p) ∧ (s.blocked id=[] → total=s.totalWeight id) ∧
      (rescale=true ∧ s.active id≠[] ∧ total=0 → s.removeStreamDep id=.error .divZero) ∧
      (¬(rescale=true ∧ s.active id≠[] ∧ total=0) → ∃s',s.removeStreamDep id=.ok s' ∧ SchedInv 0 (some id) s' ∧
          Removed id rescale total s s') := by
  obtain ⟨s1,s2,hs1,hs2,hd,hi2⟩ := h.detach hp
  have hne : p≠id := h.acyclic.parent_ne hp
  have hs : s.parent id≠some id := fun hid => hne (Option.some.inj (hp.symm.trans hid))
  have hb2 : ∀c,s2.parent c=some id → ¬(p=c ∨ Above s2.parent c p) := by
    intro c hc hor
    rw [hd.parent] at hor
    have hab : Above s.parent c id := above_iff.2 ⟨p,hp,hor.imp_right above_of_update_none⟩
    exact h.acyclic.not_above_parent ((hd.parent_eq_some c id).1 hc).2 (.inr hab)
  have hm := hd.mem_side h.linked hi2.linked hs
  have hbl : s2.blocked id=[] ↔ s.blocked id=[] := by
    have hm' : ∀c,c∈s2.blocked id ↔ c∈s.blocked id := hm false
    simp [eq_nil_iff_forall_not_mem,hm']
  have hac : s2.active id=[] ↔ s.active id=[] := by
    have hm' : ∀c,c∈s2.active id ↔ c∈s.active id := hm true
    simp [eq_nil_iff_forall_not_mem,hm']
  have hdi : s2.blocked id≠[] → s2.totalWeight id≠0 := by
    intro hb
    obtain ⟨c,hc⟩ := exists_mem_of_ne_nil _ (mt hbl.2 hb)
    rw [hd.totalWeight]
    exact h.totalWeight_pos (by simp) (h.linked.parent id c (mem_append_right _ hc))
  have hid2 : s2.parent id=none := by rw [hd.parent,update_self]
  obtain ⟨s3,total,hs3,hto,he,hok⟩ := hi2.schedMoveChildren (s2.schedHasChildren p) hid2
    (by rw [hd.streams]; exact (h.live id p hp).2) hne hb2 hdi
  rw [hbl,hd.totalWeight] at hto
  rw [Ne,hac] at he hok
  refine ⟨s2.schedHasChildren p,total,?_,hto,?_,?_⟩
  · simp only [hi2.schedHasChildren_iff,hd.parent_eq_some]
  · intro h0
    simp only [TfwStreamSched.removeStreamDep,hp,hs1,ok_bind,hs2,hs3,he h0]
    rfl
  · intro hnz
    obtain ⟨s4,off4,hs4,hi4,hsu4,ho4,hst4,hisa4,hc4,hp4,hw4⟩ := hok hnz
    have hr : Removed id (s2.schedHasChildren p) total s s4 := by
      refine ⟨hst4.trans hd.streams,hisa4.trans hd.isActive,?_,?_⟩
      · intro c
        rw [hp4,hd.parent,hp]
        by_cases hc : c=id
        · simp [hc]
        · simp [hc]
      · intro c
        rw [hw4,hd.weight,hd.totalWeight]
        simp only [hd.parent_eq_some]
        by_cases hc : c=id
        · simp [hc,hs]
        · simp [hc,hd.busy hc]
    -- nothing hangs on the entry of the stream any more
    have ho : off4 id=0 := by
      have hn : s4.children id=[] := by
        refine eq_nil_iff_forall_not_mem.2 ?_
        intro c hc
        have hpc := hi4.linked.parent id c hc
        rw [hp4] at hpc
        split_ifs at hpc with hc2
        · exact hne (Option.some.inj hpc)
        · exact hc2 hpc
      have hco := hi4.counts id
      rw [hn,hc4,hd.activeCnt,if_pos rfl] at hco
      simpa using hco
    have hod : off4=owed (some p) (-if s.isActive id then 1 else 0) := by
      funext q
      by_cases hq : q=id
      · simp [hq,ho,owed,hne]
      · by_cases hqp : q=p
        · rw [ho,if_neg hne,if_pos rfl] at hsu4
          simp only [hqp,owed,if_true,activeOf] at hsu4 ⊢
          omega
        · rw [ho4 q hq hqp]
          simp [hq,owed,Ne.symm hqp]
    simp only [TfwStreamSched.removeStreamDep,hp,hs1,ok_bind,hs2,hs3,hs4]
    by_cases ha : s.isActive id=true
    · rw [hod,if_pos ha] at hi4
      obtain ⟨s5,hs5,hi5,hcn⟩ := hi4.propagateDecLoop Int.one_pos (hi4.within p)
      refine ⟨s5,by rw [if_pos ha,hs5],hi5,?_⟩
      have ht := hcn.tree
      exact ⟨by rw [ht]; exact hr.streams,by rw [ht]; exact hr.isActive,
        by rw [ht]; exact hr.parent,by rw [ht]; exact hr.weight⟩
    · rw [hod,if_neg ha,neg_zero,owed_zero] at hi4
      exact ⟨s4,if_neg ha,hi4,hr⟩
end SchedInv
end VetWaf.H2
