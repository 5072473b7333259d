import VetWaf.H2.SchedInv

namespace VetWaf.H2
open Function List Forest TfwStreamSched Outcome

def PriTree.withParent (t : PriTree) (parent : Nat → Option Nat) : PriTree := {t with parent}

/-- `tfw_h2_add_stream_dep` for a stream outside of the tree. -/
def PriTree.addDep (t : PriTree) (id dep : Nat) (excl : Bool) : PriTree := t.withParent fun c =>
    if c=id then some dep
    else if excl=true ∧ t.parent c=some dep then some id
    else t.parent c

open Classical in
/-- The stream `id` gets another parent. -/
noncomputable def PriTree.changeDep (t : PriTree) (id newParent newWeight : Nat) (excl : Bool) : PriTree := {t with
    weight:=update t.weight id newWeight
    parent:=fun c =>
      if c=id then some newParent
      else if c=newParent ∧ Above t.parent id newParent then t.parent id
      else if excl=true ∧ t.parent c=some newParent then some id
      else t.parent c}

namespace TfwStreamSched

def side (busy : Bool) (s : TfwStreamSched) (p : Nat) : List Nat := if busy then s.active p else s.blocked p

variable {s : TfwStreamSched} (h : Linked none s)
include h
lemma Linked.mem_side (busy : Bool) (p c : Nat) : c∈side busy s p ↔ s.parent c=some p ∧ (s.Busy c ↔ busy=true) := by
  cases busy with
  | true => simp [side,h.active p c]
  | false => simp [side,h.blocked p c]

lemma Linked.nodup_side (busy : Bool) (p : Nat) : (side busy s p).Nodup := by
  cases busy with
  | true => exact (h.nodup p).1
  | false => exact (h.nodup p).2

lemma Linked.length_side {s' : TfwStreamSched} {busy : Bool} {p child : Nat} {rest : List Nat}
    (h' : Linked none s') (hs : side busy s p=child::rest)
    (hm : ∀c,c∈side busy s' p ↔ c∈side busy s p ∧ c≠child) : (side busy s' p).length+1=(side busy s p).length := by
  have hp : (side busy s p).Perm (child::side busy s' p) := by
    have hn : child∉side busy s' p := fun hc => ((hm child).1 hc).2 rfl
    rw [perm_ext_iff_of_nodup (h.nodup_side busy p) (nodup_cons.2 ⟨hn,h'.nodup_side busy p⟩)]
    intro c
    rw [mem_cons,hm]
    by_cases hc : c=child
    · simp [hc,hs]
    · simp [hc]
  rw [hp.length_eq,length_cons]

end TfwStreamSched

namespace SchedInv
variable {off : Nat → Int} {freed : Option Nat} {s s' : TfwStreamSched} {id dep p x : Nat}
variable {q : Option Nat} {n newDep old newWeight : Nat}
lemma Placed.streams (h : Placed id q p s s') : s'.streams=s.streams := by
  rw [h.tree]
  rfl

lemma Placed.parent (h : Placed id q p s s') : s'.parent=update s.parent id q := by
  rw [h.tree]
  rfl

lemma takeChildren (busy : Bool) (h : SchedInv 0 freed s) (hid : s.parent id=none)
    (hli : id∈s.streams) (hd : dep≠id) (hn : (side busy s dep).length<n) :
    ∃s',TfwStreamSched.takeChildren (side busy) dep id n s=.ok s' ∧ SchedInv 0 freed s' ∧ s'.toPriTree =
        s.toPriTree.withParent (fun c => if c∈side busy s dep then some id else s.parent c) ∧
      ∀c,s.parent c=some dep → c∉side busy s dep → s'.activeCnt c=s.activeCnt c := by
  induction n generalizing s with
  | zero => exact absurd hn (Nat.not_lt_zero _)
  | succ n ih =>
    rw [TfwStreamSched.takeChildren]
    split
    · rename_i hni
      exact ⟨s,rfl,h,by simp [hni,PriTree.withParent],fun _ _ _ => rfl⟩
    · rename_i child rest hs
      have hch : s.parent child=some dep ∧ (s.Busy child ↔ busy=true) := by
        rw [← h.linked.mem_side,hs]
        exact .head _
      obtain ⟨s1,hs1,hi1,hp1⟩ := h.schedRemove hch.1
      have hne : id≠child := by
        intro heq
        rw [← heq,hid] at hch
        cases hch.1
      have hid1 : s1.parent id=none := by rw [hp1.parent,update_of_ne hne,hid]
      have hc1 : s1.parent child=none := by rw [hp1.parent,update_self]
      obtain ⟨s2,hs2,hi2,hpl2⟩ := hi1.schedEnqueue (p := id) hc1
        (by rw [hp1.streams]; exact (h.live child dep hch.1).1)
        (by rw [hp1.streams]; exact .tail _ hli)
        (fun ho => ho.elim hne (not_above_of_parent_eq_none hid1))
      have ht2 : s2.toPriTree=s.toPriTree.withParent (update s.parent child (some id)) := by
        rw [hpl2.tree,hp1.tree,PriTree.setParent,PriTree.setParent,PriTree.withParent,update_idem]
      have hp2 : s2.parent=update s.parent child (some id) := congrArg PriTree.parent ht2
      have hisa2 : s2.isActive=s.isActive := by
        rw [ht2]
        rfl
      -- the other children of `dep` are not on the ways from `dep` and from `id`
      have hsib : ∀c,s.parent c=some dep → c≠child → s2.activeCnt c=s.activeCnt c := by
        intro c hc hcn
        obtain ⟨hcd,hca⟩ := not_or.1 (h.acyclic.not_above_parent hc)
        have hci : c≠id := by
          intro heq
          rw [heq,hid] at hc
          cases hc
        rw [hpl2.activeCnt c hci (not_above_of_parent_eq_none hid1),hp1.activeCnt c (Ne.symm hcd) hca]
      have hm2 : ∀c,c∈side busy s2 dep ↔ c∈side busy s dep ∧ c≠child := by
        intro c
        rw [hi2.linked.mem_side,h.linked.mem_side,hp2]
        by_cases hc : c=child
        · simp [hc,Ne.symm hd]
        · rw [update_of_ne hc]
          by_cases hp : s.parent c=some dep
          · simp [hp,hc,Busy,hisa2,hsib c hp hc]
          · simp [hp]
      have hl := h.linked.length_side hi2.linked hs hm2
      obtain ⟨s3,hs3,hi3,ht3,hc3⟩ := ih hi2 (by rw [hp2,update_of_ne hne,hid])
        (by rw [hpl2.streams,hp1.streams]; exact hli) (by omega)
      refine ⟨s3,?_,hi3,?_,?_⟩
      · rw [hs1,ok_bind,hs2,ok_bind,hs3]
      · rw [ht3,ht2]
        refine congrArg s.toPriTree.withParent (funext fun c => ?_)
        simp only [hm2,PriTree.withParent]
        by_cases hc : c=child
        · simp [hc,hs]
        · simp [hc]
      · intro c hc hno
        have hcn : c≠child := by
          intro heq
          rw [heq,hs] at hno
          exact hno (.head _)
        have hc2 : s2.parent c=some dep := by rw [hp2,update_of_ne hcn,hc]
        rw [hc3 c hc2 (fun hm => hno ((hm2 c).1 hm).1),hsib c hc hcn]

lemma schedHasChildren_eq_false (h : SchedInv off freed s) (hp : ∀c,s.parent c≠some p) :
    s.schedHasChildren p=false := by
  have hn : s.children p=[] := by
    refine eq_nil_iff_forall_not_mem.2 ?_
    intro c hc
    exact hp c (h.linked.parent p c hc)
  obtain ⟨ha,hb⟩ := append_eq_nil_iff.1 hn
  simp [schedHasChildren,ha,hb]

lemma addStreamDep (h : SchedInv 0 freed s) (hid : s.parent id=none) (hl : id∈s.streams)
    (hd : dep∈0::s.streams) (hb : ¬(dep=id ∨ Above s.parent id dep)) (excl : Bool) :
    ∃s',s.addStreamDep id dep excl=.ok s' ∧ SchedInv 0 freed s' ∧ s'.toPriTree=s.toPriTree.addDep id dep excl := by
  cases excl with
  | false =>
    obtain ⟨s',hs',hi,hpl⟩ := h.schedEnqueue hid hl hd hb
    refine ⟨s',hs',hi,?_⟩
    rw [hpl.tree]
    refine congrArg s.toPriTree.withParent (funext fun c => ?_)
    simp [update_apply]
  | true =>
    have hne : dep≠id := fun heq => hb (.inl heq)
    obtain ⟨s1,hs1,hi1,ht1,hc1⟩ := h.takeChildren false hid hl hne (Nat.lt_succ_self _)
    have hp1 : ∀c,s1.parent c = if c∈side false s dep then some id else s.parent c := by
      intro c
      rw [ht1]
      rfl
    have hid1 : s1.parent id=none := by
      rw [hp1,if_neg (fun hm => ?_),hid]
      rw [h.linked.mem_side,hid] at hm
      cases hm.1
    obtain ⟨s2,hs2,hi2,ht2,-⟩ := hi1.takeChildren true hid1
      (by rw [ht1]; exact hl) hne (Nat.lt_succ_self _)
    -- the children that were not blocked are still active
    have hm2 : ∀c,c∈side true s1 dep ↔ s.parent c=some dep ∧ c∉side false s dep := by
      intro c
      rw [hi1.linked.mem_side,hp1]
      by_cases hc : c∈side false s dep
      · simp [hc,Ne.symm hne]
      · have hbu : s.parent c=some dep → s1.Busy c := by
          intro hp
          have hisa : s1.isActive=s.isActive := by
            rw [ht1]
            rfl
          rw [Busy,hisa,hc1 c hp hc]
          rw [h.linked.mem_side] at hc
          by_contra hil
          exact hc ⟨hp,by simp [Busy,hil]⟩
        rw [if_neg hc]
        exact ⟨fun hp => ⟨hp.1,hc⟩,fun hp => ⟨hp.1,by simp [hbu hp.1]⟩⟩
    have hpa2 : ∀c,s2.parent c=if s.parent c=some dep then some id else s.parent c := by
      intro c
      have hp2 : s2.parent c = if c∈side true s1 dep then some id else s1.parent c := by
        rw [ht2]
        rfl
      rw [hp2,hp1]
      by_cases hp : s.parent c=some dep
      · by_cases hc : c∈side false s dep <;> simp [hm2,hp,hc]
      · have hc : c∉side false s dep := by
          intro hc
          exact hp ((h.linked.mem_side false dep c).1 hc).1
        simp [hm2,hp,hc]
    have hs : ∀y,y=dep ∨ Above s.parent y dep → s2.parent y=s.parent y := by
      intro y hy
      rw [hpa2,if_neg]
      intro hp
      exact h.acyclic.not_above_parent hp (hy.imp_left Eq.symm)
    have hst2 : s2.streams=s.streams := by
      rw [ht2,PriTree.withParent,ht1]
      rfl
    have he : s2.schedHasChildren dep=false := by
      refine hi2.schedHasChildren_eq_false ?_
      intro c
      rw [hpa2]
      by_cases hp : s.parent c=some dep
      · simp [hp,Ne.symm hne]
      · simp [hp]
    have hid2 : s2.parent id=none := by
      rw [hpa2,hid]
      rfl
    obtain ⟨s3,hs3,hi3,hpl⟩ := hi2.schedEnqueue (p := dep) hid2
      (by rw [hst2]; exact hl) (by rw [hst2]; exact hd) (by rw [above_congr hs]; exact hb)
    refine ⟨s3,?_,hi3,?_⟩
    · have hs1' : TfwStreamSched.takeChildren (·.blocked) dep id ((s.blocked dep).length+1) s=.ok s1 := hs1
      have hs2' : TfwStreamSched.takeChildren (·.active) dep id ((s1.active dep).length+1) s1=.ok s2 := hs2
      simp [TfwStreamSched.addStreamDep,hs1',hs2',ok_bind,he,hs3]
    · rw [hpl.tree,PriTree.setParent,ht2,ht1]
      refine congrArg s.toPriTree.withParent (funext fun c => ?_)
      by_cases hc : c=id
      · simp [hc]
      · have hp := hpa2 c
        rw [ht2,ht1] at hp
        simpa [hc] using hp

section
variable (h : SchedInv off freed s)
include h
lemma setWeight {w : Nat} (hx : ∀p,s.parent x=some p → freed=some p) (hw : 0<w ∧ w<2^16) :
    SchedInv off freed (s.setWeight x w) := by
  have hs : (s.setWeight x w).weight x=w := update_self ..
  have hwe : ∀c,c≠x → (s.setWeight x w).weight c=s.weight c := fun c hc => update_of_ne hc ..
  refine ⟨⟨h.linked.active,h.linked.blocked,h.linked.parent,h.linked.nodup,h.linked.state⟩,
    h.acyclic,h.live,h.root,h.nodup,?_,?_,h.counts,h.nonneg⟩
  · intro c hc
    by_cases hcx : c=x
    · rw [hcx,hs]
      exact hw
    · rw [hwe c hcx]
      exact h.bounds c hc
  · intro p hp hf
    refine (h.weights p hp hf).trans (congrArg sum (map_congr_left ?_))
    intro c hc
    refine (hwe c ?_).symm
    intro heq
    exact hf (hx p (heq ▸ h.linked.parent p c hc))

lemma dependLoop (hid : id≠0) {place : Option Nat}
    (hn : ∀q,place=some q → Within s.parent n q) : ∃below,s.dependLoop id (n+1) place=.ok below ∧
      (below=true ↔ ∃q,place=some q ∧ (q=id ∨ Above s.parent id q)) := by
  induction n generalizing place with
  | zero =>
    cases place with
    | none => exact ⟨false,rfl,by simp⟩
    | some q => exact (hn q rfl).elim
  | succ n ih =>
    cases place with
    | none => exact ⟨false,rfl,by simp⟩
    | some q =>
      rw [TfwStreamSched.dependLoop]
      by_cases hq : q=0
      · refine ⟨false,if_pos hq,?_⟩
        have hr : ¬Above s.parent id 0 := not_above_of_parent_eq_none h.parent_zero
        simp [hq,hid.symm,hr]
      · rw [if_neg hq]
        by_cases hqi : q=id
        · exact ⟨true,if_pos hqi,by simp [hqi]⟩
        · rw [if_neg hqi]
          have hnx : ∀r,s.parent q=some r → Within s.parent n r := hn q rfl
          obtain ⟨below,hb,hi⟩ := ih hnx
          refine ⟨below,hb,hi.trans ?_⟩
          simp [hqi,← above_iff]

lemma isStreamDependOnChild (hid : id≠0) (p : Nat) :
    ∃below,s.isStreamDependOnChild id p=.ok below ∧ (below=true ↔ Above s.parent id p) := by
  obtain ⟨below,hb,hi⟩ := h.dependLoop hid (h.within p)
  exact ⟨below,hb,hi.trans above_iff.symm⟩

end

lemma findStreamDep_mem (s : TfwStreamSched) (id : Nat) : s.findStreamDep id∈0::s.streams := by
  unfold findStreamDep
  split_ifs with hm
  · exact .tail _ hm
  · exact .head _

lemma findStreamDep_ne (hid : id≠0) (hn : newDep≠id) : s.findStreamDep newDep≠id := by
  unfold findStreamDep
  split_ifs
  · exact hn
  · exact hid.symm

variable (h : SchedInv 0 none s)
include h
variable (hold : s.parent id=some old)
include hold
lemma changeDep_of_not_above (hp : p∈0::s.streams) (hne : p≠id)
    (hn : ¬Above s.parent id p) (hw : 0<newWeight ∧ newWeight<2^16) (excl : Bool) :
    ∃s1 s',s.schedRemove id=.ok s1 ∧ (s1.setWeight id newWeight).addStreamDep id p excl=.ok s' ∧
      SchedInv 0 none s' ∧ s'.toPriTree=s.toPriTree.changeDep id p newWeight excl := by
  obtain ⟨s1,hs1,hi1,hp1⟩ := h.schedRemove hold
  have hid1 : s1.parent id=none := by rw [hp1.parent,update_self]
  have hi2 := hi1.setWeight (x := id) (by simp [hid1]) hw
  have hid2 : (s1.setWeight id newWeight).parent id=none := hid1
  have hb2 : ¬(p=id ∨ Above (s1.setWeight id newWeight).parent id p) := by
    change ¬(p=id ∨ Above s1.parent id p)
    rw [hp1.parent]
    exact fun ho => ho.elim hne (fun ha => hn (above_of_update_none ha))
  obtain ⟨s',hs',hi',ht'⟩ := hi2.addStreamDep hid2
    (by change id∈s1.streams; rw [hp1.streams]; exact (h.live id old hold).1)
    (by change p∈0::s1.streams; rw [hp1.streams]; exact hp) hb2 excl
  have ht1 : (s1.setWeight id newWeight).toPriTree={s.toPriTree with
        parent:=update s.parent id none
        weight:=update s.weight id newWeight} := by
    change {s1.toPriTree with weight:=update s1.toPriTree.weight id newWeight}=_
    rw [hp1.tree]
    rfl
  refine ⟨s1,s',hs1,hs',hi',?_⟩
  rw [ht',ht1]
  refine PriTree.ext rfl (funext fun c => ?_) rfl rfl
  simp only [PriTree.addDep,PriTree.withParent,PriTree.changeDep]
  by_cases hc : c=id
  · simp [hc]
  · simp [hc,hn]

lemma changeDep_of_above (hp : p∈0::s.streams) (hne : p≠id)
    (hab : Above s.parent id p) (hw : 0<newWeight ∧ newWeight<2^16) (excl : Bool) :
    ∃s1 s2 s3 s',s.schedRemove p=.ok s1 ∧ s1.schedRemove id=.ok s2 ∧
      (s2.setWeight id newWeight).addStreamDep p old false=.ok s3 ∧ s3.addStreamDep id p excl=.ok s' ∧
      SchedInv 0 none s' ∧ s'.toPriTree=s.toPriTree.changeDep id p newWeight excl := by
  obtain ⟨q,hq,-⟩ := above_iff.1 hab
  obtain ⟨s1,hs1,hi1,hp1⟩ := h.schedRemove hq
  have hold1 : s1.parent id=some old := by rw [hp1.parent,update_of_ne (Ne.symm hne),hold]
  obtain ⟨s2,hs2,hi2,hpl2⟩ := hi1.schedRemove hold1
  have hid2 : s2.parent id=none := by rw [hpl2.parent,update_self]
  have hpa2 : s2.parent=update (update s.parent p none) id none := by rw [hpl2.parent,hp1.parent]
  have hst2 : s2.streams=s.streams := by rw [hpl2.streams,hp1.streams]
  have hf2 : ∀ {a x},Above s2.parent a x → Above s.parent a x := by
    intro a x ha
    rw [hpa2] at ha
    exact above_of_update_none (above_of_update_none ha)
  have hi2' := hi2.setWeight (x := id) (by simp [hid2]) hw
  have ht2 : (s2.setWeight id newWeight).toPriTree={s.toPriTree with
        parent:=update (update s.parent p none) id none
        weight:=update s.weight id newWeight} := by
    change {s2.toPriTree with weight:=update s2.toPriTree.weight id newWeight}=_
    rw [hpl2.tree,hp1.tree]
    rfl
  have hp2 : (s2.setWeight id newWeight).parent p=none := by
    change s2.parent p=none
    rw [hpa2,update_of_ne hne,update_self]
  -- `old` is above `id`, so it is not below `p`
  have hb2 : ¬(old=p ∨ Above s2.parent p old) := by
    intro ho
    have hpi : Above s.parent p id := above_iff.2 ⟨old,hold,ho.imp_right hf2⟩
    exact h.acyclic.not_above_self (hab.trans hpi)
  obtain ⟨s3,hs3,hi3,ht3⟩ := hi2'.addStreamDep hp2
    (by change p∈s2.streams; rw [hst2]; exact (h.live p q hq).1)
    (by change old∈0::s2.streams; rw [hst2]; exact (h.live id old hold).2) hb2 false
  have hp3 : s3.parent=update s2.parent p (some old) := by
    rw [ht3]
    funext c
    simp [PriTree.addDep,PriTree.withParent,update_apply,TfwStreamSched.setWeight]
  have hid3 : s3.parent id=none := by rw [hp3,update_of_ne (Ne.symm hne),hid2]
  have hst3 : s3.streams=s.streams := by
    rw [ht3,← hst2]
    rfl
  have hb3 : ¬(p=id ∨ Above s3.parent id p) := by
    intro ho
    obtain ⟨r,hr,hri⟩ := above_iff.1 (ho.resolve_left hne)
    rw [hp3] at hr hri
    rw [update_self,Option.some.injEq] at hr
    rw [← hr,above_update hb2] at hri
    exact h.acyclic.not_above_parent hold (hri.imp_right hf2)
  obtain ⟨s',hs',hi',ht'⟩ := hi3.addStreamDep hid3
    (by rw [hst3]; exact (h.live id old hold).1) (by rw [hst3]; exact hp) hb3 excl
  refine ⟨s1,s2,s3,s',hs1,hs2,hs3,hs',hi',?_⟩
  rw [ht',ht3,ht2]
  refine PriTree.ext rfl (funext fun c => ?_) rfl rfl
  simp only [PriTree.addDep,PriTree.withParent,PriTree.changeDep]
  have hs : s.parent p≠some p := fun heq => h.acyclic.parent_ne heq rfl
  have hol : old≠p := fun heq => hb2 (.inl heq)
  by_cases hc : c=id
  · simp [hc]
  · by_cases hcp : c=p
    · simp [hcp,hne,hab,hold,hol]
    · simp [hc,hcp]

lemma changeStreamDep (hn : newDep≠id) (hw : 0<newWeight ∧ newWeight<2^16) (excl : Bool) :
    ∃s',s.changeStreamDep id newDep newWeight excl=.ok s' ∧ SchedInv 0 none s' ∧
      s'.toPriTree=s.toPriTree.changeDep id (s.findStreamDep newDep) newWeight excl := by
  have hid : id≠0 := fun heq => h.root (heq ▸ (h.live id old hold).1)
  have hp := findStreamDep_mem s newDep
  have hne : s.findStreamDep newDep≠id := findStreamDep_ne hid hn
  obtain ⟨below,hb,hi⟩ := h.isStreamDependOnChild hid (s.findStreamDep newDep)
  cases below with
  | false =>
    obtain ⟨s1,s',hs1,hs',hi',ht'⟩ := h.changeDep_of_not_above hold hp hne (by simpa using hi) hw excl
    refine ⟨s',?_,hi',ht'⟩
    simp [TfwStreamSched.changeStreamDep,hold,hb,hs1,ok_bind,hs']
  | true =>
    have ha := hi.1 rfl
    obtain ⟨s1,s2,s3,s',hs1,hs2,hs3,hs',hi',ht'⟩ := h.changeDep_of_above hold hp hne ha hw excl
    have hr : s.findStreamDep newDep≠0 := by
      intro heq
      rw [heq] at ha
      exact not_above_of_parent_eq_none h.parent_zero ha
    refine ⟨s',?_,hi',ht'⟩
    simp [TfwStreamSched.changeStreamDep,hold,hb,hr,hs1,hs2,hs3,ok_bind,hs']
end SchedInv
end VetWaf.H2
