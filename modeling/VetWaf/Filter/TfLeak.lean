import VetWaf.Filter.TfFilter

namespace VetWaf.Filter
open List Tdb Outcome Option

def At (mem : List (Option RatesRec)) (a : Nat) (r : RatesRec) : Prop := mem[a]?=some (some r)

/-- The references of a record. -/
structure Counted (users : Nat) (r : RatesRec) : Prop where
  refcnt : r.refcnt=(if r.isRemoved then 1 else 2)+users
  complete : r.complete=true

/-- The memory of a storage with the records of `nodes` in the table -/
structure Inv (held nodes : List Nat) (mem : List (Option RatesRec)) : Prop where
  alloc : ∀r∈mem,r.isSome=true
  counted : ∀a r,At mem a r → Counted (held.count a) r
  distinct : ∀a b r q,At mem a r → At mem b q → r.isRemoved=false → q.isRemoved=false → r.key=q.key → a=b
  nodes_iff : ∀a,a∈nodes ↔ ∃r,At mem a r ∧ r.isRemoved=false
  nodup : nodes.Nodup
  held_lt : ∀a∈held,a < mem.length

variable {held held' nodes nodes' : List Nat} {mem : List (Option RatesRec)} {a b : Nat} {r r' q : RatesRec}
lemma At.lt (h : At mem a r) : a < mem.length := (List.getElem?_eq_some_iff.1 h).1
lemma At.inj (h : At mem a r) (h' : At mem a q) : r=q := Option.some.inj (Option.some.inj (h.symm.trans h'))

lemma at_set (h : At mem a r) : At (mem.set a (some r')) b q ↔ b=a ∧ q=r' ∨ b≠a ∧ At mem b q := by
  unfold At
  by_cases hb : b=a
  · subst hb
    rw [getElem?_set_self h.lt]
    simp [eq_comm]
  · rw [getElem?_set_ne (Ne.symm hb)]
    simp [hb]

lemma at_append : At (mem++[some r']) b q ↔ b=mem.length ∧ q=r' ∨ At mem b q := by
  unfold At
  obtain hlt | rfl | hgt := Nat.lt_trichotomy b mem.length
  · rw [getElem?_append_left hlt]
    simp [ne_of_lt hlt]
  · simp [eq_comm]
  · rw [getElem?_eq_none (by simp; omega),getElem?_eq_none (by omega)]
    simp [Nat.ne_of_gt hgt]

lemma recAt_eq_some {s : Storage} : s.recAt a=some r ↔ At s.mem a r := by
  unfold Storage.recAt At
  cases s.mem[a]? with
  | none => simp
  | some o => simp

lemma Inv.at (h : Inv held nodes mem) (ha : a < mem.length) : ∃r,At mem a r := by
  obtain ⟨r,hr⟩ := isSome_iff_exists.1 (h.alloc _ (getElem_mem ha))
  exact ⟨r,List.getElem?_eq_some_iff.2 ⟨ha,hr⟩⟩

lemma Inv.perm (h : Inv held nodes mem) (hp : nodes.Perm nodes') : Inv held nodes' mem := {h with
    nodes_iff:=fun a => hp.mem_iff.symm.trans (h.nodes_iff a)
    nodup:=hp.nodup_iff.1 h.nodup}

lemma set_isSome (h : ∀r∈mem,r.isSome=true) : ∀o∈mem.set a (some r'),o.isSome=true := by
  intro o ho
  obtain ho | rfl := mem_or_eq_of_mem_set ho
  · exact h o ho
  · rfl

lemma Inv.recount (h : Inv held nodes mem) (hr : At mem a r) (hk : r'.key=r.key)
    (hre : r'.isRemoved=r.isRemoved) (hr' : Counted (held'.count a) r')
    (hco : ∀b,b≠a → held'.count b=held.count b) : Inv held' nodes (mem.set a (some r')) := by
  refine ⟨set_isSome h.alloc,?_,?_,?_,h.nodup,?_⟩
  · intro b q hq
    obtain ⟨rfl,rfl⟩ | ⟨hb,hq⟩ := (at_set hr).1 hq
    · exact hr'
    · rw [hco b hb]
      exact h.counted b q hq
  · intro b c p q hp hq hp' hq' hpq
    obtain ⟨rfl,rfl⟩ | ⟨hb,hold⟩ := (at_set hr).1 hp
    · obtain ⟨rfl,rfl⟩ | ⟨hc,hq⟩ := (at_set hr).1 hq
      · rfl
      · exact h.distinct b c r q hr hq (hre ▸ hp') hq' (hk ▸ hpq)
    · obtain ⟨rfl,rfl⟩ | ⟨hc,hq⟩ := (at_set hr).1 hq
      · exact h.distinct b c p r hold hr hp' (hre ▸ hq') (hk ▸ hpq)
      · exact h.distinct b c p q hold hq hp' hq' hpq
  · intro b
    rw [h.nodes_iff]
    constructor
    · rintro ⟨q,hq,hin⟩
      by_cases hb : b=a
      · subst hb
        cases hr.inj hq
        exact ⟨r',(at_set hr).2 (.inl ⟨rfl,rfl⟩),hre.trans hin⟩
      · exact ⟨q,(at_set hr).2 (.inr ⟨hb,hq⟩),hin⟩
    · rintro ⟨q,hq,hin⟩
      obtain ⟨rfl,rfl⟩ | ⟨-,hq⟩ := (at_set hr).1 hq
      · exact ⟨r,hr,hre.symm.trans hin⟩
      · exact ⟨q,hq,hin⟩
  · intro b hb
    rw [length_set]
    by_cases hba : b=a
    · exact hba ▸ hr.lt
    · exact h.held_lt b (count_pos_iff.1 (hco b hba ▸ count_pos_iff.2 hb))

lemma Inv.remove (h : Inv held nodes mem) (hr : At mem a r) (hin : r.isRemoved=false) :
    Inv held (nodes.erase a) (mem.set a (some {r with bucket:=none, refcnt:=r.refcnt-1})) := by
  have hc := h.counted a r hr
  refine ⟨set_isSome h.alloc,?_,?_,?_,h.nodup.erase a,?_⟩
  · intro b q hq
    obtain ⟨rfl,rfl⟩ | ⟨-,hq⟩ := (at_set hr).1 hq
    · refine ⟨?_,hc.complete⟩
      have hre := hc.refcnt
      rw [hin] at hre
      change r.refcnt-1=1+held.count b
      rw [hre]
      simp only [Bool.false_eq_true,if_false]
      omega
    · exact h.counted b q hq
  · intro b c p q hp hq hp' hq' hpq
    obtain ⟨rfl,rfl⟩ | ⟨-,hp⟩ := (at_set hr).1 hp
    · cases hp'
    · obtain ⟨rfl,rfl⟩ | ⟨-,hq⟩ := (at_set hr).1 hq
      · cases hq'
      · exact h.distinct b c p q hp hq hp' hq' hpq
  · intro b
    rw [h.nodup.mem_erase_iff,h.nodes_iff]
    constructor
    · rintro ⟨hb,q,hq,hq'⟩
      exact ⟨q,(at_set hr).2 (.inr ⟨hb,hq⟩),hq'⟩
    · rintro ⟨q,hq,hq'⟩
      obtain ⟨rfl,rfl⟩ | ⟨hb,hq⟩ := (at_set hr).1 hq
      · cases hq'
      · exact ⟨hb,q,hq,hq'⟩
  · intro b hb
    rw [length_set]
    exact h.held_lt b hb

lemma Inv.create (h : Inv held nodes mem) (hr : r.refcnt=3) (hin : r.isRemoved=false)
    (hc : r.complete=true) (hn : ∀b q,At mem b q → q.isRemoved=false → q.key≠r.key) :
    Inv (mem.length::held) (mem.length::nodes) (mem++[some r]) := by
  have hf : mem.length∉held := fun hm => absurd (h.held_lt _ hm) (lt_irrefl _)
  refine ⟨?_,?_,?_,?_,?_,?_⟩
  · intro o ho
    obtain ho | ho := mem_append.1 ho
    · exact h.alloc o ho
    · rw [mem_singleton.1 ho]
      rfl
  · intro b q hq
    obtain ⟨rfl,rfl⟩ | hq := at_append.1 hq
    · refine ⟨?_,hc⟩
      rw [hr,hin,count_cons_self,count_eq_zero_of_not_mem hf]
      rfl
    · rw [count_cons_of_ne (Nat.ne_of_gt hq.lt)]
      exact h.counted b q hq
  · intro b c p q hp hq hp' hq' hpq
    obtain ⟨rfl,rfl⟩ | hold := at_append.1 hp
    · obtain ⟨rfl,rfl⟩ | hq := at_append.1 hq
      · rfl
      · exact absurd hpq.symm (hn c q hq hq')
    · obtain ⟨rfl,rfl⟩ | hq := at_append.1 hq
      · exact absurd hpq (hn b p hold hp')
      · exact h.distinct b c p q hold hq hp' hq' hpq
  · intro b
    rw [mem_cons,h.nodes_iff]
    constructor
    · rintro (rfl | ⟨q,hq,hq'⟩)
      · exact ⟨r,at_append.2 (.inl ⟨rfl,rfl⟩),hin⟩
      · exact ⟨q,at_append.2 (.inr hq),hq'⟩
    · rintro ⟨q,hq,hq'⟩
      obtain ⟨rfl,-⟩ | hq := at_append.1 hq
      · exact .inl rfl
      · exact .inr ⟨q,hq,hq'⟩
  · refine nodup_cons.2 ⟨fun hm => ?_,h.nodup⟩
    obtain ⟨q,hq,-⟩ := (h.nodes_iff _).1 hm
    exact lt_irrefl _ hq.lt
  · intro b hb
    rw [length_append,length_singleton]
    obtain rfl | hb := mem_cons.1 hb
    · omega
    · have hlt := h.held_lt b hb
      omega

variable {s s' : Storage} {key cap : Nat} {room : Bool}
lemma inBucket_some : inBucket key (some r)=true ↔ r.isRemoved=false ∧ r.key=key := by simp [inBucket]

section
variable (h : Inv held nodes s.mem)
include h
lemma Inv.used_eq : s.used=s.mem.length := countP_eq_length.2 h.alloc

lemma Inv.findIdx {p : Option RatesRec → Bool} (hf : s.mem.findIdx? p=some a) :
    ∃r,At s.mem a r ∧ s.recAt a=some r ∧ p (some r)=true := by
  obtain ⟨ha,hp,-⟩ := findIdx?_eq_some_iff_getElem.1 hf
  obtain ⟨r,hr⟩ := h.at ha
  have hg : s.mem[a]=some r := (List.getElem?_eq_some_iff.1 hr).2
  exact ⟨r,hr,recAt_eq_some.2 hr,hg ▸ hp⟩

lemma Inv.find_inBucket (hr : At s.mem a r) (hin : r.isRemoved=false) : s.mem.findIdx? (inBucket r.key)=some a := by
  cases hf : s.mem.findIdx? (inBucket r.key) with
  | none =>
    have hn := findIdx?_eq_none_iff.1 hf (some r) (mem_of_getElem? hr)
    rw [inBucket_some.2 ⟨hin,rfl⟩] at hn
    cases hn
  | some b =>
    obtain ⟨q,hq,-,hb⟩ := h.findIdx hf
    obtain ⟨hin',hk⟩ := inBucket_some.1 hb
    rw [h.distinct b a q r hq hr hin' hin hk]

end

/-- No memory is freed, and the records in the table were there before. -/
structure Fewer (s s' : Storage) : Prop where
  length : s'.mem.length=s.mem.length
  stored : ∀b q,At s'.mem b q → q.isRemoved=false → At s.mem b q

lemma Fewer.trans {s'' : Storage} (h : Fewer s s') (h' : Fewer s' s'') : Fewer s s'' :=
  ⟨h'.length.trans h.length,fun b q hq hin => h.stored b q (h'.stored b q hq hin) hin⟩

lemma Inv.entryRemove (h : Inv held nodes s.mem) (hr : At s.mem a r) (hin : r.isRemoved=false) :
    ∃s',s.entryRemove r.key=.ok s' ∧ s'.lruList=s.lruList ∧ Fewer s s' ∧ Inv held (nodes.erase a) s'.mem := by
  have hre := (h.counted a r hr).refcnt
  rw [hin,if_neg Bool.false_ne_true] at hre
  have hp : removePut r=.ok {r with bucket:=none, refcnt:=r.refcnt-1} := by
    unfold removePut
    simp only [if_neg (show ¬r.refcnt=0 by omega),if_neg (show ¬r.refcnt=1 by omega)]
  refine ⟨s.setRec a (some {r with bucket:=none, refcnt:=r.refcnt-1}),?_,rfl,⟨length_set ..,?_⟩,h.remove hr hin⟩
  · unfold Storage.entryRemove
    simp only [h.find_inBucket hr hin,recAt_eq_some.2 hr,hp,ok_bind,if_neg (show ¬r.refcnt-1=0 by omega)]
  · intro b q hq hin'
    obtain ⟨-,rfl⟩ | ⟨-,hq⟩ := (at_set hr).1 hq
    · cases hin'
    · exact hq

lemma Inv.removeAll {dead : List Nat} (h : Inv held (dead++s.lruList) s.mem) :
    ∃s',removeAll dead s=.ok s' ∧ s'.lruList=s.lruList ∧ Fewer s s' ∧ Inv held s'.lruList s'.mem := by
  induction dead generalizing s with
  | nil => exact ⟨s,rfl,rfl,⟨rfl,fun _ _ hq _ => hq⟩,h⟩
  | cons a dead ih =>
    obtain ⟨r,hr,hin⟩ := (h.nodes_iff a).1 (mem_append_left _ (.head _))
    obtain ⟨s1,hrem,hl,hf,hi⟩ := h.entryRemove hr hin
    rw [cons_append,erase_cons_head,← hl] at hi
    obtain ⟨s',hre,hl',hf',hi'⟩ := ih hi
    refine ⟨s',?_,hl'.trans hl,hf.trans hf',hi'⟩
    simp only [Filter.removeAll,recAt_eq_some.2 hr,hrem,ok_bind,hre]

lemma Inv.evict (h : Inv held s.lruList s.mem) :
    ∃s',s.evict=.ok s' ∧ s'.lruList=s.lruList.drop dbRecsToFreeCnt ∧ Fewer s s' ∧ Inv held s'.lruList s'.mem := by
  have hp : s.lruList.Perm ((s.lruList.take dbRecsToFreeCnt).reverse++s.lruList.drop dbRecsToFreeCnt) := by
    conv_lhs => rw [← take_append_drop dbRecsToFreeCnt s.lruList]
    exact (reverse_perm _).symm.append_right _
  obtain ⟨s',hr,hl,hf,hi⟩ := Inv.removeAll (s := {s with lruList:=s.lruList.drop dbRecsToFreeCnt}) (h.perm hp)
  exact ⟨s',hr,hl,⟨hf.length,hf.stored⟩,hi⟩

lemma Inv.put (h : Inv held s.lruList s.mem) (ha : a∈held) :
    ∃s',putFingerprintRates s a=.ok s' ∧ s'.lruList=s.lruList ∧ s'.mem.length=s.mem.length ∧
      Inv (held.erase a) s'.lruList s'.mem := by
  obtain ⟨r,hr⟩ := h.at (h.held_lt a ha)
  have hc := h.counted a r hr
  have hp := count_pos_iff.2 ha
  have hge : 1≤(if r.isRemoved then 1 else 2) := by
    split
    · exact le_refl 1
    · exact Nat.le_succ 1
  have hre := hc.refcnt
  refine ⟨s.setRec a (some {r with refcnt:=r.refcnt-1}),?_,rfl,length_set ..,h.recount hr rfl rfl ⟨?_,hc.complete⟩ ?_⟩
  · unfold putFingerprintRates
    rw [recAt_eq_some.2 hr]
    simp only [if_neg (show ¬r.refcnt=0 by omega),if_neg (show ¬r.refcnt=1 by omega)]
  · change r.refcnt-1=(if r.isRemoved then 1 else 2)+(held.erase a).count a
    rw [count_erase_self]
    omega
  · intro b hb
    exact count_erase_of_ne hb

lemma visible_some : visible key (some r)=true ↔ (r.isRemoved=false ∧ r.key=key) ∧ r.complete=true := by
  simp [visible,inBucket_some]

def Unseen (s : Storage) (key : Nat) : Prop := ∀b q,At s.mem b q → q.isRemoved=false → q.key≠key

lemma Inv.unseen_iff (h : Inv held nodes s.mem) : Unseen s key ↔ s.mem.findIdx? (visible key)=none := by
  rw [findIdx?_eq_none_iff]
  constructor
  · intro hne o ho
    obtain ⟨b,hb⟩ := mem_iff_getElem?.mp ho
    obtain ⟨q,rfl⟩ := isSome_iff_exists.1 (h.alloc o ho)
    refine Bool.eq_false_iff.2 fun hv => ?_
    obtain ⟨⟨hin,hk⟩,-⟩ := visible_some.1 hv
    exact hne b q hb hin hk
  · intro hno b q hq hin hk
    have hn := hno (some q) (mem_of_getElem? hq)
    rw [visible_some.2 ⟨⟨hin,hk⟩,(h.counted b q hq).complete⟩] at hn
    cases hn

lemma recGet_none (hf : s.mem.findIdx? (visible key)=none) : s.recGet key=none := by
  rw [Storage.recGet,hf]
  rfl

lemma Inv.recGetAlloc_full (h : Inv held nodes s.mem) (hn : Unseen s key) (hf : cap ≤ s.mem.length) :
    s.recGetAlloc cap room key=none := by
  unfold Storage.recGetAlloc Storage.entryAlloc
  rw [recGet_none (h.unseen_iff.1 hn),h.used_eq]
  by_cases hk : key=0
  · simp [hk]
  · simp [hk,hf]

lemma Inv.recGetAlloc (h : Inv held s.lruList s.mem) (hg : s.recGetAlloc cap room key=some (a,s')) :
    s.mem.length ≤ s'.mem.length ∧ Inv (a::held) (s'.touch a).lruList s'.mem := by
  unfold Storage.recGetAlloc at hg
  cases hf : s.mem.findIdx? (visible key) with
  | some b =>
    obtain ⟨r,hr,hre,hv⟩ := h.findIdx hf
    obtain ⟨⟨hin,-⟩,hco⟩ := visible_some.1 hv
    have hrc : s.recGet key=some (b,s.setRec b (some (getRec r))) := by
      simp only [Storage.recGet,hf,hre,bind_eq_bind,bind_some]
    rw [hrc] at hg
    cases hg
    refine ⟨le_of_eq (length_set ..).symm,?_⟩
    have hm : a∈s.lruList := (h.nodes_iff a).2 ⟨r,hr,hin⟩
    have hp : s.lruList.Perm (s.lruList.erase a++[a]) := (perm_cons_erase hm).trans (perm_append_singleton a _).symm
    have hcou : Counted ((a::held).count a) (getRec r) := by
      refine ⟨?_,hco⟩
      change r.refcnt+1=(if r.isRemoved then 1 else 2)+(a::held).count a
      rw [count_cons_self,← add_assoc,← (h.counted a r hr).refcnt]
    refine (h.recount hr (show (getRec r).key=r.key from rfl) rfl hcou ?_).perm hp
    intro c hc
    exact count_cons_of_ne (Ne.symm hc)
  | none =>
    have hn := h.unseen_iff.2 hf
    rw [recGet_none hf] at hg
    obtain ⟨⟨b,s1⟩,ha,hg⟩ := bind_eq_some_iff.1 hg
    unfold Storage.entryAlloc at ha
    split_ifs at ha
    cases ha
    obtain ⟨r,hr,hg⟩ := bind_eq_some_iff.1 hg
    cases hg
    have hnw : At (s.mem++[some (getRec {createRec s.mem.length key () with complete:=false})]) s.mem.length
        (getRec {createRec s.mem.length key () with complete:=false}) := at_append.2 (.inl ⟨rfl,rfl⟩)
    have hr' := (recAt_eq_some.1 hr).inj hnw
    subst hr'
    have hs : (s.mem++[some (getRec {createRec s.mem.length key () with complete:=false})]).set s.mem.length
        (some {initRec (getRec {createRec s.mem.length key () with complete:=false}) with complete:=true}) =
        s.mem++[some {initRec (getRec (createRec s.mem.length key ())) with complete:=true}] := by
      rw [set_append_right _ _ le_rfl,Nat.sub_self]
      rfl
    have hcr := h.create (r := {initRec (getRec (createRec s.mem.length key ())) with complete:=true}) rfl rfl
      rfl hn
    refine ⟨?_,?_⟩
    · change s.mem.length≤(List.set _ _ _).length
      rw [hs,length_append]
      exact Nat.le_add_right _ _
    · change Inv _ (s.lruList.erase s.mem.length++[s.mem.length]) (List.set _ _ _)
      rw [hs]
      refine hcr.perm ?_
      have hno : s.mem.length∉s.lruList := fun hm => by
        obtain ⟨q,hq,-⟩ := (h.nodes_iff _).1 hm
        exact lt_irrefl _ hq.lt
      rw [erase_of_not_mem hno]
      exact (perm_append_singleton _ _).symm

structure Looked (held : List Nat) (s : Storage) (res : Option Nat) (s' : Storage) : Prop where
  inv : Inv (res.toList++held) s'.lruList s'.mem
  length : s.mem.length ≤ s'.mem.length
  res_mem : ∀a∈res,a∈s'.lruList

lemma Inv.ratesLoop {n : Nat} (h : Inv held s.lruList s.mem) (hn : s.lruList.length<n) (cap key : Nat)
    (room : Nat → Bool) : ∃res s',Filter.ratesLoop cap room key n s=.ok (res,s') ∧ Looked held s res s' := by
  induction n generalizing s with
  | zero => cases hn
  | succ n ih =>
    unfold Filter.ratesLoop
    cases hg : s.recGetAlloc cap (room n) key with
    | some got =>
      obtain ⟨a,s'⟩ := got
      obtain ⟨hl,hi⟩ := h.recGetAlloc hg
      refine ⟨some a,s'.touch a,rfl,hi,hl,?_⟩
      intro b hb
      cases hb
      exact mem_append_right _ (mem_singleton.2 rfl)
    | none =>
      by_cases hlr : s.lruList=[]
      · simp only [if_pos hlr]
        exact ⟨none,s,rfl,h,le_rfl,fun a ha => nomatch ha⟩
      · simp only [if_neg hlr]
        obtain ⟨s1,he,hd,hf,hi⟩ := h.evict
        have hp := length_pos_iff.2 hlr
        have hlt : s1.lruList.length<n := by
          rw [hd,length_drop,dbRecsToFreeCnt]
          omega
        obtain ⟨res,s',hr,hlo⟩ := ih hi hlt
        rw [he,ok_bind]
        exact ⟨res,s',hr,hlo.inv,hf.length ▸ hlo.length,hlo.res_mem⟩

lemma Inv.ratesLoop_full {n : Nat} (h : Inv held s.lruList s.mem) (hn : s.lruList.length<n) (hne : Unseen s key)
    (hfu : cap ≤ s.mem.length) (room : Nat → Bool) :
    ∃s',Filter.ratesLoop cap room key n s=.ok (none,s') ∧ s'.lruList=[] := by
  induction n generalizing s with
  | zero => cases hn
  | succ n ih =>
    unfold Filter.ratesLoop
    simp only [h.recGetAlloc_full hne hfu]
    by_cases hl : s.lruList=[]
    · simp only [if_pos hl]
      exact ⟨s,rfl,hl⟩
    · simp only [if_neg hl]
      obtain ⟨s1,he,hd,hf,hi⟩ := h.evict
      have hp := length_pos_iff.2 hl
      have hlt : s1.lruList.length<n := by
        rw [hd,length_drop,dbRecsToFreeCnt]
        omega
      rw [he,ok_bind]
      exact ih hi hlt (fun b q hq hin => hne b q (hf.stored b q hq hin) hin) (hf.length ▸ hfu)

def RatesState.Ok (t : RatesState) : Prop := Inv t.held t.storage.lruList t.storage.mem

variable {t : RatesState}
lemma RatesState.Ok.step (h : t.Ok) (cap : Nat) (ev : RatesEvent) :
    ∃t',ratesStep cap t ev=.ok t' ∧ t'.Ok ∧ t.storage.mem.length≤t'.storage.mem.length := by
  cases ev with
  | lookup fp room =>
    obtain ⟨res,s',hr,hlo⟩ := Inv.ratesLoop h (Nat.lt_succ_self _) cap fp.toNat room
    refine ⟨⟨s',res.toList++t.held⟩,?_,hlo.inv,hlo.length⟩
    rw [ratesStep,getFingerprintRates,hr]
    rfl
  | put a =>
    by_cases ha : a∈t.held
    · obtain ⟨s',hp,hlr,hl,hi⟩ := Inv.put h ha
      refine ⟨⟨s',t.held.erase a⟩,?_,hi,le_of_eq hl.symm⟩
      rw [ratesStep,if_pos ha,hp]
      rfl
    · exact ⟨t,if_neg ha,h,le_rfl⟩

lemma RatesState.Ok.run (h : t.Ok) (cap : Nat) (evs : List RatesEvent) :
    ∃t',ratesRun cap t evs=.ok t' ∧ t'.Ok ∧ t.storage.mem.length≤t'.storage.mem.length := by
  induction evs generalizing t with
  | nil => exact ⟨t,rfl,h,le_rfl⟩
  | cons ev evs ih =>
    obtain ⟨t1,hst,hok,hl⟩ := h.step cap ev
    obtain ⟨t',hr,hok',hl'⟩ := ih hok
    refine ⟨t',?_,hok',le_trans hl hl'⟩
    rw [ratesRun,hst,ok_bind,hr]

lemma ratesState_ok_empty : RatesState.Ok {} :=
  ⟨fun _ hr => (nomatch hr),fun _ _ hr => (nomatch hr),fun _ _ _ _ hr => (nomatch hr),
    fun _ => ⟨fun ha => (nomatch ha),fun ⟨_,hr,_⟩ => (nomatch hr)⟩,nodup_nil,fun _ ha => (nomatch ha)⟩

lemma RatesState.Ok.stuck (h : t.Ok) {cap : Nat} (hl : t.storage.lruList=[])
    (hf : cap≤t.storage.mem.length) (fp : UInt64) (room : Nat → Bool) :
    getFingerprintRates cap room t.storage fp=.ok (none,t.storage) := by
  have hn : Unseen t.storage fp.toNat := by
    intro b q hq hin
    have hm := (h.nodes_iff b).2 ⟨q,hq,hin⟩
    rw [hl] at hm
    cases hm
  unfold getFingerprintRates
  rw [hl]
  unfold ratesLoop
  simp only [h.recGetAlloc_full hn hf,if_pos hl]

lemma RatesState.Ok.run_stuck (h : t.Ok) {cap : Nat} (hlr : t.storage.lruList=[])
    (hf : cap≤t.storage.mem.length) (evs : List RatesEvent) :
    ∃t',ratesRun cap t evs=.ok t' ∧ t'.Ok ∧ t'.storage.lruList=[] ∧ cap≤t'.storage.mem.length := by
  induction evs generalizing t with
  | nil => exact ⟨t,rfl,h,hlr,hf⟩
  | cons ev evs ih =>
    obtain ⟨t1,hst,hok,hl⟩ := h.step cap ev
    have hl' : t1.storage.lruList=[] := by
      cases ev with
      | lookup fp room =>
        rw [ratesStep,h.stuck hlr hf] at hst
        cases hst
        exact hlr
      | put a =>
        by_cases ha : a∈t.held
        · obtain ⟨s',hp,hl',-,-⟩ := Inv.put h ha
          rw [ratesStep,if_pos ha,hp] at hst
          cases hst
          exact hl'.trans hlr
        · rw [ratesStep,if_neg ha] at hst
          cases hst
          exact hlr
    obtain ⟨t',hr,hre⟩ := ih hok hl' (le_trans hf hl)
    refine ⟨t',?_,hre⟩
    rw [ratesRun,hst,ok_bind,hr]

/-- After any history, a lookup that cuts records off the list frees none of them. -/
theorem eviction_never_frees (cap : Nat) (evs : List RatesEvent) :
    ∃t,ratesRun cap {} evs=.ok t ∧ ∀ (fp : UInt64) (room : Nat → Bool),
      ∃res s',getFingerprintRates cap room t.storage fp=.ok (res,s') ∧ (∀a∈t.storage.lruList,a∉s'.lruList →
          ∃r,s'.recAt a=some r ∧ r.refcnt=1+t.held.count a) ∧ (cap≤t.storage.used → t.storage.recGet fp.toNat=none →
          res=none ∧ s'.lruList=[] ∧ ∀evs' : List RatesEvent,∃t',ratesRun cap ⟨s',t.held⟩ evs'=.ok t' ∧
            ∀ (fp' : UInt64) (room' : Nat → Bool),
              getFingerprintRates cap room' t'.storage fp'=.ok (none,t'.storage)) := by
  obtain ⟨t,hru,hok,-⟩ := ratesState_ok_empty.run cap evs
  refine ⟨t,hru,fun fp room => ?_⟩
  obtain ⟨res,s',hlk,hl⟩ := Inv.ratesLoop hok (Nat.lt_succ_self _) cap fp.toNat room
  refine ⟨res,s',hlk,?_,?_⟩
  · intro a ha ho
    obtain ⟨q,hq,-⟩ := (hok.nodes_iff a).1 ha
    obtain ⟨r,hr⟩ := hl.inv.at (lt_of_lt_of_le hq.lt hl.length)
    refine ⟨r,recAt_eq_some.2 hr,?_⟩
    have hrem : r.isRemoved=true := by
      cases hin : r.isRemoved with
      | true => rfl
      | false => exact absurd ((hl.inv.nodes_iff a).2 ⟨r,hr,hin⟩) ho
    have hre := (hl.inv.counted a r hr).refcnt
    rw [hrem,if_pos rfl,count_append,count_eq_zero_of_not_mem,zero_add] at hre
    · exact hre
    · intro hm
      exact ho (hl.res_mem a (mem_toList.1 hm))
  · intro hf hno
    rw [Inv.used_eq hok] at hf
    have hn : Unseen t.storage fp.toNat := by
      refine (Inv.unseen_iff hok).2 ?_
      cases hfi : t.storage.mem.findIdx? (visible fp.toNat) with
      | none => rfl
      | some b =>
        obtain ⟨r,-,hrec,-⟩ := Inv.findIdx hok hfi
        simp [Storage.recGet,hfi,hrec] at hno
    obtain ⟨s'',hl',hlr⟩ := Inv.ratesLoop_full hok (Nat.lt_succ_self _) hn hf room
    cases hlk.symm.trans hl'
    refine ⟨rfl,hlr,fun evs' => ?_⟩
    obtain ⟨t',hr',hok',hlr',hf'⟩ := RatesState.Ok.run_stuck (t := ⟨s',t.held⟩) hl.inv hlr
      (le_trans hf hl.length) evs'
    exact ⟨t',hr',fun fp' room' => hok'.stuck hlr' hf' fp' room'⟩

/-- A storage for two records -/
def thirdFingerprint : Except TdbStop (List Nat×List Nat×Option Nat×Option Nat×List (Option Nat)) := do
  let t ← ratesRun 2 {} [.lookup 1 fun _ => true,.put 0,.lookup 2 fun _ => true,.put 1]
  let (third,s) ← getFingerprintRates 2 (fun _ => true) t.storage 3
  let (again,s) ← getFingerprintRates 2 (fun _ => true) s 1
  .ok (t.held,t.storage.lruList,third,again,s.mem.map (Option.map TdbFRec.refcnt))

/-- Both records are cut off and keep a reference that nobody has. -/
theorem eviction_leaks : thirdFingerprint.toOption=some ([],[0,1],none,none,[some 1,some 1]) := by decide +kernel
end VetWaf.Filter
