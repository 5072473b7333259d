import VetWaf.Sock.WorkQueueInv

namespace VetWaf.Sock
open List
variable {C W : Type*} [DecidableEq C] {s s' : Wq C W}
def ConsumerStep (s s' : Wq C W) : Prop := s.popStep=some s' ∨ ∃buf,s.step (.popCall buf)=some s'

/-- The consumer alone leads from one state to the other. -/
structure Drains (s s' : Wq C W) : Prop where
  steps : Relation.ReflTransGen ConsumerStep s s'
  push : s'.push=s.push
  wins : s'.wins=s.wins
  cpus : s'.cpus=s.cpus
  head : s'.q.head=s.q.head
  heads : s'.q.heads=s.q.heads

lemma Drains.refl (s : Wq C W) : Drains s s := ⟨.refl,rfl,rfl,rfl,rfl,rfl⟩

lemma Drains.step {t : Wq C W} (h : Drains s' t) (hst : ConsumerStep s s') (hp : s'.push=s.push)
    (hw : s'.wins=s.wins) (hc : s'.cpus=s.cpus) (hh : s'.q.head=s.q.head)
    (hhe : s'.q.heads=s.q.heads) : Drains s t where
  steps := .head hst h.steps
  push := h.push.trans hp
  wins := h.wins.trans hw
  cpus := h.cpus.trans hc
  head := h.head.trans hh
  heads := h.heads.trans hhe

lemma Drains.trans {t : Wq C W} (h : Drains s s') (h' : Drains s' t) : Drains s t where
  steps := h.steps.trans h'.steps
  push := h'.push.trans h.push
  wins := h'.wins.trans h.wins
  cpus := h'.cpus.trans h.cpus
  head := h'.head.trans h.head
  heads := h'.heads.trans h.heads

lemma drains_memcpy {buf : WqItem W} {tail k : Nat} (hp : s.pop=.memcpy buf tail k) :
    ∃s',Drains s s' ∧ s'.pop=.idle ∧ s'.q.tail=tail+1 := by
  induction hn : wqWords-k generalizing s buf k with
  | zero =>
    have hk : ¬k<wqWords := by omega
    have hl : ConsumerStep s {s with pop:=.setTail buf tail} := by
      refine .inl ?_
      rw [Wq.popStep,hp]
      exact dif_neg hk
    refine ⟨_,(Drains.refl _).step (s := {s with pop:=.setTail buf tail}) (.inl rfl) rfl rfl rfl rfl rfl
      |>.step hl rfl rfl rfl rfl rfl,rfl,rfl⟩
  | succ n ih =>
    have hk : k<wqWords := by omega
    obtain ⟨s',hs',hd⟩ := ih (s := {s with
      pop:=.memcpy (Function.update buf ⟨k,hk⟩ (s.q.array (s.q.slot tail) ⟨k,hk⟩)) tail (k+1)}) rfl (by omega)
    refine ⟨s',hs'.step (.inl ?_) rfl rfl rfl rfl rfl,hd⟩
    rw [Wq.popStep,hp]
    exact dif_pos hk

lemma drains_scan {buf : WqItem W} {tail : Nat} {cpus : List C} (hp : s.pop=.scan buf tail cpus)
    (hf : ∀c∈cpus,s.q.heads c=none) (hlt : tail<s.q.lastHead) : ∃s',Drains s s' ∧ s'.pop=.memcpy buf tail 0 := by
  induction cpus generalizing s with
  | nil =>
    refine ⟨{s with pop:=.memcpy buf tail 0},(Drains.refl _).step (.inl ?_) rfl rfl rfl rfl rfl,rfl⟩
    rw [Wq.popStep,hp]
    exact if_neg (Nat.not_le_of_lt hlt)
  | cons c cpus ih =>
    obtain ⟨hc,hr⟩ := forall_mem_cons.1 hf
    obtain ⟨s',hs',hd⟩ := ih (s := {s with pop:=.scan buf tail cpus}) rfl hr hlt
    refine ⟨s',hs'.step (.inl ?_) rfl rfl rfl rfl rfl,hd⟩
    rw [Wq.popStep,hp]
    simp only [hc,guardMin]

lemma WqInv.drains_one (h : WqInv s) (hpu : ∀c,s.push c=.idle) (hp : s.pop=.idle)
    (hne : s.q.tail<s.q.head) : ∃s',Drains s s' ∧ s'.pop=.idle ∧ s'.q.tail=s.q.tail+1 := by
  have hlt : s.q.tail<s.wins.length := h.wins.symm ▸ hne
  -- the buffer may hold anything
  let buf : WqItem W := (s.wins[s.q.tail]).2
  have hca : ConsumerStep s {s with pop:=.readTail buf} := by
    refine .inr ⟨buf,?_⟩
    simp only [Wq.step,hp]
  have hr : ∃s',Drains {s with pop:=.readTail buf} s' ∧ s'.pop=.memcpy buf s.q.tail 0 := by
    by_cases hl : s.q.lastHead ≤ s.q.tail
    · have hf : ∀c∈s.cpus,s.q.heads c=none := by
        intro c hc
        have hok := h.push c hc
        rwa [hpu c] at hok
      obtain ⟨s',hs',hd⟩ := drains_scan
        (s := {s with q:={s.q with lastHead:=s.q.head}, pop:=.scan buf s.q.tail s.cpus}) rfl hf hne
      refine ⟨s',?_,hd⟩
      exact (hs'.step (s := {s with pop:=.readHead buf s.q.tail}) (.inl rfl) rfl rfl rfl rfl rfl).step
        (.inl (if_pos hl)) rfl rfl rfl rfl rfl
    · exact ⟨_,(Drains.refl _).step (.inl (if_neg hl)) rfl rfl rfl rfl rfl,rfl⟩
  obtain ⟨s1,hs1,hco⟩ := hr
  obtain ⟨s2,hs2,hd⟩ := drains_memcpy hco
  exact ⟨s2,(hs1.trans hs2).step hca rfl rfl rfl rfl rfl,hd⟩

lemma WqInv.consumerStep (h : WqInv s) (hst : ConsumerStep s s') : WqInv s' := by
  obtain hst | ⟨buf,hst⟩ := hst
  · exact h.popStep hst
  · exact h.step hst

lemma WqInv.drains (h : WqInv s) (hs : Drains s s') : WqInv s' := by
  have hst := hs.steps
  clear hs
  induction hst with
  | refl => exact h
  | tail _ hsp ih => exact ih.consumerStep hsp

lemma WqInv.drains_all (h : WqInv s) (hp : ∀c,s.push c=.idle) (hpo : s.pop=.idle) :
    ∃s',Drains s s' ∧ s'.popped=s.wins.map Prod.snd := by
  induction hn : s.q.head-s.q.tail generalizing s with
  | zero =>
    refine ⟨s,Drains.refl s,?_⟩
    rw [h.popped,take_of_length_le]
    rw [length_map,h.wins]
    omega
  | succ n ih =>
    obtain ⟨s1,hs1,hi,ht⟩ := h.drains_one hp hpo (by omega)
    have hh := hs1.head
    obtain ⟨s2,hs2,ha⟩ := ih (h.drains hs1) (fun c => by rw [hs1.push,hp c]) hi (by omega)
    exact ⟨s2,hs1.trans hs2,by rw [ha,hs1.wins]⟩

/-- In every interleaving the popped items are the first ones of those that won a position. -/
theorem work_queue_fifo {cpus : List C} {k : Nat} {mem : Nat → WqItem W} {es : List (WqEvent C W)}
    (hrun : Run.run Wq.step (tfwWqInit cpus (2^k) mem) es=some s) : s.popped <+: s.wins.map Prod.snd ∧
      (∀c,s.winsOf c=s.pushedOf c++(s.push c).won) ∧ (∀r∈s.rets,if r.full then 0<r.ret else r.ret=0) ∧
      (∀buf tail k,s.pop=.memcpy buf tail k → (s.wins[tail]?).map Prod.snd=some (s.q.array (s.q.slot tail))) ∧
      (∀c ptr head k,s.push c=.memcpy ptr head k → s.wins[head]?=some (c,ptr) ∧
        ∀pos,s.q.tail≤pos → pos<s.q.head → pos≠head → s.q.slot pos≠s.q.slot head) ∧ ((∀c,s.push c=.idle) → s.pop=.idle →
        ∃s',Relation.ReflTransGen ConsumerStep s s' ∧ s'.popped=s.wins.map Prod.snd) := by
  have h : WqInv s := Run.run_invariant Wq.step (P := WqInv) (fun _ _ _ h hst => h.step hst)
    (wqInv_init cpus k mem) hrun
  refine ⟨?_,h.pushed,h.rets,?_,?_,?_⟩
  · rw [h.popped]
    exact List.take_prefix _ _
  · intro buf tail k hpo
    have hok := h.pop
    rw [hpo] at hok
    obtain ⟨ht,hlt,c,item,hw,-⟩ := hok
    rw [h.complete (by rw [hpo]; rfl) (le_of_eq ht.symm) hlt hw,hw]
    rfl
  · intro c ptr head k hc
    obtain ⟨-,-,hle,hw,-⟩ := h.pushOk hc nofun
    exact ⟨hw,fun pos hp hp' hne => h.slot_ne hp hp' hle (h.lt_head hw) hne⟩
  · intro hpu hpo
    obtain ⟨s',hs',ha⟩ := h.drains_all hpu hpo
    exact ⟨s',hs'.steps,ha⟩

def oneSlotEvents : List (WqEvent Bool Nat) :=
  [.pushCall true (fun i => i),.push true,.push true,.push true,.push true,.push true,.push true,
    .pushCall false (fun _ => 9),.push false,.push false]++replicate 20 (.push false) ++
  [.popCall (fun _ => 0),.pop,.pop,.pop,.pop,.pop]++replicate 4 (.push true) ++
  [.popCall (fun _ => 0)]++replicate 11 .pop

theorem work_queue_fifo_one_slot : ∃s : Wq Bool Nat,
      Run.run Wq.step (tfwWqInit [true,false] (2^0) fun _ _ => 0) oneSlotEvents=some s ∧
      (s.rets.map fun r => (r.cpu,r.ret))=[(false,1),(true,0)] ∧
      (s.pops.map Prod.snd=[0,0] ∧ s.popped.length=1) ∧ s.popped <+: s.wins.map Prod.snd := by
  have hlo : (Run.run Wq.step (tfwWqInit [true,false] (2^0) fun _ _ => 0) oneSlotEvents).map
      (fun s => (s.rets.map fun r => (r.cpu,r.ret),s.pops.map Prod.snd,s.popped.length)) =
      some ([(false,1),(true,0)],[0,0],1) := by
    decide +kernel
  obtain ⟨s,hr,hs⟩ := Option.map_eq_some_iff.1 hlo
  injection hs with hre hp
  injection hp with ht hl
  exact ⟨s,hr,hre,⟨ht,hl⟩,(work_queue_fifo hr).1⟩
end VetWaf.Sock
