import VetWaf.Lib.Run
import VetWaf.H2.Stream

namespace VetWaf.H2
open List Run

/-- The backward loop of `tfw_h2_stream_add_idle`, on the queue in reverse order. -/
def insertBackwards (id : Nat) : List Nat → Option (List Nat)
  | [] => none
  | cur::prev => if cur < id then some (id::cur::prev) else (insertBackwards id prev).map (cur :: ·)

variable {id : Nat} {l l' : List Nat}
lemma insertBackwards_eq_none : insertBackwards id l=none ↔ ∀cur∈l,id≤cur := by
  induction l with
  | nil => simp [insertBackwards]
  | cons cur prev ih =>
    rw [insertBackwards]
    split_ifs with h
    · simp [Nat.not_le.2 h]
    · simp [ih,le_of_not_gt h]

lemma mem_insertBackwards (h : insertBackwards id l=some l') (t : Nat) : t∈l' ↔ t=id ∨ t∈l := by
  induction l generalizing l' with
  | nil => cases h
  | cons cur prev ih =>
    rw [insertBackwards] at h
    split_ifs at h with hlt
    · cases h
      simp
    · obtain ⟨rest,hr,rfl⟩ := Option.map_eq_some_iff.1 h
      simp only [mem_cons,ih hr]
      tauto

lemma length_insertBackwards (h : insertBackwards id l=some l') : l'.length=l.length+1 := by
  induction l generalizing l' with
  | nil => cases h
  | cons cur prev ih =>
    rw [insertBackwards] at h
    split_ifs at h with hlt
    · cases h
      rfl
    · obtain ⟨rest,hr,rfl⟩ := Option.map_eq_some_iff.1 h
      rw [length_cons,ih hr,length_cons]

lemma pairwise_insertBackwards (hl : l.Pairwise (· > ·))
    (hid : id∉l) (h : insertBackwards id l=some l') : l'.Pairwise (· > ·) := by
  induction l generalizing l' with
  | nil => cases h
  | cons cur prev ih =>
    obtain ⟨hc,hp⟩ := pairwise_cons.1 hl
    rw [insertBackwards] at h
    split_ifs at h with hlt
    · cases h
      refine pairwise_cons.2 ⟨?_,hl⟩
      intro t ht
      obtain rfl | ht := mem_cons.1 ht
      · exact hlt
      · exact lt_trans (hc t ht) hlt
    · obtain ⟨rest,hr,rfl⟩ := Option.map_eq_some_iff.1 h
      have hne : cur≠id := by
        intro heq
        exact hid (heq ▸ (.head _))
      refine pairwise_cons.2 ⟨?_,ih hp (fun hm => hid (.tail _ hm)) hr⟩
      intro t ht
      obtain rfl | ht := (mem_insertBackwards hr t).1 ht
      · omega
      · exact hc t ht

namespace H2Ctx

def queued (c : H2Ctx) (id : Nat) : Bool := id∈c.idleStreams.list ∨ id∈c.closedStreams.list

/-- `tfw_h2_stream_add_to_queue_nolock` for the queue of idle streams -/
def addToIdleNolock (c : H2Ctx) (id : Nat) : H2Ctx :=
  if c.queued id then c
  else
    {c with
      idleStreams:={list:=c.idleStreams.list++[id], num:=c.idleStreams.num+1}}

def streamAddClosed (c : H2Ctx) (id : Nat) : H2Ctx :=
  if c.queued id then c
  else
    {c with
      closedStreams:={list:=c.closedStreams.list++[id], num:=c.closedStreams.num+1}}

def delFromQueueNolock (c : H2Ctx) (id : Nat) : H2Ctx :=
  if id∈c.idleStreams.list then
    {c with
      idleStreams:={list:=c.idleStreams.list.erase id, num:=c.idleStreams.num-1}}
  else if id∈c.closedStreams.list then
    {c with
      closedStreams:={list:=c.closedStreams.list.erase id, num:=c.closedStreams.num-1}}
  else c

def streamAddIdle (c : H2Ctx) (id : Nat) : H2Ctx :=
  match insertBackwards id c.idleStreams.list.reverse with
  | some l => {c with idleStreams:={list:=l.reverse, num:=c.idleStreams.num+1}}
  | none => c.addToIdleNolock id

def streamRemoveIdle (c : H2Ctx) (id : Nat) : H2Ctx := c.delFromQueueNolock id

def setStreamState (c : H2Ctx) (id : Nat) (state : TfwStreamState) : H2Ctx := {c with
    streams:=c.streams.map fun t => if t.id=id then {t with state:=state} else t}

def removeIdleLoop (id : Nat) : List Nat → H2Ctx → H2Ctx
  | [], c => c
  | t::rest, c =>
    if id≤t then c
    else
      removeIdleLoop id rest (((c.delFromQueueNolock t).setStreamState t .closed).streamAddClosed t)

def removeIdleStreams (c : H2Ctx) (id : Nat) : H2Ctx := removeIdleLoop id c.idleStreams.list c

/-- The idle streams are in ascending order and in no other queue. -/
structure IdleInv (c : H2Ctx) : Prop where
  sorted : c.idleStreams.list.Pairwise (· < ·)
  num : c.idleStreams.num=c.idleStreams.list.length
  apart : ∀id∈c.idleStreams.list,id∉c.closedStreams.list

variable {c : H2Ctx}
lemma IdleInv.streamAddIdle (h : IdleInv c) {id : Nat} (hne : c.queued id=false)
    (hp : c.idleStreams.list=[] ∨ ∃cur∈c.idleStreams.list,cur < id) : IdleInv (c.streamAddIdle id) := by
  have hn' : id∉c.idleStreams.list ∧ id∉c.closedStreams.list := by simpa [queued] using hne
  unfold H2Ctx.streamAddIdle
  cases hi : insertBackwards id c.idleStreams.list.reverse with
  | none =>
    have ha := insertBackwards_eq_none.1 hi
    have hn : c.idleStreams.list=[] := by
      obtain hn | ⟨cur,hc,hlt⟩ := hp
      · exact hn
      · have hle := ha cur (mem_reverse.2 hc)
        omega
    simp only [addToIdleNolock,hne,Bool.false_eq_true,if_false,hn,nil_append]
    constructor
    · exact pairwise_singleton _ _
    · simp [h.num,hn]
    · intro t ht
      rw [mem_singleton.1 ht]
      exact hn'.2
  | some l =>
    have hs : l.Pairwise (· > ·) := by
      apply pairwise_insertBackwards (pairwise_reverse.2 h.sorted) _ hi
      rw [mem_reverse]
      exact hn'.1
    constructor
    · exact pairwise_reverse.2 hs
    · simp [h.num,length_insertBackwards hi]
    · intro t ht
      obtain rfl | ht := (mem_insertBackwards hi t).1 (mem_reverse.1 ht)
      · exact hn'.2
      · exact h.apart t (mem_reverse.1 ht)

lemma IdleInv.delFromQueueNolock (h : IdleInv c) (id : Nat) : IdleInv (c.delFromQueueNolock id) := by
  unfold H2Ctx.delFromQueueNolock
  split_ifs with hi hc
  · constructor
    · exact h.sorted.erase id
    · simp [h.num,length_erase_of_mem hi]
    · intro t ht
      exact h.apart t (mem_of_mem_erase ht)
  · constructor
    · exact h.sorted
    · exact h.num
    · intro t ht hm
      exact h.apart t ht (mem_of_mem_erase hm)
  · exact h

lemma removed_front {t : Nat} {rest : List Nat} (h : IdleInv c) (hli : c.idleStreams.list=t::rest) :
    let c' := ((c.delFromQueueNolock t).setStreamState t .closed).streamAddClosed t
    IdleInv c' ∧ c'.idleStreams.list=rest ∧ c'.closedStreams.list=c.closedStreams.list++[t] ∧
      c'.streams=c.streams.map fun s => if s.id=t then {s with state:=.closed} else s := by
  have hm : t∈c.idleStreams.list := hli ▸ (.head _)
  have hd : c.delFromQueueNolock t={c with idleStreams:={list:=rest, num:=c.idleStreams.num-1}} := by
    rw [H2Ctx.delFromQueueNolock,if_pos hm,hli,erase_cons_head]
  have hso := h.sorted
  rw [hli] at hso
  obtain ⟨hl,hr⟩ := pairwise_cons.1 hso
  have hn : t∉rest := fun ht => lt_irrefl _ (hl t ht)
  have hc : t∉c.closedStreams.list := h.apart t hm
  intro c'
  have hc' : c'={c with
      idleStreams:={list:=rest, num:=c.idleStreams.num-1}
      closedStreams:={list:=c.closedStreams.list++[t], num:=c.closedStreams.num+1}
      streams:=c.streams.map fun s => if s.id=t then {s with state:=.closed} else s} := by
    simp only [c',hd,streamAddClosed,queued,setStreamState,hn,hc,or_self,decide_false,Bool.false_eq_true,if_false]
  rw [hc']
  refine ⟨⟨hr,?_,?_⟩,rfl,rfl,rfl⟩
  · simp [h.num,hli]
  · intro s hs hm'
    obtain hold | hne := mem_append.1 hm'
    · exact h.apart s (hli ▸ mem_cons_of_mem _ hs) hold
    · rw [mem_singleton.1 hne] at hs
      exact hn hs

structure Removed (c : H2Ctx) (id : Nat) (c' : H2Ctx) : Prop where
  inv : IdleInv c'
  idle : c'.idleStreams.list=c.idleStreams.list.filter (id ≤ ·)
  closed : c'.closedStreams.list=c.closedStreams.list++c.idleStreams.list.filter (· < id)
  state : c'.streams=c.streams.map fun s => if s.id∈c.idleStreams.list ∧ s.id < id then {s with state:=.closed} else s

lemma removed_removeIdleStreams (h : IdleInv c) (id : Nat) : Removed c id (c.removeIdleStreams id) := by
  unfold removeIdleStreams
  -- along the queue, which the loop shortens as it goes
  generalize hli : c.idleStreams.list=l
  induction l generalizing c with
  | nil => refine ⟨h,?_,?_,?_⟩ <;> simp [removeIdleLoop,hli]
  | cons t rest ih =>
    have hso := h.sorted
    rw [hli] at hso
    obtain ⟨hl,hre⟩ := pairwise_cons.1 hso
    rw [removeIdleLoop]
    split_ifs with hle
    · -- the queue is sorted, so that all of the rest is above, too
      have ha : ∀s∈c.idleStreams.list,id ≤ s := by
        intro s hs
        rw [hli] at hs
        obtain rfl | hs := mem_cons.1 hs
        · exact hle
        · exact le_of_lt (lt_of_le_of_lt hle (hl s hs))
      refine ⟨h,?_,?_,?_⟩
      · rw [filter_eq_self.2]
        simpa using ha
      · rw [filter_eq_nil_iff.2,append_nil]
        simpa using ha
      · rw [map_id'']
        intro s
        rw [if_neg]
        intro hs
        exact absurd hs.2 (Nat.not_lt.2 (ha _ hs.1))
    · obtain ⟨hi,hil,hc,hst⟩ := removed_front h hli
      have hr := ih hi hil
      have hlt : t < id := lt_of_not_ge hle
      refine ⟨hr.inv,?_,?_,?_⟩
      · rw [hr.idle,hil,hli,filter_cons_of_neg (by simpa using hlt)]
      · rw [hr.closed,hc,hil,hli,filter_cons_of_pos (by simpa using hlt),append_assoc,singleton_append]
      · rw [hr.state,hst,hil,hli,map_map]
        apply map_congr_left
        intro s _
        by_cases hs : s.id=t
        · simp [hs,hlt]
        · simp [hs]

end H2Ctx

inductive IdleOp where
  | addIdle (id : Nat)
  | removeIdle (id : Nat)
  | removeIdleStreams (id : Nat)
  deriving DecidableEq

def idleStep (c : H2Ctx) : IdleOp → Option H2Ctx
  | .addIdle id => if c.queued id then none else some (c.streamAddIdle id)
  | .removeIdle id => some (c.streamRemoveIdle id)
  | .removeIdleStreams id => some (c.removeIdleStreams id)

def notFirst (c : H2Ctx) : IdleOp → Bool
  | .addIdle id => c.idleStreams.list.isEmpty || c.idleStreams.list.any (· < id)
  | _ => true

lemma idleInv_step (c : H2Ctx) (op : IdleOp) (c' : H2Ctx) (h : c.IdleInv)
    (ho : notFirst c op=true) (hst : idleStep c op=some c') : c'.IdleInv := by
  cases op with
  | addIdle id =>
    rw [idleStep] at hst
    split_ifs at hst with hq
    cases hst
    apply h.streamAddIdle (by simpa using hq)
    simpa [notFirst] using ho
  | removeIdle id =>
    cases hst
    exact h.delFromQueueNolock id
  | removeIdleStreams id =>
    cases hst
    exact (H2Ctx.removed_removeIdleStreams h id).inv

/-- As long as no stream is added below all idle ones, the queue is sorted, and opening a stream
closes exactly the idle streams with lower ids. -/
theorem idle_streams_stay_sorted {c c' : H2Ctx} {ops : List IdleOp} (hc : c.idleStreams={})
    (hops : along idleStep notFirst c ops=true) (hrun : run idleStep c ops=some c') :
    c'.idleStreams.list.Pairwise (· < ·) ∧ c'.idleStreams.num=c'.idleStreams.list.length ∧ ∀id,
        (c'.removeIdleStreams id).idleStreams.list=c'.idleStreams.list.filter (id ≤ ·) ∧
        (c'.removeIdleStreams id).closedStreams.list=c'.closedStreams.list++c'.idleStreams.list.filter (· < id) ∧
        (c'.removeIdleStreams id).streams=c'.streams.map fun s =>
          if s.id∈c'.idleStreams.list ∧ s.id < id then {s with state:=.closed} else s := by
  have hinit : c.IdleInv := by constructor <;> simp [hc]
  have hi := run_invariant_along idleStep idleInv_step hinit hops hrun
  refine ⟨hi.sorted,hi.num,?_⟩
  intro id
  have hr := H2Ctx.removed_removeIdleStreams hi id
  exact ⟨hr.idle,hr.closed,hr.state⟩

/-- Streams 5, 9 and 7 are added, and then those below 7 are closed. -/
theorem idle_streams_stay_sorted_ascending : ∃c' : H2Ctx,run idleStep {recv:={maxFrameSz:=16384}}
        [.addIdle 5,.addIdle 9,.addIdle 7,.removeIdleStreams 7]=some c' ∧
      c'.idleStreams.list.Pairwise (· < ·) ∧ c'.idleStreams.list=[7,9] := by
  refine ⟨_,rfl,?_,rfl⟩
  exact (@idle_streams_stay_sorted {recv:={maxFrameSz:=16384}} _
    [.addIdle 5,.addIdle 9,.addIdle 7,.removeIdleStreams 7] rfl (by decide +kernel) rfl).1

/-- Stream 3 is put behind stream 5, and opening stream 4 then does not close it. -/
theorem idle_stream_added_below_all : ((run idleStep {recv:={maxFrameSz:=16384}} [.addIdle 5,.addIdle 3]).map
        (·.idleStreams.list))=some [5,3] ∧ ((run idleStep {recv:={maxFrameSz:=16384}}
          [.addIdle 5,.addIdle 3,.removeIdleStreams 4]).map (·.idleStreams.list))=some [5,3] := by
  decide +kernel
end VetWaf.H2
