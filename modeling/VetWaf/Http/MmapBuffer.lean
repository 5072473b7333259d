import VetWaf.Base
import VetWaf.Lib.Run

namespace VetWaf.AccessLog
open List Function Nat

def mmapBufferGetRoom (size head tail : Nat) : Nat := size-(head-tail)-1

/-- `tfw_mmap_buffer_commit` succeeds. -/
def mmapBufferCommit (size head tail n : Nat) : Bool := head+n-tail<size-1

/-- A buffer with its producer, who has written some bytes to its room, and its consumer, who has read some bytes up to
the head it saw; `log` has all bytes ever committed and `out` those ever consumed. -/
structure Ring where
  mem : Nat → UInt8
  head : Nat := 0
  tail : Nat := 0
  room : Nat := 0
  written : Bytes := []
  seen : Nat := 0
  read : Bytes := []
  log : Bytes := []
  out : Bytes := []

namespace Ring

/-- The cell at `data+(pos & mask)+i`: the data area of `size` bytes is mapped twice in a row. -/
def cell (size pos i : Nat) : Nat := ((pos &&& (size-1))+i)%size

inductive Act where
  | getRoom
  | write (b : UInt8)
  | commit
  | load
  | read
  | store (n : Nat)

def step (size : Nat) (s : Ring) : Act → Option Ring
  | .getRoom => some {s with room:=mmapBufferGetRoom size s.head s.tail, written:=[]}
  | .write b =>
    if s.written.length<s.room then
      some {s with mem:=update s.mem (cell size s.head s.written.length) b, written:=s.written++[b]}
    else none
  | .commit =>
    if mmapBufferCommit size s.head s.tail s.written.length then
      some {s with head:=s.head+s.written.length, log:=s.log++s.written, room:=0, written:=[]}
    else some {s with room:=0, written:=[]}
  | .load => some {s with seen:=s.head, read:=[]}
  | .read =>
    if s.tail+s.read.length<s.seen then some {s with read:=s.read++[s.mem (cell size s.tail s.read.length)]}
    else none
  | .store n =>
    if s.tail+s.read.length=s.seen ∧ n ≤ s.read.length then
      some {s with tail:=s.tail+n, seen:=s.tail+n, read:=[], out:=s.out++s.read.take n}
    else none

structure Inv (size : Nat) (s : Ring) : Prop where
  room : s.head+s.room<s.tail+size
  written : s.written.length ≤ s.room
  seen : s.seen ≤ s.head
  read : s.tail+s.read.length ≤ s.seen
  log : s.log.length=s.head
  mem : ∀i,s.tail ≤ i → i<s.head+s.written.length → (s.log++s.written)[i]?=some (s.mem (i%size))
  copied : s.read=(s.log.drop s.tail).take s.read.length
  out : s.out=s.log.take s.tail

lemma cell_eq (k pos i : Nat) : cell (2^k) pos i=(pos+i)%2^k := by
  rw [cell,and_two_pow_sub_one_eq_mod,mod_add_mod]

/-- No byte of the room is in the place of an unread one. -/
lemma cell_ne {k pos i j : Nat} (hlt : i<pos+j) (hj : pos+j < i+2^k) : i%2^k≠cell (2^k) pos j := by
  rw [cell_eq]
  intro heq
  have hd := (modEq_iff_dvd' hlt.le).1 heq
  exact absurd (le_of_dvd (by omega) hd) (by omega)

variable {k : Nat}
lemma inv_step (s : Ring) (a : Act) (s' : Ring) (h : s.Inv (2^k)) (hs : s.step (2^k) a=some s') : s'.Inv (2^k) := by
  obtain ⟨hro,hw,hse,hr,hl,hm,hc,ho⟩ := h
  have hlg (i : Nat) (hi : s.tail ≤ i) (hlt : i<s.head) : s.log[i]?=some (s.mem (i%2^k)) := by
    rw [← hm i hi (by omega),getElem?_append_left (by omega)]
  cases a with
  | getRoom =>
    cases hs
    refine ⟨?_,Nat.zero_le _,hse,hr,hl,fun i hi hlt => ?_,hc,ho⟩
    · simp only [mmapBufferGetRoom]
      omega
    · rw [append_nil]
      exact hlg i hi hlt
  | write b =>
    rw [step,Option.ite_none_right_eq_some] at hs
    obtain ⟨hlt,hs⟩ := hs
    cases hs
    refine ⟨hro,by simpa using hlt,hse,hr,hl,fun i hi hi' => ?_,hc,ho⟩
    dsimp only at hi hi' ⊢
    rw [length_append,length_singleton,← add_assoc,Nat.lt_succ_iff_lt_or_eq] at hi'
    rw [← append_assoc]
    obtain hi' | rfl := hi'
    · rw [update_of_ne (cell_ne hi' (by omega)),getElem?_append_left (by simp; omega),hm i hi hi']
    · rw [← cell_eq,update_self,← hl,← length_append,getElem?_concat_length]
  | commit =>
    rw [step] at hs
    split_ifs at hs
    · cases hs
      refine ⟨?_,le_rfl,hse.trans (Nat.le_add_right _ _),hr,?_,?_,?_,?_⟩ <;> dsimp only
      · omega
      · rw [length_append,hl]
      · rwa [append_nil,length_nil]
      · rw [drop_append_of_le_length (by omega),take_append_of_le_length (by rw [length_drop]; omega)]
        exact hc
      · rw [take_append_of_le_length (by omega),ho]
    · cases hs
      refine ⟨?_,le_rfl,hse,hr,hl,fun i hi hlt => ?_,hc,ho⟩
      · dsimp only
        omega
      · rw [append_nil]
        exact hlg i hi hlt
  | load =>
    cases hs
    refine ⟨hro,hw,le_rfl,?_,hl,hm,rfl,ho⟩
    dsimp only [length_nil]
    omega
  | read =>
    rw [step,Option.ite_none_right_eq_some] at hs
    obtain ⟨hlt,hs⟩ := hs
    cases hs
    refine ⟨hro,hw,hse,?_,hl,hm,?_,ho⟩ <;> dsimp only
    · rwa [length_append]
    · rw [length_append,length_singleton,take_add_one,← hc,getElem?_drop,hlg _ (Nat.le_add_right _ _) (by omega),
        cell_eq]
      rfl
  | store n =>
    rw [step,Option.ite_none_right_eq_some] at hs
    obtain ⟨⟨hlt,hn⟩,hs⟩ := hs
    cases hs
    refine ⟨?_,hw,?_,le_rfl,hl,fun i hi => hm i ?_,rfl,?_⟩ <;> dsimp only at *
    · omega
    · omega
    · omega
    · rw [ho,hc,take_take,min_eq_left hn,take_add]

/-- Nothing is lost or corrupted. -/
theorem mmap_buffer_keeps {mem : Nat → UInt8} {as : List Act} {s : Ring} (h : Run.run (step (2^k)) {mem} as=some s) :
    s.tail ≤ s.head ∧ s.head-s.tail<2^k ∧ s.log.length=s.head ∧ s.out=s.log.take s.tail ∧
      s.read=(s.log.drop s.tail).take s.read.length ∧ (∀i,s.tail ≤ i → i<s.head → s.log[i]?=some (s.mem (i%2^k))) ∧
      ∀b s',s.step (2^k) (.write b)=some s' → ∀i,s.tail ≤ i → i<s.head → i%2^k≠cell (2^k) s.head s.written.length := by
  have hinit : Inv (2^k) {mem} := ⟨by simp,le_rfl,le_rfl,le_rfl,rfl,fun i _ hi => absurd hi (not_lt_zero i),rfl,rfl⟩
  obtain ⟨hro,hw,hse,hr,hl,hm,hc,ho⟩ := Run.run_invariant _ inv_step hinit h
  refine ⟨by omega,by omega,hl,ho,hc,fun i hi hlt => ?_,fun b s' hs i hi hlt => cell_ne (by omega) ?_⟩
  · rw [← hm i hi (by omega),getElem?_append_left (by omega)]
  · rw [step,Option.ite_none_right_eq_some] at hs
    omega

/-- The fifth byte is written in the place of the first one, which was consumed, and is read from there. -/
theorem mmap_buffer_keeps_wrapped :
    let as : List Act := [.getRoom,.write 1,.write 2,.commit,.load,.read,.read,.store 2,.getRoom,.write 3,.write 4,
      .commit,.load,.read,.read,.store 1,.getRoom,.write 5,.commit,.load,.read,.read,.store 2]
    ∃s,Run.run (step (2^2)) {mem:=fun _ => 0} as=some s ∧ s.mem 0=5 ∧ s.tail=5 ∧ s.out=s.log.take s.tail := by
  intro as
  obtain ⟨s,hs,hm,ht⟩ : ∃s,Run.run (step (2^2)) {mem:=fun _ => 0} as=some s ∧ s.mem 0=5 ∧ s.tail=5 := ⟨_,rfl,rfl,rfl⟩
  exact ⟨s,hs,hm,ht,(mmap_buffer_keeps hs).2.2.2.1⟩

end Ring

/-- The events of one CPU: `mmap_log_dropped`, with the calls so far, the events committed and the dropped counts in
them. -/
structure Cpu where
  head : Nat := 0
  tail : Nat := 0
  dropped : Nat := 0
  calls : Nat := 0
  committed : Nat := 0
  carried : Nat := 0

namespace Cpu

/-- `writes` are the lengths of what it writes before the counter; the consumer is at `seen` when the room is taken and
at `tail` when it is committed. -/
structure Req where
  writes : List Nat
  droppedTmp : Nat
  seen : Nat
  tail : Nat

/-- The room left by `WRITE_FIELD` and `WRITE_TO_BUF`, or `goto drop`. -/
def writeAll (room : Nat) : List Nat → Option Nat
  | [] => some room
  | n::writes => if room<n then none else writeAll (room-n) writes

def doAccessLogReqMmap (size : Nat) (s : Cpu) (r : Req) : Cpu :=
  let room := mmapBufferGetRoom size s.head r.seen
  let drop (dropped : Nat) : Cpu := {s with tail:=r.tail, calls:=s.calls+1, dropped:=dropped+1}
  match writeAll room (r.writes++if s.dropped=0 then [] else [8]) with
  | none => drop s.dropped
  | some left =>
    if mmapBufferCommit size s.head r.tail (room-left) then
      { head:=s.head+(room-left), tail:=r.tail, dropped:=0, calls:=s.calls+1, committed:=s.committed+1,
        carried:=s.carried+s.dropped}
    else drop (if s.dropped=0 then r.droppedTmp else s.dropped)

/-- A call, with the consumer on its way. -/
def step (size : Nat) (s : Cpu) (r : Req) : Option Cpu :=
  if s.tail ≤ r.seen ∧ r.seen ≤ r.tail ∧ r.tail ≤ s.head then some (s.doAccessLogReqMmap size r) else none

/-- The record does not fill the room exactly while nothing is dropped and the consumer rests. -/
def apart (size : Nat) (s : Cpu) (r : Req) : Bool :=
  s.dropped≠0 ∨ r.tail≠r.seen ∨ r.writes.sum≠mmapBufferGetRoom size s.head r.seen

structure Counted (size : Nat) (s : Cpu) : Prop where
  le : s.tail ≤ s.head
  lt : s.head < s.tail+size
  calls : s.calls=s.committed+s.carried+s.dropped

lemma writeAll_some {room left : Nat} {writes : List Nat} (h : writeAll room writes=some left) :
    left+writes.sum=room := by
  induction writes generalizing room with
  | nil => cases h; rfl
  | cons n writes ih =>
    rw [writeAll,Option.ite_none_left_eq_some] at h
    have := ih h.2
    rw [sum_cons]
    omega

variable {size : Nat}
lemma counted_step (s : Cpu) (r : Req) (s' : Cpu) (h : s.Counted size) (hr : s.apart size r=true)
    (hs : s.step size r=some s') : s'.Counted size := by
  obtain ⟨hle,hlt,hca⟩ := h
  rw [step,Option.ite_none_right_eq_some] at hs
  obtain ⟨⟨hse,hge,hh⟩,hs⟩ := hs
  cases hs
  unfold doAccessLogReqMmap
  dsimp only
  split
  case h_1 => constructor <;> dsimp only <;> omega
  case h_2 left hw =>
    have hsu := writeAll_some hw
    have hro : mmapBufferGetRoom size s.head r.seen=size-(s.head-r.seen)-1 := rfl
    rw [apart,decide_eq_true_eq] at hr
    rw [sum_append_nat] at hsu
    split_ifs with hc h0 <;> rw [mmapBufferCommit,decide_eq_true_eq] at hc
    · constructor <;> dsimp only <;> omega
    · rw [if_pos h0,sum_nil] at hsu
      omega
    · constructor <;> dsimp only <;> omega

/-- Every call is committed, counted in a later record or still in the counter. -/
theorem dropped_counted {rs : List Req} {s : Cpu} (hsize : 0<size)
    (hp : Run.along (step size) (apart size) {} rs=true) (h : Run.run (step size) {} rs=some s) :
    s.calls=s.committed+s.carried+s.dropped :=
  (Run.run_invariant_along _ counted_step ⟨le_rfl,by simpa using hsize,rfl⟩ hp h).calls

theorem dropped_counted_three :
    (Run.run (step 64) {} [⟨[40],5,0,0⟩,⟨[40],5,0,0⟩,⟨[4],5,0,9⟩]).map (fun s => (s.calls,s.head))=some (3,52) ∧
      3=2+1+0 := ⟨rfl,@dropped_counted 64 [⟨[40],5,0,0⟩,⟨[40],5,0,0⟩,⟨[4],5,0,9⟩] _ (by decide) (by decide) rfl⟩

/-- A record that fills the room is not committed, and what `dropped_tmp` happens to hold is counted. -/
theorem dropped_miscounted : (Run.run (step 64) {} [⟨[63],5,0,0⟩]).map (fun s => (s.calls,s.committed,s.dropped))=
    some (1,0,6) := by
  decide
end Cpu
end VetWaf.AccessLog
