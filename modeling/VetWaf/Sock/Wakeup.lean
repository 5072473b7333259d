import VetWaf.Lib.Run

namespace VetWaf.Sock.Wakeup
variable {P : Type*}

/-- Where `ss_tx_action()` stands, behind its loop with the values that `ss_wq_local_size()` has read -/
inductive TxAction where
  | away
  | loop
  /-- At `if (budget)` -/
  | budget
  | readTail
  | readHead (t : Nat)
  | readSize (size : Nat)
  | clearBit
  | raise
  deriving DecidableEq

/-- The works of a CPU in the ring and in the backlog, and the flag. -/
structure Tx (P : Type*) where
  qsize : Nat
  head : Nat
  tail : Nat
  backlog : Nat
  ipi : Bool
  testing : P → Bool
  raising : Nat
  irqWork : Bool
  handlers : Nat
  cleared : Nat
  softirq : Bool
  consumer : TxAction

inductive TxEvent (P : Type*) where
  /-- The `atomic64_cmpxchg()` of `__tfw_wq_push()` -/
  | push (p : P)
  /-- The section of `ss_turnstile_push()` under the lock -/
  | turnstile (p : P)
  | testBit (p : P)
  /-- `tfw_raise_softirq()` on the CPU of the consumer or on another one -/
  | raise (here : Bool)
  /-- The interrupt of `irq_work_queue_on()` -/
  | irq
  | clearBit
  | raiseSoftirq
  /-- `NET_TX_SOFTIRQ` is raised for another reason. -/
  | netTx
  | action
  | pop
  | popBacklog
  /-- The loop ends. -/
  | leave
  /-- A step behind the loop; `spent` if the budget is zero -/
  | finish (spent : Bool)

def txInit (qsize : Nat) : Tx P where
  qsize := qsize
  head := 0
  tail := 0
  backlog := 0
  ipi := true
  testing := fun _ => false
  raising := 0
  irqWork := false
  handlers := 0
  cleared := 0
  softirq := false
  consumer := .away

/-- The end of `ss_tx_action()`, with `TFW_WQ_IPI_SYNC` -/
def Tx.finish (s : Tx P) (spent : Bool) : Option (Tx P) :=
  match s.consumer with
  | .away | .loop => none
  | .budget => some (if spent then {s with consumer:=.raise} else {s with ipi:=true, consumer:=.readTail})
  | .readTail => some {s with consumer:=.readHead s.tail}
  | .readHead t => some {s with consumer:=.readSize (s.head-t)}
  | .readSize size => some {s with consumer:=if size+s.backlog=0 then .away else .clearBit}
  | .clearBit => some {s with ipi:=false, consumer:=.raise}
  | .raise => some {s with softirq:=true, consumer:=.away}

def Tx.step [DecidableEq P] (s : Tx P) : TxEvent P → Option (Tx P)
  | .push p =>
    if s.testing p=false ∧ s.head<s.tail+s.qsize then
      some {s with head:=s.head+1, testing:=Function.update s.testing p true}
    else none
  | .turnstile p =>
    if s.testing p=false then
      some {s with backlog:=s.backlog+1, testing:=Function.update s.testing p true}
    else none
  | .testBit p =>
    if s.testing p then
      some {s with testing:=Function.update s.testing p false, raising:=s.raising+s.ipi.toNat}
    else none
  | .raise here =>
    if 0<s.raising then
      some (if here then {s with raising:=s.raising-1, handlers:=s.handlers+1}
        else {s with raising:=s.raising-1, irqWork:=true})
    else none
  | .irq => if s.irqWork then some {s with irqWork:=false, handlers:=s.handlers+1} else none
  | .clearBit =>
    if 0<s.handlers then some {s with handlers:=s.handlers-1, ipi:=false, cleared:=s.cleared+1} else none
  | .raiseSoftirq => if 0<s.cleared then some {s with cleared:=s.cleared-1, softirq:=true} else none
  | .netTx => some {s with softirq:=true}
  | .action => if s.softirq ∧ s.consumer=.away then some {s with softirq:=false, consumer:=.loop} else none
  | .pop => if s.consumer=.loop ∧ s.tail<s.head then some {s with tail:=s.tail+1} else none
  | .popBacklog => if s.consumer=.loop ∧ 0<s.backlog then some {s with backlog:=s.backlog-1} else none
  | .leave => if s.consumer=.loop then some {s with consumer:=.budget} else none
  | .finish spent => s.finish spent

/-- A call of `tfw_raise_softirq()`, an interrupt or a call of `ss_ipi()` has not raised the softirq yet. -/
def Tx.IpiPending (s : Tx P) : Prop := 0<s.raising ∨ s.irqWork=true ∨ 0<s.handlers ∨ 0<s.cleared

def Tx.Coming (s : Tx P) : Prop := (∃p,s.testing p=true) ∨ s.IpiPending ∨ s.softirq=true

/-- The consumer goes on to `set_bit()` or to `raise_softirq()`. -/
def Tx.Awake (s : Tx P) : Prop := s.consumer=.loop ∨ s.consumer=.budget ∨ s.consumer=.raise

/-- A cleared flag means a softirq to come. -/
structure TxInv (s : Tx P) : Prop where
  le_head : s.tail ≤ s.head
  flag : s.ipi=false → 0<s.cleared ∨ s.softirq=true ∨ s.Awake
  read : ∀t,s.consumer=.readHead t → s.tail=t
  ring : s.consumer=.away ∨ s.consumer=.readSize 0 → s.tail<s.head → s.Coming
  backlog : s.consumer=.away → 0<s.backlog → s.Coming

lemma txInv_init (qsize : Nat) : TxInv (txInit qsize : Tx P) where
  le_head := Nat.le_refl 0
  flag h := nomatch h
  read _ h := nomatch h
  ring _ h := absurd h (Nat.lt_irrefl 0)
  backlog _ h := absurd h (Nat.lt_irrefl 0)

variable {s s' : Tx P}
lemma TxInv.coming (h : TxInv s) (hco : s'.consumer=s.consumer) (ht : s'.tail=s.tail)
    (hh : s.head ≤ s'.head) (hf : s'.ipi=false → 0<s'.cleared ∨ s'.softirq=true ∨ s'.Awake)
    (hc : ¬s'.Awake → s'.Coming) : TxInv s' where
  le_head := by
    rw [ht]
    exact Nat.le_trans h.le_head hh
  flag := hf
  read := by
    rw [hco,ht]
    exact h.read
  ring hp _ := hc (by rintro (ha | ha | ha) <;> rw [ha] at hp <;> exact hp.elim nofun nofun)
  backlog hp _ := hc (by rintro (ha | ha | ha) <;> rw [ha] at hp <;> cases hp)

lemma TxInv.awake (h : s'.tail ≤ s'.head) (hco : s'.consumer=.loop ∨ s'.consumer=.budget) : TxInv s' := by
  constructor <;> rcases hco with hc | hc <;> simp [hc,Tx.Awake,h]

lemma TxInv.finish (h : TxInv s) {spent : Bool} (hst : s.finish spent=some s') : TxInv s' := by
  have hle := h.le_head
  have hf := h.flag
  unfold Tx.finish at hst
  cases he : s.consumer with
  | away | loop => simp [he] at hst
  | budget =>
    simp only [he,Option.some.injEq] at hst
    cases spent <;> cases hst <;> constructor <;> simp_all [Tx.Awake]
  | readTail =>
    simp only [he,Option.some.injEq] at hst
    cases hst
    constructor <;> simp_all [Tx.Awake]
  | readHead t =>
    simp only [he,Option.some.injEq] at hst
    cases hst
    have ht := h.read t he
    constructor <;> simp_all [Tx.Awake]
    omega
  | readSize size =>
    simp only [he,Option.some.injEq] at hst
    cases hst
    have hr := h.ring
    split_ifs with hem
    · constructor <;> simp_all [Tx.Awake,Tx.Coming,Tx.IpiPending]
    · constructor <;> simp_all [Tx.Awake,-Nat.add_eq_zero_iff]
  | clearBit =>
    simp only [he,Option.some.injEq] at hst
    cases hst
    constructor <;> simp_all [Tx.Awake]
  | raise =>
    simp only [he,Option.some.injEq] at hst
    cases hst
    constructor <;> simp_all [Tx.Coming]

variable [DecidableEq P]
lemma TxInv.step (h : TxInv s) {e : TxEvent P} (hst : s.step e=some s') : TxInv s' := by
  cases e with
  | push p =>
    simp only [Tx.step] at hst
    split_ifs at hst
    cases hst
    exact h.coming rfl rfl (Nat.le_succ _) h.flag fun _ => .inl ⟨p,by simp⟩
  | turnstile p =>
    simp only [Tx.step] at hst
    split_ifs at hst
    cases hst
    exact h.coming rfl rfl (Nat.le_refl _) h.flag fun _ => .inl ⟨p,by simp⟩
  | testBit p =>
    simp only [Tx.step] at hst
    split_ifs at hst
    cases hst
    refine h.coming rfl rfl (Nat.le_refl _) h.flag fun hsl => .inr ?_
    -- the flag is set, or it was cleared by a handler that is about to raise the softirq
    cases hi : s.ipi with
    | true => exact .inl (.inl (by simp))
    | false =>
      obtain hc | hs | ha := h.flag hi
      · exact .inl (.inr (.inr (.inr hc)))
      · exact .inr hs
      · exact absurd ha hsl
  | raise here =>
    simp only [Tx.step] at hst
    split_ifs at hst <;> cases hst
    · exact h.coming rfl rfl (Nat.le_refl _) h.flag fun _ => .inr (.inl (.inr (.inr (.inl (Nat.succ_pos _)))))
    · exact h.coming rfl rfl (Nat.le_refl _) h.flag fun _ => .inr (.inl (.inr (.inl rfl)))
  | irq =>
    simp only [Tx.step] at hst
    split_ifs at hst
    cases hst
    exact h.coming rfl rfl (Nat.le_refl _) h.flag fun _ => .inr (.inl (.inr (.inr (.inl (Nat.succ_pos _)))))
  | clearBit =>
    simp only [Tx.step] at hst
    split_ifs at hst
    cases hst
    exact h.coming rfl rfl (Nat.le_refl _) (fun _ => .inl (Nat.succ_pos _)) fun _ =>
      .inr (.inl (.inr (.inr (.inr (Nat.succ_pos _)))))
  | raiseSoftirq =>
    simp only [Tx.step] at hst
    split_ifs at hst
    cases hst
    exact h.coming rfl rfl (Nat.le_refl _) (fun _ => .inr (.inl rfl)) fun _ => .inr (.inr rfl)
  | netTx =>
    cases hst
    exact h.coming rfl rfl (Nat.le_refl _) (fun _ => .inr (.inl rfl)) fun _ => .inr (.inr rfl)
  | action =>
    simp only [Tx.step] at hst
    split_ifs at hst
    cases hst
    exact .awake h.le_head (.inl rfl)
  | pop =>
    simp only [Tx.step] at hst
    split_ifs at hst with hc
    cases hst
    exact .awake hc.2 (.inl hc.1)
  | popBacklog =>
    simp only [Tx.step] at hst
    split_ifs at hst with hc
    cases hst
    exact .awake h.le_head (.inl hc.1)
  | leave =>
    simp only [Tx.step] at hst
    split_ifs at hst
    cases hst
    exact .awake h.le_head (.inr rfl)
  | finish spent => exact h.finish hst

/-- No wake-up is lost: when nobody is about to test the flag, nothing is pending and the consumer does not run, there
are no works. -/
theorem no_lost_wakeup (qsize : Nat) (es : List (TxEvent P)) (hrun : Run.run Tx.step (txInit qsize) es=some s)
    (htesting : ∀p,s.testing p=false) (hipi : ¬s.IpiPending) (hsoftirq : s.softirq=false)
    (haway : s.consumer=.away) : s.head=s.tail ∧ s.backlog=0 := by
  have h : TxInv s := Run.run_invariant Tx.step (fun _ _ _ hs hst => hs.step hst) (txInv_init qsize) hrun
  have hn : ¬s.Coming := by
    rintro (⟨p,hp⟩ | hp | hs)
    · simp [htesting] at hp
    · exact hipi hp
    · simp [hsoftirq] at hs
  constructor
  · have hle := h.le_head
    by_contra hne
    exact hn (h.ring (.inl haway) (by omega))
  · by_contra hne
    exact hn (h.backlog haway (by omega))

def wakeUpEvents : List (TxEvent Unit) :=
  [.push (),.testBit (),.raise false,.irq,.clearBit,.raiseSoftirq,.action,.pop,.leave] ++
    List.replicate 4 (.finish false)

theorem no_lost_wakeup_one :
    ∃s,Run.run Tx.step (txInit 1) wakeUpEvents=some s ∧ s.head=1 ∧ s.head=s.tail ∧ s.backlog=0 := by
  refine ⟨_,rfl,rfl,no_lost_wakeup 1 wakeUpEvents rfl ?_ ?_ rfl rfl⟩
  · intro p
    rfl
  · rintro (h | h | h | h) <;> cases h
end VetWaf.Sock.Wakeup
