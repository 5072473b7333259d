import Mathlib.Data.Finset.Card
import VetWaf.Lib.Run

namespace VetWaf.Srv
open List Finset
variable {κ : Type}

/-- A running `tfw_sock_srv_connect_retry_timer_cb` -/
structure Callback (κ : Type) where
  recnsList : List κ
  cur : Option κ := none

/-- `TfwServer` with the connections that have `__TFW_CONN_B_RECONNECT` set -/
structure TfwServer (κ : Type) where
  recnsList : List κ := []
  failedRecnsList : List κ := []
  recnsInProgress : Int := 0
  reconnect : Finset κ := ∅
  armed : Bool := false
  callbacks : List (Callback κ) := []

namespace TfwServer

/-- The connections whose `in_recns_list` is in a list -/
def queued (s : TfwServer κ) : List κ := s.recnsList++(s.failedRecnsList++s.callbacks.flatMap Callback.recnsList)

def hasRecns (s : TfwServer κ) : Bool := !s.recnsList.isEmpty || !s.failedRecnsList.isEmpty
def modTimer (s : TfwServer κ) : TfwServer κ := {s with armed:=true}

def startCallback (s : TfwServer κ) : TfwServer κ := {s with
    recnsList:=[]
    failedRecnsList:=[]
    recnsInProgress:=s.recnsInProgress+1
    armed:=false
    callbacks:=s.callbacks++[{recnsList:=s.recnsList++s.failedRecnsList}]}

/-- The last section of callback `i`, which has `rest` left -/
def endCallback (s : TfwServer κ) (i : Nat) (rest : List κ) : TfwServer κ :=
  let s := {s with
    recnsList:=s.recnsList++rest
    recnsInProgress:=s.recnsInProgress-1
    callbacks:=s.callbacks.eraseIdx i}
  if s.recnsInProgress≠0 then s else if s.hasRecns then s.modTimer else s

def setCallback (s : TfwServer κ) (i : Nat) (cb : Callback κ) : TfwServer κ := {s with callbacks:=s.callbacks.set i cb}

variable [DecidableEq κ]
def incRecnsInProgress (s : TfwServer κ) (c : κ) : TfwServer κ :=
  {s with reconnect:=insert c s.reconnect, recnsInProgress:=s.recnsInProgress+1}

def decRecnsInProgress (s : TfwServer κ) (c : κ) : Int×TfwServer κ :=
  if c∈s.reconnect then
    (s.recnsInProgress-1,{s with reconnect:=s.reconnect.erase c, recnsInProgress:=s.recnsInProgress-1})
  else (-1,s)

def connModTimer (s : TfwServer κ) (c : κ) : TfwServer κ :=
  if c∈s.queued then s
  else
    let (r,s) := s.decRecnsInProgress c
    if r = -1 then
      let modify := !s.hasRecns && s.recnsInProgress == 0
      let s := {s with recnsList:=s.recnsList++[c]}
      if modify then s.modTimer else s
    else
      let s := {s with failedRecnsList:=s.failedRecnsList++[c]}
      if r=0 then s.modTimer else s

def connStop (s : TfwServer κ) (c : κ) : TfwServer κ := (s.decRecnsInProgress c).2

def resetRetryTimer (s : TfwServer κ) (c : κ) : TfwServer κ :=
  let (r,s) := s.decRecnsInProgress c
  if r=0 ∧ s.hasRecns then s.modTimer else s

end TfwServer

/-- What `tfw_sock_srv_connect_try` comes to -/
inductive Created where
  | ok
  | enobufs
  | error

inductive Event (κ : Type) where
  | release (c : κ)
  | established (c : κ)
  | fire
  | next (i : Nat)
  | tried (i : Nat) (res : Created)
  | finish (i : Nat)

def step [DecidableEq κ] (s : TfwServer κ) : Event κ → Option (TfwServer κ)
  | .release c => some (s.connModTimer c)
  | .established c => some (s.resetRetryTimer c)
  | .fire => if s.armed then some s.startCallback else none
  | .next i =>
    match s.callbacks[i]? with
    | some ⟨c::rest,none⟩ => some ((s.setCallback i ⟨rest,some c⟩).incRecnsInProgress c)
    | _ => none
  | .tried i res =>
    match s.callbacks[i]? with
    | some ⟨rest,some c⟩ =>
      let s := s.setCallback i ⟨rest,none⟩
      match res with
      | .ok => some s
      | .enobufs => some (s.connModTimer c)
      | .error => some (s.connStop c)
    | _ => none
  | .finish i =>
    match s.callbacks[i]? with
    | some ⟨rest,none⟩ => some (s.endCallback i rest)
    | _ => none

def connectSrv (conns : List κ) : TfwServer κ := {recnsList:=conns, armed:=true}

/-- A connection is in one list at most. -/
structure Core (s : TfwServer κ) : Prop where
  count : s.recnsInProgress=s.reconnect.card+s.callbacks.length
  nodup : s.queued.Nodup
  free : ∀c∈s.queued,c∉s.reconnect

structure Inv (s : TfwServer κ) : Prop extends Core s where
  waiting : s.hasRecns=true → s.armed=true ∨ 0<s.recnsInProgress

variable {s : TfwServer κ} {c : κ}
lemma Core.nonneg (h : Core s) : 0 ≤ s.recnsInProgress := by
  rw [h.count]
  omega

lemma Core.dec [DecidableEq κ] (h : Core s) (c : κ) :
    Core (s.decRecnsInProgress c).2 ∧ c∉(s.decRecnsInProgress c).2.reconnect ∧
      (s.decRecnsInProgress c).2.queued=s.queued ∧ (s.decRecnsInProgress c).2.hasRecns=s.hasRecns ∧
      (s.decRecnsInProgress c).2.armed=s.armed ∧ (s.decRecnsInProgress c).2.callbacks=s.callbacks ∧
      ((s.decRecnsInProgress c).1 = -1 ∧ (s.decRecnsInProgress c).2.recnsInProgress=s.recnsInProgress ∨
        (s.decRecnsInProgress c).1=(s.decRecnsInProgress c).2.recnsInProgress) := by
  unfold TfwServer.decRecnsInProgress
  by_cases hc : c∈s.reconnect
  · rw [if_pos hc]
    refine ⟨⟨?_,h.nodup,fun d hd => ?_⟩,notMem_erase c _,rfl,rfl,rfl,rfl,.inr rfl⟩
    · have hca := card_erase_add_one hc
      have hco := h.count
      show s.recnsInProgress-1=((s.reconnect.erase c).card : Int)+s.callbacks.length
      omega
    · exact fun hm => h.free d hd (mem_of_mem_erase hm)
  · rw [if_neg hc]
    exact ⟨h,hc,rfl,rfl,rfl,rfl,.inl ⟨rfl,rfl⟩⟩

variable {s' : TfwServer κ} {i : Nat} {rest : List κ}
lemma Core.requeue (h : Core s) (hp : s'.queued.Perm s.queued) (hr : s'.reconnect=s.reconnect)
    (hc : s'.recnsInProgress-s'.callbacks.length=s.recnsInProgress-s.callbacks.length) : Core s' := by
  have hc' := h.count
  refine ⟨by rw [hr]; omega,hp.nodup_iff.2 h.nodup,fun d hd => ?_⟩
  rw [hr]
  exact h.free d (hp.mem_iff.1 hd)

lemma Core.enqueue (h : Core s) (hq : c∉s.queued) (hc : c∉s.reconnect)
    (hp : s'.queued.Perm (c::s.queued)) (hi : s'.recnsInProgress=s.recnsInProgress)
    (hr : s'.reconnect=s.reconnect) (hcb : s'.callbacks=s.callbacks) : Core s' := by
  refine ⟨by rw [hi,hr,hcb,h.count],hp.nodup_iff.2 (nodup_cons.2 ⟨hq,h.nodup⟩),fun d hd => ?_⟩
  rw [hr]
  obtain rfl | hd := mem_cons.1 (hp.mem_iff.1 hd)
  · exact hc
  · exact h.free d hd

lemma Core.modTimer (h : Core s) : Inv s.modTimer := ⟨⟨h.count,h.nodup,h.free⟩,fun _ => .inl rfl⟩
lemma Core.inv_of_pos (h : Core s) (hp : 0<s.recnsInProgress) : Inv s := ⟨h,fun _ => .inr hp⟩

variable [DecidableEq κ]
lemma Inv.connModTimer (h : Inv s) (c : κ) : Inv (s.connModTimer c) := by
  unfold TfwServer.connModTimer
  by_cases hq : c∈s.queued
  · rw [if_pos hq]
    exact h
  rw [if_neg hq]
  obtain ⟨hco,hc,hs,hh,ha,-,hr⟩ := h.toCore.dec c
  rw [← hs] at hq
  have hn := hco.nonneg
  generalize s.decRecnsInProgress c=p at hco hc hs hh ha hr hq hn ⊢
  obtain ⟨r,s1⟩ := p
  have hre : Core {s1 with recnsList:=s1.recnsList++[c]} := by
    refine hco.enqueue hq hc ?_ rfl rfl rfl
    simp only [TfwServer.queued,append_assoc,singleton_append]
    exact perm_middle
  have hf : Core {s1 with failedRecnsList:=s1.failedRecnsList++[c]} := by
    refine hco.enqueue hq hc ?_ rfl rfl rfl
    simp only [TfwServer.queued,append_assoc,singleton_append]
    exact (perm_middle.append_left _).trans perm_middle
  simp only at hr hh ha hn ⊢
  split_ifs with hrel hm h0
  · exact hre.modTimer
  · -- others wait or are in progress already
    refine ⟨hre,fun _ => ?_⟩
    have hi : s1.recnsInProgress=s.recnsInProgress := by omega
    show s1.armed=true ∨ 0<s1.recnsInProgress
    cases hh1 : s1.hasRecns with
    | true =>
      rw [ha,hi]
      exact h.waiting (hh ▸ hh1)
    | false =>
      have hne : s1.recnsInProgress≠0 := by simpa [hh1] using hm
      omega
  · exact hf.modTimer
  · have hp : 0<s1.recnsInProgress := by omega
    exact hf.inv_of_pos hp

lemma Inv.resetRetryTimer (h : Inv s) (c : κ) : Inv (s.resetRetryTimer c) := by
  unfold TfwServer.resetRetryTimer
  obtain ⟨hc,-,-,hh,ha,-,hr⟩ := h.toCore.dec c
  have hn := hc.nonneg
  generalize s.decRecnsInProgress c=p at hc hh ha hr hn ⊢
  obtain ⟨r,s1⟩ := p
  simp only at hr hh ha hn ⊢
  split_ifs with hz
  · exact hc.modTimer
  · refine ⟨hc,fun hh1 => ?_⟩
    obtain ⟨-,hi⟩ | hr := hr
    · rw [ha,hi]
      exact h.waiting (hh ▸ hh1)
    · have hne : r≠0 := fun h0 => hz ⟨h0,hh1⟩
      omega

omit [DecidableEq κ] in
lemma callbacks_split {l : List (Callback κ)} {cb : Callback κ} (h : l[i]?=some cb) :
    ∃pre post,l=pre++cb::post ∧ (∀cb',l.set i cb'=pre++cb'::post) ∧ l.eraseIdx i=pre++post := by
  obtain ⟨hi,hc⟩ := List.getElem?_eq_some_iff.1 h
  refine ⟨l.take i,l.drop (i+1),?_,fun cb' => ?_,?_⟩
  · rw [← hc,getElem_cons_drop,take_append_drop]
  · rw [set_eq_take_append_cons_drop,if_pos hi]
  · rw [eraseIdx_eq_take_drop_succ]

omit [DecidableEq κ] in
lemma Inv.endCallback (h : Inv s) (hcb : s.callbacks[i]?=some ⟨rest,none⟩) : Inv (s.endCallback i rest) := by
  obtain ⟨pre,post,hs,-,he⟩ := callbacks_split hcb
  have hc : Core {s with
      recnsList:=s.recnsList++rest
      recnsInProgress:=s.recnsInProgress-1
      callbacks:=s.callbacks.eraseIdx i} := by
    refine h.toCore.requeue ?_ rfl ?_
    · simp only [TfwServer.queued,he]
      rw [hs]
      simp only [flatMap_append,flatMap_cons,append_assoc]
      refine Perm.append_left _ (perm_append_comm_assoc _ _ _ |>.trans ?_)
      exact Perm.append_left _ (perm_append_comm_assoc _ _ _)
    · simp only [he]
      rw [hs]
      simp only [length_append,length_cons]
      omega
  have hn := hc.nonneg
  unfold TfwServer.endCallback
  simp only at hn ⊢
  split_ifs with hne hh
  · exact hc.inv_of_pos (lt_of_le_of_ne hn (Ne.symm hne))
  · exact hc.modTimer
  · exact ⟨hc,fun hh' => absurd hh' hh⟩

omit [DecidableEq κ] in
lemma Inv.setCallback (h : Inv s) {cur cur' : Option κ}
    (hc : s.callbacks[i]?=some ⟨rest,cur⟩) : Inv (s.setCallback i ⟨rest,cur'⟩) := by
  obtain ⟨pre,post,hsp,hs,-⟩ := callbacks_split hc
  refine ⟨h.toCore.requeue ?_ rfl ?_,h.waiting⟩
  · simp only [TfwServer.queued,TfwServer.setCallback,hs]
    rw [hsp]
    simp only [flatMap_append,flatMap_cons]
    exact Perm.refl _
  · simp only [TfwServer.setCallback,length_set]

lemma Inv.next (h : Inv s) (hcb : s.callbacks[i]?=some ⟨c::rest,none⟩) :
    Inv ((s.setCallback i ⟨rest,some c⟩).incRecnsInProgress c) := by
  obtain ⟨pre,post,hsp,hs,-⟩ := callbacks_split hcb
  have hp : s.queued.Perm (c::(s.setCallback i ⟨rest,some c⟩).queued) := by
    simp only [TfwServer.queued,TfwServer.setCallback,hs]
    rw [hsp]
    simp only [flatMap_append,flatMap_cons,cons_append]
    rw [← append_assoc,← append_assoc,← append_assoc,← append_assoc]
    exact perm_middle
  have hc : c∉s.reconnect := h.free c (hp.mem_iff.2 (.head _))
  obtain ⟨hq,hnd⟩ := nodup_cons.1 (hp.nodup_iff.1 h.nodup)
  have hcn := h.count
  have hco : Core ((s.setCallback i ⟨rest,some c⟩).incRecnsInProgress c) := by
    refine ⟨?_,hnd,fun d hd => ?_⟩
    · simp only [TfwServer.incRecnsInProgress,TfwServer.setCallback,length_set,card_insert_of_notMem hc]
      omega
    · have hd' := h.free d (hp.mem_iff.2 (.tail _ hd))
      refine fun hm => (mem_insert.1 hm).elim (fun heq => hq (heq ▸ hd)) hd'
  have hn := h.toCore.nonneg
  exact hco.inv_of_pos (show 0<s.recnsInProgress+1 by omega)

lemma step_inv (s : TfwServer κ) (e : Event κ) (s' : TfwServer κ) (h : Inv s) (hst : step s e=some s') : Inv s' := by
  cases e with
  | release c =>
    cases hst
    exact h.connModTimer c
  | established c =>
    cases hst
    exact h.resetRetryTimer c
  | fire =>
    simp only [step] at hst
    split_ifs at hst with ha
    cases hst
    have hn := h.toCore.nonneg
    have hco : Core s.startCallback := by
      refine h.toCore.requeue ?_ rfl ?_
      · simp only [TfwServer.queued,TfwServer.startCallback,flatMap_append,flatMap_cons,flatMap_nil,nil_append,
          append_nil,← append_assoc]
        rw [append_assoc]
        exact perm_append_comm
      · simp only [TfwServer.startCallback,length_append,length_singleton]
        omega
    exact hco.inv_of_pos (show 0<s.recnsInProgress+1 by omega)
  | next i =>
    simp only [step] at hst
    split at hst
    case h_2 => cases hst
    case h_1 c rest hc =>
      cases hst
      exact h.next hc
  | tried i res =>
    simp only [step] at hst
    split at hst
    case h_2 => cases hst
    case h_1 rest c hc =>
      have hs : Inv (s.setCallback i ⟨rest,none⟩) := h.setCallback hc
      cases res with
      | ok =>
        cases hst
        exact hs
      | enobufs =>
        cases hst
        exact hs.connModTimer c
      | error =>
        -- the callback itself is in progress
        cases hst
        obtain ⟨hco,-,-,-,-,hcbs,-⟩ := hs.toCore.dec c
        refine hco.inv_of_pos ?_
        have hlt := (List.getElem?_eq_some_iff.1 hc).1
        rw [hco.count,hcbs]
        simp only [TfwServer.setCallback,length_set]
        omega
  | finish i =>
    simp only [step] at hst
    split at hst
    case h_2 => cases hst
    case h_1 rest hc =>
      cases hst
      exact h.endCallback hc

/-- In every run, while a connection waits, the timer is armed or something is in progress that will arm it. -/
theorem reconnect_never_stalls (conns : List κ) (hconns : conns.Nodup) (events : List (Event κ)) (s : TfwServer κ)
    (hrun : Run.run step (connectSrv conns) events=some s) :
    (s.recnsList≠[] ∨ s.failedRecnsList≠[] → s.armed=true ∨ 0<s.recnsInProgress) ∧
      s.recnsInProgress=s.reconnect.card+s.callbacks.length := by
  have hinit : Inv (connectSrv conns) :=
    ⟨⟨rfl,by simpa [TfwServer.queued,connectSrv] using hconns,fun _ _ => notMem_empty _⟩,fun _ => .inl rfl⟩
  have hi := Run.run_invariant step step_inv hinit hrun
  refine ⟨fun hw => hi.waiting ?_,hi.count⟩
  simpa [TfwServer.hasRecns] using hw

/-- Of two connections one is not created for good, the other one fails once. -/
theorem reconnect_never_stalls_run :
    ∃s,Run.run step (connectSrv [1,2]) [.fire,.next 0,.tried 0 .error,.next 0,.tried 0 .ok,.finish 0,
        .release 2]=some s ∧ s.failedRecnsList=[2] ∧ (s.armed=true ∨ 0<s.recnsInProgress) := by
  have hw : ∀s,Run.run step (connectSrv [1,2]) [.fire,.next 0,.tried 0 .error,.next 0,.tried 0 .ok,
      .finish 0,.release 2]=some s → s.failedRecnsList=[2] →
      s.failedRecnsList=[2] ∧ (s.armed=true ∨ 0<s.recnsInProgress) := fun s hr hl =>
    ⟨hl,(reconnect_never_stalls [1,2] (by decide) _ s hr).1 (.inr (by rw [hl]; exact cons_ne_nil _ _))⟩
  exact ⟨_,rfl,hw _ rfl (by decide)⟩
end VetWaf.Srv
