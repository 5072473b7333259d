import VetWaf.Lib.Run
import Mathlib.Data.List.Nodup

namespace VetWaf.Http.SeqQueue
open List Nat

/-- A place in `seq_queue`. -/
structure Entry where
  ticket : Nat
  req : Nat
  cont : Bool
  deriving DecidableEq

inductive RespKind where
  | cont
  | final
  deriving DecidableEq

/-- A call of `tfw_cli_conn_send`. -/
structure Handed where
  entry : Entry
  kind : RespKind
  ok : Bool
  deriving DecidableEq

structure CliConn where
  seqQueue : List Entry
  /-- The `ret_queue` of the thread that holds `seq_qlock` and waits for `ret_qlock`. -/
  cutQueue : Option (List Entry)
  /-- The `ret_queue` of the thread that holds `ret_qlock`. -/
  retQueue : Option (List Entry)
  respReady : Nat → Bool
  continueQueued : Nat → Bool
  resp : Nat → Option RespKind
  msg : Nat
  /-- The receiving thread is between the two parts of `tfw_http_del_continuation_seq_queue`. -/
  delWait : Bool
  /-- `tfw_connection_close` was called. -/
  closing : Bool
  /-- A `BUG_ON` was met, or a linked request was linked again. -/
  broken : Bool
  tickets : Nat
  handed : List Handed
  immediate : List Nat
  withdrawn : List Nat
  discarded : List Nat
  sendFailed : Bool

def init : CliConn where
  seqQueue := []
  cutQueue := none
  retQueue := none
  respReady := fun _ => false
  continueQueued := fun _ => false
  resp := fun _ => none
  msg := 0
  delWait := false
  closing := false
  broken := false
  tickets := 0
  handed := []
  immediate := []
  withdrawn := []
  discarded := []
  sendFailed := false

def set {α : Type} (f : Nat → α) (r : Nat) (a : α) : Nat → α := fun x => if x=r then a else f x

namespace CliConn
variable (s : CliConn)
def linked : List Entry := s.retQueue.getD []++s.cutQueue.getD []++s.seqQueue

/-- `!list_empty(&req->msg.seq_list)` -/
def isLinked (r : Nat) : Bool := s.linked.any (·.req=r)

def bug : CliConn := {s with broken:=true}

/-- `list_add_tail(&req->msg.seq_list, seq_queue)` of the request received. -/
def addSeqQueue : CliConn :=
  if s.isLinked s.msg then s.bug
  else
    {s with
      seqQueue:=s.seqQueue++[⟨s.tickets,s.msg,false⟩]
      msg:=s.msg+1
      tickets:=s.tickets+1}

def sendContinuation : CliConn :=
  if s.seqQueue=[] then {s with immediate:=s.immediate++[s.msg]}
  else if s.isLinked s.msg then s.bug
  else
    {s with
      continueQueued:=set s.continueQueued s.msg true
      respReady:=set s.respReady s.msg true
      resp:=set s.resp s.msg (some .cont)
      seqQueue:=s.seqQueue++[⟨s.tickets,s.msg,true⟩]
      tickets:=s.tickets+1}

/-- `tfw_http_del_continuation_seq_queue` under `seq_qlock`. -/
def delContinuation : CliConn :=
  let s := {s with
    continueQueued:=set s.continueQueued s.msg false
    respReady:=set s.respReady s.msg false}
  if s.seqQueue.any (·.req=s.msg) then
    {s with
      seqQueue:=s.seqQueue.filter (·.req≠s.msg)
      resp:=set s.resp s.msg none
      withdrawn:=s.withdrawn++(s.seqQueue.filter (·.req=s.msg)).map Entry.ticket}
  else {s with delWait:=true}

/-- `tfw_http_del_continuation_seq_queue` under `ret_qlock`. -/
def delContinuationRet : CliConn := if s.isLinked s.msg then s.bug else {s with delWait:=false}

/-- `tfw_http_resp_fwd` of the response to `r` under `seq_qlock`, up to `ret_qlock`. -/
def respFwd (r : Nat) : CliConn :=
  if s.seqQueue=[] then
    if s.isLinked r then s.bug else {s with closing:=true, resp:=set s.resp r none}
  else if !s.isLinked r then s.bug
  else
    let s := {s with respReady:=set s.respReady r true}
    let ready := s.seqQueue.takeWhile fun e => s.respReady e.req
    if ready=[] then s
    else
      {s with
        cutQueue:=some ready
        seqQueue:=s.seqQueue.dropWhile fun e => s.respReady e.req}

/-- One round of `__tfw_http_resp_fwd`. -/
def sendNext (e : Entry) (rest : List Entry) (ok : Bool) : CliConn :=
  match s.resp e.req with
  | none => s.bug
  | some kind =>
    let s := {s with handed:=s.handed++[Handed.mk e kind ok]}
    if ok then {s with retQueue:=some rest, resp:=set s.resp e.req none}
    else
      let s' := {s with
        closing:=true
        sendFailed:=true
        retQueue:=some []
        resp:=fun r => if (e::rest).any (·.req=r) then none else s.resp r}
      if rest.any (fun e => (s.resp e.req).isNone) then s'.bug else s'

def respBuildError (r : Nat) : CliConn :=
  let s := {s with closing:=true}
  if s.seqQueue.any (·.req=r) then
    {s with
      seqQueue:=s.seqQueue.filter (·.req≠r)
      discarded:=s.discarded++(s.seqQueue.filter (·.req=r)).map Entry.ticket}
  else if s.isLinked r then s.bug
  else s

def cliDrop : CliConn := {s with
    closing:=true
    seqQueue:=[]
    discarded:=s.discarded++s.seqQueue.map Entry.ticket}

end CliConn

inductive Event where
  | addSeqQueue
  | sendContinuation
  | delContinuation
  | delContinuationRet
  | pair (r : Nat)
  | unpair (r : Nat)
  | respFwd (r : Nat)
  | takeRetLock
  | send (ok : Bool)
  | dropRetLock
  | respBuildError (r : Nat)
  | cliDrop
  deriving DecidableEq

/-- An event, if the locks it takes are free and its thread is there. -/
def act (s : CliConn) : Event → Option CliConn
  | .addSeqQueue => if s.cutQueue=none ∧ s.delWait=false then some s.addSeqQueue else none
  | .sendContinuation => if s.cutQueue=none ∧ s.delWait=false then some s.sendContinuation else none
  | .delContinuation =>
    if s.cutQueue=none ∧ s.delWait=false ∧ s.continueQueued s.msg then some s.delContinuation
    else none
  | .delContinuationRet => if s.retQueue=none ∧ s.delWait then some s.delContinuationRet else none
  | .pair r =>
    if r<s.msg ∨ (s.continueQueued r=false ∧ s.delWait=false) then
      some {s with resp:=set s.resp r (some .final)}
    else none
  | .unpair r => some {s with resp:=set s.resp r none}
  | .respFwd r => if s.cutQueue=none then some (s.respFwd r) else none
  | .takeRetLock =>
    match s.cutQueue with
    | some ready => if s.retQueue=none then some {s with retQueue:=some ready, cutQueue:=none} else none
    | none => none
  | .send ok =>
    match s.retQueue with
    | some (e::rest) => some (s.sendNext e rest ok)
    | _ => none
  | .dropRetLock => if s.retQueue=some [] then some {s with retQueue:=none} else none
  | .respBuildError r => if s.cutQueue=none then some (s.respBuildError r) else none
  | .cliDrop => if s.cutQueue=none then some s.cliDrop else none

/-- Entries are taken off `seq_queue` without an answer. -/
def Event.discards : Event → Bool
  | .respBuildError _ | .cliDrop => true
  | _ => false

/-- Nothing runs on once a `BUG_ON` was met. -/
def step (s : CliConn) (e : Event) : Option CliConn := if s.broken then none else act s e

def line (s : CliConn) : List Entry := s.handed.map Handed.entry++s.linked

/-- What the entries of a line satisfy, when `tickets` of them were given out and requests below
`msg` have been queued for their final response. -/
structure LineOk (es : List Entry) (tickets msg : Nat) : Prop where
  sorted : es.Pairwise fun a b => a.ticket<b.ticket
  bound : ∀e∈es,e.ticket<tickets
  final_lt : ∀e∈es,e.cont=false → e.req < msg
  once : ((es.filter fun e => !e.cont).map Entry.req).Nodup

variable {es : List Entry} {e : Entry} {s s' : CliConn} {tickets msg r t : Nat}
lemma LineOk.sublist {es' : List Entry} (h : LineOk es tickets msg) (hs : es'.Sublist es) : LineOk es' tickets msg where
  sorted := h.sorted.sublist hs
  bound := fun e he => h.bound e (hs.subset he)
  final_lt := fun e he => h.final_lt e (hs.subset he)
  once := h.once.sublist ((hs.filter _).map _)

lemma LineOk.concat {msg' : Nat} (h : LineOk es tickets msg) (ht : e.ticket=tickets) (hm : msg ≤ msg')
    (hf : e.cont=false → e.req=msg ∧ msg'=msg+1) : LineOk (es++[e]) (tickets+1) msg' := by
  constructor
  · rw [pairwise_append]
    refine ⟨h.sorted,pairwise_singleton _ _,?_⟩
    intro a ha b hb
    rw [mem_singleton.1 hb,ht]
    exact h.bound a ha
  · intro a ha
    obtain ha | ha := mem_append.1 ha
    · exact Nat.lt_succ_of_lt (h.bound a ha)
    · rw [mem_singleton.1 ha,ht]
      exact Nat.lt_succ_self tickets
  · intro a ha hc
    obtain ha | ha := mem_append.1 ha
    · exact Nat.lt_of_lt_of_le (h.final_lt a ha hc) hm
    · rw [mem_singleton.1 ha] at hc ⊢
      obtain ⟨hre,hn⟩ := hf hc
      omega
  · rw [filter_append,map_append]
    cases hc : e.cont with
    | true =>
      rw [filter_cons_of_neg (by simp [hc]),filter_nil,map_nil,append_nil]
      exact h.once
    | false =>
      rw [filter_cons_of_pos (by simp [hc]),filter_nil]
      apply List.Nodup.append h.once (nodup_singleton _)
      intro r hr hr'
      obtain ⟨a,ha,rfl⟩ := mem_map.1 hr
      obtain ⟨ha,hac⟩ := mem_filter.1 ha
      have hlt := h.final_lt a ha (by simpa using hac)
      rw [mem_singleton.1 hr',(hf hc).1] at hlt
      exact Nat.lt_irrefl _ hlt

/-- Where the entry with a ticket is gone. -/
def Accounted (s : CliConn) (t : Nat) : Prop := t∈(line s).map Entry.ticket ∨ t∈s.withdrawn ∨
    (s.closing=true ∧ (s.sendFailed=true ∨ t∈s.discarded))

structure Inv (s : CliConn) : Prop where
  lineOk : LineOk (line s) s.tickets s.msg
  accounted : ∀t<s.tickets,Accounted s t
  distinct : (s.linked.map Entry.req).Nodup
  /-- An entry for a 100-continue response belongs to the request being received. -/
  cont_entry : ∀e∈s.linked,e.cont=true → e.req=s.msg ∧
    (s.continueQueued s.msg=true ∨ s.delWait=true) ∧ s.resp s.msg≠some .final
  kind : ∀h∈s.handed,h.kind=.final → h.entry.cont=false

lemma Inv.bug (h : Inv s) : Inv s.bug := ⟨h.lineOk,h.accounted,h.distinct,h.cont_entry,h.kind⟩

open CliConn

lemma inv_init : Inv init where
  lineOk := ⟨List.Pairwise.nil,by simp [line,init,linked],by simp [line,init,linked],nodup_nil⟩
  accounted := fun t ht => absurd ht (not_lt_zero t)
  distinct := nodup_nil
  cont_entry := by simp [init,linked]
  kind := by simp [init]

lemma not_linked (h : s.isLinked r=false) : ∀e∈s.linked,e.req≠r := by
  intro e he heq
  have : s.isLinked r=true := any_eq_true.2 ⟨e,he,by simpa using heq⟩
  rw [h] at this
  cases this

lemma Inv.enqueue (h : Inv s) (hf : s.isLinked s.msg=false) (hli : line s'=line s++[e]) (hl : s'.linked=s.linked++[e])
    (hreq : e.req=s.msg) (htc : e.ticket=s.tickets) (hti : s'.tickets=s.tickets+1)
    (hm : s.msg ≤ s'.msg) (hfi : e.cont=false → s'.msg=s.msg+1) (hco : e.cont=true → e.req=s'.msg ∧
      (s'.continueQueued s'.msg=true ∨ s'.delWait=true) ∧ s'.resp s'.msg≠some .final)
    (hw : s'.withdrawn=s.withdrawn) (hd : s'.discarded=s.discarded)
    (hcl : s'.closing=s.closing) (hfa : s'.sendFailed=s.sendFailed) (hh : s'.handed=s.handed) : Inv s' where
  lineOk := by
    rw [hli,hti]
    exact h.lineOk.concat htc hm fun hc => ⟨hreq,hfi hc⟩
  accounted := by
    intro t ht
    rw [Accounted,hli,hw,hd,hcl,hfa,map_append]
    obtain hlt | heq := Nat.lt_succ_iff_lt_or_eq.1 (hti ▸ ht)
    · obtain hin | hre := h.accounted t hlt
      · exact Or.inl (mem_append_left _ hin)
      · exact Or.inr hre
    · exact Or.inl (mem_append_right _ (by simp [heq,htc]))
  distinct := by
    rw [hl,map_append]
    apply List.Nodup.append h.distinct (nodup_singleton _)
    intro r hr hr'
    obtain ⟨a,ha,rfl⟩ := mem_map.1 hr
    exact not_linked hf a ha ((mem_singleton.1 hr').trans hreq)
  cont_entry := by
    intro a ha hc
    rw [hl] at ha
    obtain ha | ha := mem_append.1 ha
    · exact absurd (h.cont_entry a ha hc).1 (not_linked hf a ha)
    · rw [mem_singleton.1 ha] at hc ⊢
      exact hco hc
  kind := by
    rw [hh]
    exact h.kind

lemma addSeqQueue_inv (h : Inv s) : Inv s.addSeqQueue := by
  rw [addSeqQueue]
  cases hl : s.isLinked s.msg with
  | true => exact h.bug
  | false =>
    rw [if_neg Bool.false_ne_true]
    refine h.enqueue hl (e := ⟨s.tickets,s.msg,false⟩) ?_ ?_ rfl rfl rfl (le_succ _)
      (fun _ => rfl) (fun hc => by cases hc) rfl rfl rfl rfl rfl
    · simp [line,linked]
    · simp [linked]

lemma sendContinuation_inv (h : Inv s) : Inv s.sendContinuation := by
  rw [sendContinuation]
  by_cases he : s.seqQueue=[]
  · rw [if_pos he]
    exact ⟨h.lineOk,h.accounted,h.distinct,h.cont_entry,h.kind⟩
  · rw [if_neg he]
    cases hl : s.isLinked s.msg with
    | true => exact h.bug
    | false =>
      rw [if_neg Bool.false_ne_true]
      refine h.enqueue hl (e := ⟨s.tickets,s.msg,true⟩) ?_ ?_ rfl rfl rfl (Nat.le_refl _)
        (fun hc => by cases hc) (fun _ => ⟨rfl,Or.inl ?_,?_⟩) rfl rfl rfl rfl rfl
      · simp [line,linked]
      · simp [linked]
      · simp [set]
      · simp [set]

lemma Inv.shrink (h : Inv s) (hli : (line s').Sublist (line s))
    (hl : s'.linked.Sublist s.linked) (hti : s'.tickets=s.tickets)
    (hm : s'.msg=s.msg) (ha : ∀t<s.tickets,Accounted s t → Accounted s' t)
    (hco : ∀e∈s'.linked,e.cont=true → e.req=s.msg →
      (s.continueQueued s.msg=true ∨ s.delWait=true) → s.resp s.msg≠some .final →
      (s'.continueQueued s.msg=true ∨ s'.delWait=true) ∧ s'.resp s.msg≠some .final)
    (hk : ∀x∈s'.handed,x.kind=.final → x.entry.cont=false) : Inv s' where
  lineOk := by
    rw [hti,hm]
    exact h.lineOk.sublist hli
  accounted := by
    intro t ht
    rw [hti] at ht
    exact ha t ht (h.accounted t ht)
  distinct := h.distinct.sublist (hl.map _)
  cont_entry := by
    intro e he hc
    obtain ⟨hr,hf,hre⟩ := h.cont_entry e (hl.subset he) hc
    rw [hm]
    exact ⟨hr,hco e he hc hr hf hre⟩
  kind := hk

lemma Inv.same_lists (h : Inv s) (hli : line s'=line s)
    (hl : s'.linked=s.linked) (hti : s'.tickets=s.tickets) (hm : s'.msg=s.msg)
    (hw : s'.withdrawn=s.withdrawn) (hd : s'.discarded=s.discarded) (hcl : s.closing=true → s'.closing=true)
    (hf : s.sendFailed=true → s'.sendFailed=true) (hco : ∀e∈s.linked,e.cont=true → e.req=s.msg →
      (s.continueQueued s.msg=true ∨ s.delWait=true) → s.resp s.msg≠some .final →
      (s'.continueQueued s.msg=true ∨ s'.delWait=true) ∧ s'.resp s.msg≠some .final)
    (hk : ∀x∈s'.handed,x.kind=.final → x.entry.cont=false) : Inv s' := by
  refine h.shrink (by rw [hli]) (by rw [hl]) hti hm ?_ (by rw [hl]; exact hco) hk
  intro t _ ht
  rw [Accounted,hli,hw,hd]
  obtain ht | ht | ⟨hc,ht⟩ := ht
  · exact Or.inl ht
  · exact Or.inr (Or.inl ht)
  · exact Or.inr (Or.inr ⟨hcl hc,ht.imp_left hf⟩)

lemma mem_tickets_filter (h : t∈es.map Entry.ticket) :
    t∈(es.filter (·.req≠r)).map Entry.ticket ∨ t∈(es.filter (·.req=r)).map Entry.ticket := by
  obtain ⟨e,he,rfl⟩ := mem_map.1 h
  by_cases hr : e.req=r
  · exact Or.inr (mem_map.2 ⟨e,mem_filter.2 ⟨he,by simpa using hr⟩,rfl⟩)
  · exact Or.inl (mem_map.2 ⟨e,mem_filter.2 ⟨he,by simpa using hr⟩,rfl⟩)

lemma mem_line_tickets : t∈(line s).map Entry.ticket ↔ t∈(s.handed.map Handed.entry).map Entry.ticket ∨
      t∈(s.retQueue.getD []).map Entry.ticket ∨ t∈(s.cutQueue.getD []).map Entry.ticket ∨
        t∈s.seqQueue.map Entry.ticket := by
  simp only [line,linked,map_append,mem_append,or_assoc]

lemma Inv.unqueue (h : Inv s) (hh : s'.handed=s.handed) (hr : s'.retQueue=s.retQueue) (hcu : s'.cutQueue=s.cutQueue)
    (hs : s'.seqQueue.Sublist s.seqQueue) (hti : s'.tickets=s.tickets)
    (hm : s'.msg=s.msg) (hf : s'.sendFailed=s.sendFailed) (hcl : s.closing=true → s'.closing=true)
    (hw : s.withdrawn ⊆ s'.withdrawn) (hd : s.discarded ⊆ s'.discarded)
    (hg : ∀t∈s.seqQueue.map Entry.ticket,t∈s'.seqQueue.map Entry.ticket ∨
      t∈s'.withdrawn ∨ (s'.closing=true ∧ t∈s'.discarded)) (hco : ∀e∈s'.linked,e.cont=true → e.req=s.msg →
      (s.continueQueued s.msg=true ∨ s.delWait=true) → s.resp s.msg≠some .final →
      (s'.continueQueued s.msg=true ∨ s'.delWait=true) ∧ s'.resp s.msg≠some .final) : Inv s' := by
  have hl : s'.linked.Sublist s.linked := by
    rw [linked,linked,hr,hcu]
    exact (List.Sublist.refl _).append hs
  have hli : (line s').Sublist (line s) := by
    rw [line,line,hh]
    exact (List.Sublist.refl _).append hl
  refine h.shrink hli hl hti hm ?_ hco (by rw [hh]; exact h.kind)
  intro t _ ht
  obtain ht | ht | ⟨hc,ht⟩ := ht
  · rw [mem_line_tickets] at ht
    rw [Accounted,mem_line_tickets,hh,hr,hcu]
    obtain ht | ht | ht | ht := ht
    · exact Or.inl (Or.inl ht)
    · exact Or.inl (Or.inr (Or.inl ht))
    · exact Or.inl (Or.inr (Or.inr (Or.inl ht)))
    · obtain ht | ht | ⟨hc,ht⟩ := hg t ht
      · exact Or.inl (Or.inr (Or.inr (Or.inr ht)))
      · exact Or.inr (Or.inl ht)
      · exact Or.inr (Or.inr ⟨hc,Or.inr ht⟩)
  · exact Or.inr (Or.inl (hw ht))
  · obtain ht | ht := ht
    · exact Or.inr (Or.inr ⟨hcl hc,Or.inl (hf.trans ht)⟩)
    · exact Or.inr (Or.inr ⟨hcl hc,Or.inr (hd ht)⟩)

lemma delContinuation_inv (h : Inv s) : Inv s.delContinuation := by
  rw [delContinuation]
  by_cases han : s.seqQueue.any (·.req=s.msg)=true
  · simp only [han,if_true]
    refine h.unqueue rfl rfl rfl filter_sublist rfl rfl rfl id (subset_append_left _ _) (List.Subset.refl _) ?_ ?_
    · intro t ht
      obtain ht | ht := mem_tickets_filter (r := s.msg) ht
      · exact Or.inl ht
      · exact Or.inr (Or.inl (mem_append_right _ ht))
    · -- the only entry of the request was in the queue
      intro e he _ hr
      obtain ⟨a,ha,har⟩ := any_eq_true.1 han
      have har : a.req=s.msg := by simpa using har
      have hd := h.distinct
      rw [linked,map_append,nodup_append] at hd
      obtain he | he := mem_append.1 he
      · exact absurd (hr.trans har.symm) (hd.2.2 _ (mem_map_of_mem he) _ (mem_map_of_mem ha))
      · exact absurd hr (by simpa using (mem_filter.1 he).2)
  · simp only [han]
    refine h.same_lists rfl rfl rfl rfl rfl rfl id id ?_ h.kind
    intro e _ _ _ _ hre
    exact ⟨Or.inr rfl,hre⟩

lemma delContinuationRet_inv (h : Inv s) : Inv s.delContinuationRet := by
  rw [delContinuationRet]
  cases hl : s.isLinked s.msg with
  | true => exact h.bug
  | false =>
    rw [if_neg Bool.false_ne_true]
    refine h.same_lists rfl rfl rfl rfl rfl rfl id id ?_ h.kind
    intro e he _ hr
    exact absurd hr (not_linked hl e he)

lemma respFwd_inv (r : Nat) (h : Inv s) (hc : s.cutQueue=none) : Inv (s.respFwd r) := by
  rw [respFwd]
  by_cases hem : s.seqQueue=[]
  · rw [if_pos hem]
    cases hl : s.isLinked r with
    | true => exact h.bug
    | false =>
      rw [if_neg Bool.false_ne_true]
      refine h.same_lists rfl rfl rfl rfl rfl rfl (fun _ => rfl) id ?_ h.kind
      intro e he _ hreq hf hr
      refine ⟨hf,?_⟩
      have hne : s.msg≠r := hreq ▸ not_linked hl e he
      simpa [set,hne] using hr
  · rw [if_neg hem]
    cases hl : s.isLinked r with
    | false => exact h.bug
    | true =>
      rw [if_neg (by simp)]
      by_cases hrd : s.seqQueue.takeWhile (fun e => set s.respReady r true e.req)=[]
      · simp only [hrd,if_true]
        exact h.same_lists rfl rfl rfl rfl rfl rfl id id (fun _ _ _ _ hf hr => ⟨hf,hr⟩) h.kind
      · simp only [hrd,if_false]
        -- the ready ones are cut off the queue: the order of the line is the same
        refine h.same_lists ?_ ?_ rfl rfl rfl rfl id id (fun _ _ _ _ hf hr => ⟨hf,hr⟩) h.kind
        · simp [line,linked,hc,takeWhile_append_dropWhile]
        · simp [linked,hc,takeWhile_append_dropWhile]

lemma sendNext_inv {rest : List Entry} (ok : Bool) (h : Inv s)
    (hr : s.retQueue=some (e::rest)) : Inv (s.sendNext e rest ok) := by
  have hl : s.linked=e::(rest++s.cutQueue.getD []++s.seqQueue) := by simp [linked,hr]
  have hm : e∈s.linked := by
    rw [hl]
    exact .head _
  rw [sendNext]
  cases hre : s.resp e.req with
  | none => exact h.bug
  | some kind =>
    -- a 100-continue entry is never sent with a final response
    have hk : ∀x∈s.handed++[⟨e,kind,ok⟩],x.kind=.final → x.entry.cont=false := by
      intro x hx hf
      obtain hx | hx := mem_append.1 hx
      · exact h.kind x hx hf
      · rw [mem_singleton.1 hx] at hf ⊢
        change kind=.final at hf
        change e.cont=false
        by_contra hc
        obtain ⟨hreq,-,hne⟩ := h.cont_entry e hm (by simpa using hc)
        rw [← hreq,hre,hf] at hne
        exact hne rfl
    -- no other linked entry belongs to the request of `e`
    have ho : ∀a∈rest++s.cutQueue.getD []++s.seqQueue,a.req≠e.req := by
      have hd := h.distinct
      rw [hl,map_cons,nodup_cons] at hd
      intro a ha heq
      exact hd.1 (heq ▸ mem_map_of_mem ha)
    cases ok with
    | true =>
      simp only [if_true]
      refine h.shrink ?_ ?_ rfl rfl ?_ ?_ hk
      · simp [line,linked,hr]
      · rw [hl]
        exact sublist_cons_self _ _
      · intro t _ ht
        rw [Accounted,mem_line_tickets] at ht ⊢
        simp only [hr] at ht ⊢
        grind
      · intro a ha _ hreq hfl hne
        refine ⟨hfl,?_⟩
        have hms : s.msg≠e.req := hreq ▸ ho a ha
        simpa [set,hms] using hne
    | false =>
      simp only [Bool.false_eq_true,if_false]
      have hi : Inv {s with
          handed:=s.handed++[⟨e,kind,false⟩]
          closing:=true
          sendFailed:=true
          retQueue:=some []
          resp:=fun r => if (e::rest).any (·.req=r) then none else s.resp r} := by
        refine h.shrink ?_ ?_ rfl rfl (fun t _ _ => Or.inr (Or.inr ⟨rfl,Or.inl rfl⟩)) ?_ hk
        · simp [line,linked,hr]
        · rw [hl]
          simp [linked]
        · intro a _ _ _ hfl hne
          refine ⟨hfl,?_⟩
          change (if (e::rest).any (·.req=s.msg) then none else s.resp s.msg)≠some .final
          split_ifs
          · exact fun h => by cases h
          · exact hne
      split_ifs
      · exact hi.bug
      · exact hi

lemma respBuildError_inv (r : Nat) (h : Inv s) : Inv (s.respBuildError r) := by
  rw [respBuildError]
  by_cases ha : s.seqQueue.any (·.req=r)=true
  · simp only [ha,if_true]
    refine h.unqueue rfl rfl rfl filter_sublist rfl rfl rfl (fun _ => rfl) (List.Subset.refl _)
      (subset_append_left _ _) ?_ (fun _ _ _ _ hf hr => ⟨hf,hr⟩)
    intro t ht
    obtain ht | ht := mem_tickets_filter (r := r) ht
    · exact Or.inl ht
    · exact Or.inr (Or.inr ⟨rfl,mem_append_right _ ht⟩)
  · simp only [ha,Bool.false_eq_true,if_false]
    have hi : Inv {s with closing:=true} := h.same_lists rfl rfl rfl rfl rfl rfl (fun _ => rfl) id
        (fun _ _ _ _ hf hr => ⟨hf,hr⟩) h.kind
    split_ifs
    · exact hi.bug
    · exact hi

lemma cliDrop_inv (h : Inv s) : Inv s.cliDrop := by
  refine h.unqueue rfl rfl rfl (nil_sublist _) rfl rfl rfl (fun _ => rfl) (List.Subset.refl _)
    (subset_append_left _ _) ?_ (fun _ _ _ _ hf hr => ⟨hf,hr⟩)
  intro t ht
  exact Or.inr (Or.inr ⟨rfl,mem_append_right _ ht⟩)

lemma step_inv (s : CliConn) (e : Event) (s' : CliConn) (h : Inv s) (hst : step s e=some s') : Inv s' := by
  rw [step] at hst
  split_ifs at hst
  cases e with
  | addSeqQueue =>
    simp only [act,Option.ite_none_right_eq_some,Option.some.injEq] at hst
    exact hst.2 ▸ addSeqQueue_inv h
  | sendContinuation =>
    simp only [act,Option.ite_none_right_eq_some,Option.some.injEq] at hst
    exact hst.2 ▸ sendContinuation_inv h
  | delContinuation =>
    simp only [act,Option.ite_none_right_eq_some,Option.some.injEq] at hst
    exact hst.2 ▸ delContinuation_inv h
  | delContinuationRet =>
    simp only [act,Option.ite_none_right_eq_some,Option.some.injEq] at hst
    exact hst.2 ▸ delContinuationRet_inv h
  | pair r =>
    simp only [act,Option.ite_none_right_eq_some,Option.some.injEq] at hst
    obtain ⟨hg,rfl⟩ := hst
    refine h.same_lists rfl rfl rfl rfl rfl rfl id id ?_ h.kind
    intro e _ _ _ hfl hre
    refine ⟨hfl,?_⟩
    have hne : s.msg≠r := by
      rintro rfl
      obtain hlt | ⟨hq,hw⟩ := hg
      · exact Nat.lt_irrefl _ hlt
      · obtain hf | hf := hfl
        · rw [hq] at hf
          cases hf
        · rw [hw] at hf
          cases hf
    simpa [set,hne] using hre
  | unpair r =>
    cases hst
    refine h.same_lists rfl rfl rfl rfl rfl rfl id id ?_ h.kind
    intro e _ _ _ hfl hre
    refine ⟨hfl,?_⟩
    change set s.resp r none s.msg≠some .final
    rw [set]
    split_ifs
    · exact fun h => by cases h
    · exact hre
  | respFwd r =>
    simp only [act,Option.ite_none_right_eq_some,Option.some.injEq] at hst
    exact hst.2 ▸ respFwd_inv r h hst.1
  | takeRetLock =>
    cases hc : s.cutQueue with
    | none => simp [act,hc] at hst
    | some ready =>
      simp only [act,hc,Option.ite_none_right_eq_some,Option.some.injEq] at hst
      obtain ⟨hr,rfl⟩ := hst
      refine h.same_lists ?_ ?_ rfl rfl rfl rfl id id (fun _ _ _ _ hfl hre => ⟨hfl,hre⟩) h.kind
      · simp [line,linked,hc,hr]
      · simp [linked,hc,hr]
  | send ok =>
    cases hr : s.retQueue with
    | none => simp [act,hr] at hst
    | some es =>
      cases es with
      | nil => simp [act,hr] at hst
      | cons e rest =>
        simp only [act,hr,Option.some.injEq] at hst
        exact hst ▸ sendNext_inv ok h hr
  | dropRetLock =>
    simp only [act,Option.ite_none_right_eq_some,Option.some.injEq] at hst
    obtain ⟨hr,rfl⟩ := hst
    refine h.same_lists ?_ ?_ rfl rfl rfl rfl id id (fun _ _ _ _ hfl hre => ⟨hfl,hre⟩) h.kind
    · simp [line,linked,hr]
    · simp [linked,hr]
  | respBuildError r =>
    simp only [act,Option.ite_none_right_eq_some,Option.some.injEq] at hst
    exact hst.2 ▸ respBuildError_inv r h
  | cliDrop =>
    simp only [act,Option.ite_none_right_eq_some,Option.some.injEq] at hst
    exact hst.2 ▸ cliDrop_inv h

lemma discarded_step (s : CliConn) (e : Event) (s' : CliConn) (h : s.discarded=[]) (he : (!e.discards)=true)
    (hst : step s e=some s') : s'.discarded=[] := by
  rw [step] at hst
  split_ifs at hst
  cases e with
  | respBuildError r => cases he
  | cliDrop => cases he
  | takeRetLock =>
    rw [act] at hst
    grind
  | send ok =>
    rw [act] at hst
    grind [sendNext,bug]
  | _ =>
    rw [act] at hst
    grind [addSeqQueue,sendContinuation,delContinuation,delContinuationRet,respFwd,bug]

lemma send_hands_first {ok : Bool} {x : Handed} (hst : step s (.send ok)=some s')
    (hx : s'.handed=s.handed++[x]) : ∃rest,s.retQueue=some (x.entry::rest) := by
  rw [step] at hst
  split_ifs at hst
  cases hr : s.retQueue with
  | none => simp [act,hr] at hst
  | some es =>
    cases es with
    | nil => simp [act,hr] at hst
    | cons e rest =>
      simp only [act,hr,Option.some.injEq] at hst
      subst hst
      rw [sendNext] at hx
      have hl (kind : RespKind) (h : s.handed++[⟨e,kind,ok⟩]=s.handed++[x]) : some (e::rest)=some (x.entry::rest) := by
        rw [← singleton_inj.1 (append_cancel_left h)]
      refine ⟨rest,?_⟩
      cases hre : s.resp e.req with
      | none => simp [hre,bug] at hx
      | some kind =>
        apply hl kind
        simp only [hre] at hx
        split_ifs at hx <;> exact hx

/-- In every interleaving the responses are handed over in the order in which their requests were queued, each
request gets its final response at most once, and a response is handed over only after those of all requests
queued ahead of it, unless such an entry was a withdrawn 100-continue or the connection is being closed, after a failed
send or by an event that discards entries. -/
theorem responses_keep_request_order (evs : List Event) (s : CliConn) (hrun : Run.run step init evs=some s) :
    (s.handed.map (·.entry.ticket)).Pairwise (· < ·) ∧ ((s.handed.filter (·.kind=.final)).map (·.entry.req)).Nodup ∧
    ∀ok s' x,step s (.send ok)=some s' → s'.handed=s.handed++[x] →
      ∀t<x.entry.ticket,t∈s.handed.map (·.entry.ticket) ∨ t∈s.withdrawn ∨
        (s.closing=true ∧ (s.sendFailed=true ∨ t∈s.discarded ∧ ∃e∈evs,e.discards)) := by
  have h : Inv s := Run.run_invariant step step_inv inv_init hrun
  have hh : (s.handed.map Handed.entry).Sublist (line s) := sublist_append_left _ _
  refine ⟨?_,?_,?_⟩
  · have hso := h.lineOk.sorted.sublist hh
    rw [pairwise_map] at hso ⊢
    exact hso
  · -- the entries handed over with a final response are entries for final responses
    refine List.Nodup.sublist ?_ h.lineOk.once
    have hf : (s.handed.filter (·.kind=.final)).map Handed.entry =
        ((s.handed.filter (·.kind=.final)).map Handed.entry).filter fun e => !e.cont := by
      refine (filter_eq_self.2 ?_).symm
      intro e he
      obtain ⟨x,hx,rfl⟩ := mem_map.1 he
      obtain ⟨hx,hfi⟩ := mem_filter.1 hx
      simp [h.kind x hx (by simpa using hfi)]
    have hs : ((s.handed.filter (·.kind=.final)).map Handed.entry).Sublist (line s) := (filter_sublist.map _).trans hh
    have hr := ((hs.filter fun e => !e.cont).map Entry.req)
    rw [← hf,map_map] at hr
    exact hr
  · intro ok s' x hst hx t ht
    obtain ⟨rest,hret⟩ := send_hands_first hst hx
    have hl : line s=s.handed.map Handed.entry++x.entry::(rest++s.cutQueue.getD []++s.seqQueue) := by
      simp [line,linked,hret]
    have hb : x.entry.ticket<s.tickets := by
      apply h.lineOk.bound
      rw [hl]
      exact mem_append_right _ mem_cons_self
    obtain hin | hrs := h.accounted t (Nat.lt_trans ht hb)
    · left
      obtain ⟨e,he,rfl⟩ := mem_map.1 hin
      have hso := h.lineOk.sorted
      rw [hl,pairwise_append,pairwise_cons] at hso
      rw [hl] at he
      obtain he | he := mem_append.1 he
      · obtain ⟨y,hy,rfl⟩ := mem_map.1 he
        exact mem_map.2 ⟨y,hy,rfl⟩
      · -- nothing linked behind the first entry has a smaller ticket
        obtain rfl | he := mem_cons.1 he
        · exact absurd ht (Nat.lt_irrefl _)
        · exact absurd (Nat.lt_trans ht (hso.2.1.1 e he)) (Nat.lt_irrefl _)
    · obtain hw | ⟨hc,hf | hd⟩ := hrs
      · exact Or.inr (Or.inl hw)
      · exact Or.inr (Or.inr ⟨hc,Or.inl hf⟩)
      · refine Or.inr (Or.inr ⟨hc,Or.inr ⟨hd,?_⟩⟩)
        by_contra hno
        have hal : Run.along step (fun _ e => !e.discards) init evs=true := by
          apply Run.along_of_forall
          intro e he _
          simpa using fun hdi => hno ⟨e,he,hdi⟩
        have hnil := Run.run_invariant_along step (P := (·.discarded=[])) discarded_step rfl hal hrun
        rw [hnil] at hd
        cases hd

/-- Three pipelined requests, the third one expecting a 100-continue. -/
def pipelined : List Event := [.addSeqQueue,.addSeqQueue,.sendContinuation,.pair 1,.respFwd 1,.pair 0,.respFwd 0,
    .takeRetLock,.delContinuation,.send true,.send true,.send true,.dropRetLock,
    .delContinuationRet,.addSeqQueue,.pair 2,.respFwd 2,.takeRetLock,.send true]

theorem responses_keep_request_order_pipelined : ∃s,Run.run step init pipelined=some s ∧
    s.handed.map (fun x => (x.entry.req,x.kind))=[(0,.final),(1,.final),(2,.cont),(2,.final)] ∧
    (s.handed.map (·.entry.ticket)).Pairwise (· < ·) := ⟨_,rfl,rfl,(responses_keep_request_order pipelined _ rfl).1⟩
end VetWaf.Http.SeqQueue
