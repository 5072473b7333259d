import VetWaf.Http.FwdLife
import VetWaf.Lib.Run

namespace VetWaf.Http.FwdQueue
open Option List Run Bool

inductive Event where
  /-- `tfw_http_req_fwd_resched` of a client's request -/
  | fwdResched (r : Req) (env : Env)
  /-- `tfw_http_req_fwd` of a request rescheduled from another connection, or of the health monitor -/
  | fwd (r : Req) (resched : Bool) (env : Env)
  /-- A response begins to arrive. -/
  | respond
  /-- The first of the responses that are being received is complete or unusable. -/
  | popreq (fwdUnsent : Bool) (env env' : Env)
  /-- The socket takes a request that was handed to it. -/
  | entail (valid : Bool)
  /-- The connection is lost. -/
  | release (removed : Bool)
  /-- An attempt to restore the connection failed. -/
  | repairDead (needResched : Bool) (env : Env)
  | connectComplete (env env' : Env)
  /-- An upgrade failed. -/
  | clearUnsched

namespace SrvConn
variable (retryNip : Bool) (nip : Req → Bool) (c : SrvConn)

/-- The effect of an event, where it can happen. -/
def act : Event → Option (Except BugOn SrvConn)
  | .fwdResched r env => if c.live ∧ ¬ c.resend ∧ r∉c.q.fwdQueue then some (c.reqFwdResched nip env r) else none
  | .fwd r resched env =>
    if c.live ∧ ¬ c.resend ∧ r∉c.q.fwdQueue then
      some ((c.reqFwd nip env r resched).map Prod.snd)
    else none
  | .respond => if c.live ∧ ¬ c.ebadf then some (.ok c.respond) else none
  | .popreq fwdUnsent env env' =>
    match c.paired with
    | [] => none
    | r::_ => if c.live then some (c.popreq nip fwdUnsent env env' r) else none
  | .entail valid =>
    match c.pending with
    | [] => none
    | r::_ =>
      if c.live ∧ (valid ∨ r∈c.q.fwdQueue ∧ r∉c.paired) then some (.ok (c.entail valid))
      else none
  | .release removed => if c.live then some (.ok (c.release removed)) else none
  | .repairDead needResched env => if c.live then none else some (c.repairDead needResched env)
  | .connectComplete env env' => if c.live then none else some (c.connectComplete retryNip nip env env')
  | .clearUnsched => some (.ok {c with unsched:=false})

/-- The only event that can meet a `BUG_ON` is a reconnect. -/
def safe : Event → Bool
  | .connectComplete .. => c.treatSafe retryNip
  | _ => true

def answers : Event → Bool
  | .respond => decide (c.chosen.length<c.onWire.length) || c.pending.isEmpty
  | _ => true

end SrvConn

def Event.enters : Event → Option Req
  | .fwdResched r _ => some r
  | .fwd r _ _ => some r
  | _ => none

namespace SrvConn
variable {retryNip : Bool} {nip : Req → Bool} {c c' : SrvConn} {S O U : List Req} {e : Event}

structure Moved (retryNip : Bool) (nip : Req → Bool) (c : SrvConn) (S O : List Req) (e : Event)
    (c' : SrvConn) (S' O' U' : List Req) : Prop where
  inv : Inv nip c' S' O' U'
  track : c.answers e=true → Track c S → Track c' S'
  once : retryNip=false → (∀r,e.enters=some r → nip r=true → r∉c.handed) → Once nip c (S++O) → Once nip c' (S'++O')
  has : ∀r,Has c' r → Has c r ∨ e.enters=some r

lemma Moved.of_leads {S' O' U' : List Req} (h : Leads nip c S O c' S' O' U') :
    Moved retryNip nip c S O e c' S' O' U' := ⟨h.inv,fun _ => h.track,fun _ _ => h.once,fun r hr => .inl (h.has r hr)⟩

lemma Moved.of_entered {r : Req} {S' O' U' : List Req} (h : Entered nip c r S O c' S' O' U')
    (he : e.enters=some r) : Moved retryNip nip c S O e c' S' O' U' :=
  ⟨h.inv,fun _ => h.track,fun _ hf => h.once (hf r he),fun a ha => (h.has a ha).imp_right fun h =>
    he.trans (congrArg some h.symm)⟩

lemma act_cases {res : Except BugOn SrvConn} (hi : Inv nip c S O U) (h : c.act retryNip nip e=some res) :
    (c.safe retryNip e=false ∧ res=.error .treatnipUnlisted) ∨ ∃c' S' O' U',c.safe retryNip e=true ∧ res=.ok c' ∧
        Moved retryNip nip c S O e c' S' O' U' := by
  cases e with
  | fwdResched r env =>
    simp only [act,ite_none_right_eq_some,Option.some.injEq,not_eq_true] at h
    obtain ⟨⟨hl,hre,hr⟩,rfl⟩ := h
    obtain ⟨c',S',O',U',hok,he⟩ := reqFwdResched_entered env hi hl hre hr
    exact .inr ⟨c',S',O',U',rfl,hok,.of_entered he rfl⟩
  | fwd r resched env =>
    simp only [act,ite_none_right_eq_some,Option.some.injEq,not_eq_true] at h
    obtain ⟨⟨hl,hre,hr⟩,rfl⟩ := h
    obtain ⟨res,S',O',U',hok,he⟩ := reqFwd_entered env resched hi hl hre hr
    refine .inr ⟨res.2,S',O',U',rfl,?_,.of_entered he rfl⟩
    rw [hok]
    rfl
  | respond =>
    simp only [act,ite_none_right_eq_some,Option.some.injEq,not_eq_true] at h
    obtain ⟨⟨hl,hb⟩,rfl⟩ := h
    refine .inr ⟨c.respond,S,O,U,rfl,rfl,respond_inv hi hl hb,?_,?_,?_⟩
    · intro han ht
      refine respond_track hi ht ?_
      simpa [answers] using han
    · exact fun _ _ => respond_once
    · exact fun r hr => .inl (respond_has hr)
  | popreq fwd env env' =>
    rw [act] at h
    cases hp : c.paired with
    | nil =>
      rw [hp] at h
      cases h
    | cons r ps =>
      simp only [hp,ite_none_right_eq_some,Option.some.injEq] at h
      obtain ⟨hl,rfl⟩ := h
      obtain ⟨c',S',O',U',hok,hld⟩ := popreq_leads fwd env env' hi hl hp
      exact .inr ⟨c',S',O',U',rfl,hok,.of_leads hld⟩
  | entail valid =>
    rw [act] at h
    cases hp : c.pending with
    | nil =>
      rw [hp] at h
      cases h
    | cons r ps =>
      simp only [hp,ite_none_right_eq_some,Option.some.injEq] at h
      obtain ⟨⟨hl,hg⟩,rfl⟩ := h
      rw [entail_cases valid hp]
      cases valid with
      | true =>
        refine .inr ⟨_,S,O,U,rfl,rfl,?_,fun _ ht => written_track ht hp,?_,fun r => .inl⟩
        · exact ⟨hi.books,⟨hi.layout.queue,hi.layout.curr,hi.layout.last⟩,hi.paired,hi.direct,hi.probing,hi.dead⟩
        · exact fun _ _ ho => ⟨ho.handed,ho.only,ho.repair,ho.count⟩
      | false =>
        obtain ⟨hr,hrp⟩ := hg.resolve_left (by decide)
        refine .inr ⟨_,_,_,_,rfl,rfl,cancel_inv hi hr hrp,fun _ ht => cancel_track hi ht hp,
          fun _ _ ho => cancel_once hi ho,?_⟩
        intro a ha
        refine .inl (ha.imp_left fun h => ?_)
        exact mem_of_mem_erase (FwdQ.delist_fwdQueue (q := c.q) (r := r) ▸ h)
  | release removed =>
    simp only [act,ite_none_right_eq_some,Option.some.injEq] at h
    obtain ⟨-,rfl⟩ := h
    obtain ⟨S',O',U',hld⟩ := release_leads removed hi
    exact .inr ⟨_,S',O',U',rfl,rfl,.of_leads hld⟩
  | repairDead needResched env =>
    simp only [act,ite_none_left_eq_some,Option.some.injEq,not_eq_true] at h
    obtain ⟨hd,rfl⟩ := h
    obtain ⟨c',S',O',U',hok,hld⟩ := repairDead_leads needResched env hi hd
    exact .inr ⟨c',S',O',U',rfl,hok,.of_leads hld⟩
  | connectComplete env env' =>
    simp only [act,ite_none_left_eq_some,Option.some.injEq,not_eq_true] at h
    obtain ⟨hd,rfl⟩ := h
    rcases connectComplete_cases retryNip env env' hi hd with
      ⟨hbu,herr⟩ | ⟨c',S',O',U',hs,hok,hin,htr,hon,hh⟩
    · exact .inl ⟨hbu,herr⟩
    · exact .inr ⟨c',S',O',U',hs,hok,hin,fun _ _ => htr,fun hr _ => hon hr,fun r hr => .inl (hh r hr)⟩
  | clearUnsched =>
    simp only [act,Option.some.injEq] at h
    subst h
    exact .inr ⟨_,S,O,U,rfl,rfl,hi.unsched false,fun _ => id,fun _ _ ho => ho.unsched false,fun r => .inl⟩

end SrvConn

/-- A connection and the non-idempotent flags of the requests. -/
structure State where
  nip : Req → Bool
  conn : SrvConn

def State.init : State := ⟨fun _ => false,.init⟩

inductive Input where
  | conn (e : Event)
  /-- The flag `TFW_HTTP_B_NON_IDEMP` changes. -/
  | setNonIdemp (r : Req) (b : Bool)

def setFlag (nip : Req → Bool) (r : Req) (b : Bool) : Req → Bool := fun x => if x=r then b else nip x

def step (retryNip : Bool) : Except BugOn State → Input → Option (Except BugOn State)
  | .error _, _ => none
  | .ok s, .conn e => (s.conn.act retryNip s.nip e).map fun res => res.map fun conn => {s with conn}
  | .ok s, .setNonIdemp r b => if b ∧ r∈s.conn.q.fwdQueue then none else some (.ok {s with nip:=setFlag s.nip r b})

def onEvents (p : SrvConn → Event → Bool) : Except BugOn State → Input → Bool
  | .ok s, .conn e => p s.conn e
  | _, _ => true

section
variable {retryNip : Bool} {s : State} {S O U : List Req}
lemma Inv.setFlag {nip : Req → Bool} {c : SrvConn} {r : Req} {b : Bool}
    (hi : Inv nip c S O U) (hr : ¬ (b=true ∧ r∈c.q.fwdQueue)) : Inv (setFlag nip r b) c S O U := by
  refine ⟨hi.books.mono ?_,hi.layout,hi.paired,hi.direct,hi.probing,hi.dead⟩
  intro a ha hn
  rw [FwdQueue.setFlag] at hn
  split_ifs at hn with har
  · subst har
    exact absurd ⟨hn,ha⟩ hr
  · exact hn

lemma step_cases {i : Input} {t : Except BugOn State}
    (hi : Inv s.nip s.conn S O U) (h : step retryNip (.ok s) i=some t) :
    (onEvents (SrvConn.safe retryNip) (.ok s) i=false ∧ t=.error .treatnipUnlisted) ∨
      ∃s' S' O' U',onEvents (SrvConn.safe retryNip) (.ok s) i=true ∧ t=.ok s' ∧ Inv s'.nip s'.conn S' O' U' ∧
        (onEvents SrvConn.answers (.ok s) i=true → Track s.conn S → Track s'.conn S') := by
  cases i with
  | conn e =>
    rw [step,map_eq_some_iff] at h
    obtain ⟨res,hre,rfl⟩ := h
    obtain ⟨hb,rfl⟩ | ⟨c',S',O',U',hs,rfl,hm⟩ := SrvConn.act_cases hi hre
    · exact .inl ⟨hb,rfl⟩
    · exact .inr ⟨{s with conn:=c'},S',O',U',hs,rfl,hm.inv,hm.track⟩
  | setNonIdemp r b =>
    rw [step] at h
    split_ifs at h with hr
    cases h
    exact .inr ⟨_,S,O,U,rfl,rfl,hi.setFlag hr,fun _ => id⟩

lemma init_inv : Inv State.init.nip State.init.conn [] [] [] :=
  ⟨.empty,⟨rfl,rfl,rfl⟩, nil_prefix,fun _ _ => rfl,(fun h => nomatch h),fun _ => ⟨rfl,rfl,rfl⟩⟩

/-- What is required of a connection whenever `fwd_qlock` is free. -/
structure Consistent (c : SrvConn) : Prop where
  qsize : c.q.qsize=c.q.fwdQueue.length
  nip : ∀r∈c.q.nipQueue,r∈c.q.fwdQueue
  hasnip : c.q.hasnip=true ↔ c.q.nipQueue≠[]
  last : ∀r,c.lastMsgSent=some r → r∈c.q.fwdQueue
  curr : ∀r,c.currMsgSent=some r → r∈c.q.fwdQueue ∧ ∃l,c.lastMsgSent=some l ∧ c.q.fwdQueue.idxOf r≤c.q.fwdQueue.idxOf l

lemma Inv.consistent {nip : Req → Bool} {c : SrvConn} (hi : Inv nip c S O U) : Consistent c := by
  have hnd := hi.layout.queue ▸ hi.books.nodup
  refine ⟨hi.books.qsize,hi.books.nipMem,hi.books.hasnip,?_,?_⟩
  · intro r hr
    rw [hi.layout.queue]
    exact mem_append_left _ (mem_of_getLast? (hi.layout.last ▸ hr))
  · intro r hr
    rw [hi.layout.curr] at hr
    have hS : S≠[] := by
      rintro rfl
      cases hr
    have hl : (S++O).getLast? = some ((S++O).getLast (by simp [hS])) := getLast?_eq_getLast_of_ne_nil _
    refine ⟨?_,_,hi.layout.last.trans hl,?_⟩
    · rw [hi.layout.queue,append_assoc]
      exact mem_append_left _ (mem_of_getLast? hr)
    · have hidx := ListCursor.idxOf_getLast? hnd hl
      rw [append_assoc] at hnd
      have hi' := ListCursor.idxOf_getLast? hnd hr
      rw [← append_assoc] at hi'
      rw [hi.layout.queue]
      rw [length_append] at hidx
      omega

/-- As long as every reconnect finds the connection not on hold for an upgrade, or on hold behind a request on
`nip_queue`, the queue is consistent and no `BUG_ON` is met. -/
theorem fwd_queue_consistent (retryNip : Bool) (is : List Input) (t : Except BugOn State)
    (hrun : run (step retryNip) (.ok .init) is=some t)
    (hsafe : along (step retryNip) (onEvents (SrvConn.safe retryNip)) (.ok .init) is=true) :
    ∃s,t=.ok s ∧ Consistent s.conn ∧ ∀i,(∃b,step retryNip (.ok s) i=some (.error b)) ↔
        (step retryNip (.ok s) i).isSome ∧ onEvents (SrvConn.safe retryNip) (.ok s) i=false := by
  have hin : ∃s,t=.ok s ∧ ∃S O U,Inv s.nip s.conn S O U := by
    refine run_invariant_along (step retryNip) (P := fun t => ∃s,t=.ok s ∧ ∃S O U,Inv s.nip s.conn S O U) ?_
      ⟨.init,rfl,[],[],[],init_inv⟩ hsafe hrun
    rintro _ i t' ⟨s,rfl,S,O,U,hi⟩ hsafe hst
    obtain ⟨hbu,-⟩ | ⟨s',S',O',U',-,rfl,hi',-⟩ := step_cases hi hst
    · rw [hsafe] at hbu
      cases hbu
    · exact ⟨s',rfl,S',O',U',hi'⟩
  obtain ⟨s,rfl,S,O,U,hi⟩ := hin
  refine ⟨s,rfl,hi.consistent,fun i => ⟨?_,?_⟩⟩
  · rintro ⟨b,hb⟩
    refine ⟨by simp [hb],?_⟩
    obtain ⟨hbu,-⟩ | ⟨s',S',O',U',-,hok,-⟩ := step_cases hi hb
    · exact hbu
    · cases hok
  · rintro ⟨hs,hbu⟩
    obtain ⟨t,ht⟩ := isSome_iff_exists.1 hs
    obtain ⟨-,rfl⟩ | ⟨s',S',O',U',hok,-⟩ := step_cases hi ht
    · exact ⟨_,ht⟩
    · rw [hbu] at hok
      cases hok

def plainReq (id : Nat) : Req := ⟨id,false,false⟩
def upgradeReq (id : Nat) : Req := ⟨id,true,false⟩
def Env.sending (send : Req → Rc) : Env := ⟨fun _ => false,fun _ => false,fun _ => false,send⟩
def Env.good : Env := .sending fun _ => .ok

/-- A plain request is sent, a websocket upgrade meets a broken connection, and the connection is
restored. -/
def failedUpgrade : List Input :=
  [.conn (.connectComplete .good .good),.conn (.fwdResched (plainReq 0) .good),.setNonIdemp (upgradeReq 1) true,
    .conn (.fwdResched (upgradeReq 1) (.sending fun _ => .ebadf)),.conn (.release false),
    .conn (.connectComplete .good .good)]

def bugOf : Except BugOn State → Option BugOn
  | .error b => some b
  | .ok _ => none

def connOf : Except BugOn State → Option SrvConn
  | .error _ => none
  | .ok s => some s.conn

/-- The upgrade put the connection on hold without being sent. -/
theorem reconnect_after_failed_upgrade_bugs :
    (run (step false) (.ok .init) failedUpgrade).map bugOf=some (some .treatnipUnlisted) := by
  decide +kernel

def nipReconnect : List Input := [.conn (.connectComplete .good .good),.setNonIdemp (plainReq 1) true,
    .conn (.fwdResched (plainReq 0) .good),.conn (.fwdResched (plainReq 1) .good),
    .conn (.fwdResched (plainReq 2) .good),.conn (.release false),.conn (.connectComplete .good .good)]

theorem fwd_queue_consistent_nipReconnect : ∃s,run (step false) (.ok .init) nipReconnect=some (.ok s) ∧
      s.conn.q.fwdQueue=[plainReq 0,plainReq 2] ∧ Consistent s.conn := by
  have hqu : ((run (step false) (.ok .init) nipReconnect).bind connOf).map
      (fun c => c.q.fwdQueue)=some [plainReq 0,plainReq 2] := by decide +kernel
  obtain ⟨c,hc,hq⟩ := map_eq_some_iff.1 hqu
  obtain ⟨t,hr,ht⟩ := bind_eq_some_iff.1 hc
  obtain ⟨s,rfl,hs,-⟩ := fwd_queue_consistent false nipReconnect t hr (by decide +kernel)
  cases ht
  exact ⟨s,hr,hq,hs⟩

/-- The requests sent since the connection was established and not cancelled. -/
def SrvConn.sentRequests (c : SrvConn) : List Req := c.onWire++c.pending

/-- If the back end answers only requests that were written to it, the `n`-th response is paired with the `n`-th
request sent and not cancelled, and one is refused exactly when all of them have one. -/
theorem responses_pair_with_their_requests (retryNip : Bool) (is : List Input) (s : State)
    (hrun : run (step retryNip) (.ok .init) is=some (.ok s))
    (hanswers : along (step retryNip) (onEvents SrvConn.answers) (.ok .init) is=true) (hlive : s.conn.live=true) :
    s.conn.chosen=s.conn.sentRequests.take s.conn.chosen.length ∧
      s.conn.respPair=s.conn.sentRequests[s.conn.chosen.length]? ∧
      (s.conn.respPair=none ↔ s.conn.chosen.length=s.conn.sentRequests.length) := by
  have hin : ∀s',(.ok s : Except BugOn State)=.ok s' → ∃S O U,Inv s'.nip s'.conn S O U ∧ Track s'.conn S := by
    refine run_invariant_along (step retryNip) (P := fun t => ∀s',t=.ok s' →
      ∃S O U,Inv s'.nip s'.conn S O U ∧ Track s'.conn S) ?_ ?_ hanswers hrun
    · intro t i t' ht ha hst s' hs'
      cases t with
      | error b => cases hst
      | ok s₀ =>
        obtain ⟨S,O,U,hi,htr⟩ := ht s₀ rfl
        obtain ⟨-,rfl⟩ | ⟨s₁,S',O',U',-,rfl,hi',ht'⟩ := step_cases hi hst
        · cases hs'
        · cases hs'
          exact ⟨S',O',U',hi',ht' ha htr⟩
    · intro s' hs'
      cases hs'
      exact ⟨[],[],[],init_inv,fun h => nomatch h⟩
  obtain ⟨S,O,U,hi,htr⟩ := hin s rfl
  obtain ⟨taken,hc,hw,-⟩ := htr hlive
  obtain ⟨T,hS,hp⟩ := SrvConn.respPair_eq hi
  have hs : s.conn.sentRequests=s.conn.chosen++T := by rw [SrvConn.sentRequests,hw,hS,hc,append_assoc]
  rw [hs,hp]
  refine ⟨by simp,?_,?_⟩
  · rw [getElem?_append_right le_rfl,Nat.sub_self,head?_eq_getElem?]
  · cases T <;> simp

def cancelledRequest : List Input := [.conn (.connectComplete .good .good),.conn (.fwdResched (plainReq 0) .good),
    .conn (.fwdResched (plainReq 1) .good),.conn (.fwdResched (plainReq 2) .good),
    .conn (.entail true),.conn (.entail false),.conn (.entail true),.conn .respond,
    .conn (.popreq true .good .good),.conn .respond]

theorem responses_pair_with_their_requests_cancelled : ∃s,run (step false) (.ok .init) cancelledRequest=some (.ok s) ∧
      s.conn.chosen=[plainReq 0,plainReq 2] ∧ s.conn.respPair=none := by
  have hch : ((run (step false) (.ok .init) cancelledRequest).bind connOf).map
      (fun c => (c.live,c.chosen,c.sentRequests)) =
      some (true,[plainReq 0,plainReq 2],[plainReq 0,plainReq 2]) := by decide +kernel
  obtain ⟨c,hc,hc'⟩ := map_eq_some_iff.1 hch
  obtain ⟨t,hr,ht⟩ := bind_eq_some_iff.1 hc
  cases t with
  | error b => cases ht
  | ok s =>
    cases ht
    simp only [Prod.mk.injEq] at hc'
    obtain ⟨hl,hcho,hs⟩ := hc'
    have h := responses_pair_with_their_requests false cancelledRequest s hr (by decide +kernel) hl
    exact ⟨s,hr,hcho,h.2.2.2 (by rw [hcho,hs])⟩
end
end VetWaf.Http.FwdQueue
