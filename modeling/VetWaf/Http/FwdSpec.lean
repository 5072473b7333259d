import VetWaf.Http.FwdQueue

namespace VetWaf.Http.FwdQueue
open List ListCursor Option

/-- The bookkeeping of a queue whose requests have the non-idempotent flags `nip`. -/
structure Books (nip : Req → Bool) (q : FwdQ) : Prop where
  qsize : q.qsize=q.fwdQueue.length
  nodup : q.fwdQueue.Nodup
  nipNodup : q.nipQueue.Nodup
  nipMem : ∀r∈q.nipQueue,r∈q.fwdQueue
  listed : ∀r∈q.fwdQueue,nip r=true → r∈q.nipQueue
  hasnip : q.hasnip=true ↔ q.nipQueue≠[]

section
variable {nip : Req → Bool} {q : FwdQ} {r : Req}
namespace FwdQ

@[simp] lemma nipReset_fwdQueue : q.nipReset.fwdQueue=q.fwdQueue := by
  rw [nipReset]
  split_ifs <;> rfl

@[simp] lemma nipReset_qsize : q.nipReset.qsize=q.qsize := by
  rw [nipReset]
  split_ifs <;> rfl

@[simp] lemma nipReset_nipQueue : q.nipReset.nipQueue=q.nipQueue := by
  rw [nipReset]
  split_ifs <;> rfl

lemma nipReset_hasnip (h : q.nipQueue≠[] → q.hasnip=true) : q.nipReset.hasnip=true ↔ q.nipQueue≠[] := by
  rw [nipReset]
  split_ifs with he
  · simp [he]
  · simp [he,h he]

@[simp] lemma nipDelist_fwdQueue : (q.nipDelist r).fwdQueue=q.fwdQueue := by
  rw [nipDelist]
  split_ifs <;> simp

@[simp] lemma nipDelist_qsize : (q.nipDelist r).qsize=q.qsize := by
  rw [nipDelist]
  split_ifs <;> simp

@[simp] lemma nipDelist_nipQueue : (q.nipDelist r).nipQueue=q.nipQueue.erase r := by
  rw [nipDelist]
  split_ifs with h
  · simp
  · exact (erase_of_not_mem h).symm

@[simp] lemma delist_fwdQueue : (q.delist r).fwdQueue=q.fwdQueue.erase r := by simp [delist]
@[simp] lemma delist_qsize : (q.delist r).qsize=q.qsize-1 := by simp [delist]
@[simp] lemma delist_nipQueue : (q.delist r).nipQueue=q.nipQueue.erase r := by simp [delist]
@[simp] lemma nipAdjust_fwdQueue : (q.nipAdjust nip).fwdQueue=q.fwdQueue := by simp [nipAdjust]

end FwdQ

namespace Books
section
variable (h : Books nip q)
include h
lemma nipDelist_hasnip : (q.nipDelist r).hasnip=true ↔ (q.nipDelist r).nipQueue≠[] := by
  rw [FwdQ.nipDelist]
  split_ifs with hr
  · rw [FwdQ.nipReset_nipQueue]
    refine FwdQ.nipReset_hasnip ?_
    intro _
    exact h.hasnip.2 (ne_nil_of_mem hr)
  · exact h.hasnip

lemma nipDelist (hr : nip r=false) : Books nip (q.nipDelist r) where
  qsize := by simpa using h.qsize
  nodup := by simpa using h.nodup
  nipNodup := by simpa using h.nipNodup.erase r
  nipMem a ha := by
    rw [FwdQ.nipDelist_nipQueue] at ha
    simpa using h.nipMem a (mem_of_mem_erase ha)
  listed a ha hn := by
    rw [FwdQ.nipDelist_fwdQueue] at ha
    have hne : a≠r := by
      rintro rfl
      rw [hr] at hn
      cases hn
    rw [FwdQ.nipDelist_nipQueue]
    exact (mem_erase_of_ne hne).2 (h.listed a ha hn)
  hasnip := h.nipDelist_hasnip

lemma delist (hr : r∈q.fwdQueue) : Books nip (q.delist r) where
  qsize := by rw [FwdQ.delist_qsize,FwdQ.delist_fwdQueue,length_erase_of_mem hr,h.qsize]
  nodup := by simpa using h.nodup.erase r
  nipNodup := by simpa using h.nipNodup.erase r
  nipMem a ha := by
    rw [FwdQ.delist_nipQueue,h.nipNodup.mem_erase_iff] at ha
    rw [FwdQ.delist_fwdQueue]
    exact (mem_erase_of_ne ha.1).2 (h.nipMem a ha.2)
  listed a ha hn := by
    rw [FwdQ.delist_fwdQueue,h.nodup.mem_erase_iff] at ha
    rw [FwdQ.delist_nipQueue]
    exact (mem_erase_of_ne ha.1).2 (h.listed a ha.2 hn)
  hasnip := h.nipDelist_hasnip

lemma nipAdjust : Books nip (q.nipAdjust nip) where
  qsize := by simpa [FwdQ.nipAdjust] using h.qsize
  nodup := by simpa using h.nodup
  nipNodup := by simpa [FwdQ.nipAdjust] using h.nipNodup.filter _
  nipMem a ha := by
    simp only [FwdQ.nipAdjust,FwdQ.nipReset_nipQueue,mem_filter] at ha
    simpa using h.nipMem a ha.1
  listed a ha hn := by
    simp only [FwdQ.nipAdjust_fwdQueue] at ha
    simp only [FwdQ.nipAdjust,FwdQ.nipReset_nipQueue,mem_filter]
    exact ⟨h.listed a ha hn,hn⟩
  hasnip := by
    rw [FwdQ.nipAdjust,FwdQ.nipReset_nipQueue]
    refine FwdQ.nipReset_hasnip ?_
    intro hne
    refine h.hasnip.2 ?_
    rintro he
    simp [he] at hne

lemma enlist (hr : r∉q.fwdQueue) : ∃q',q.enlist r nip=.ok q' ∧ q'.fwdQueue=q.fwdQueue++[r] ∧ Books nip q' := by
  have hni : r∉q.nipQueue := fun hm => hr (h.nipMem r hm)
  have hnd : (q.fwdQueue++[r]).Nodup := by
    rw [nodup_append_comm]
    exact nodup_cons.2 ⟨hr,h.nodup⟩
  by_cases hn : nip r=true
  · refine ⟨⟨q.fwdQueue++[r],q.qsize+1,q.nipQueue++[r],true⟩,?_,rfl,?_⟩
    · simp only [FwdQ.enlist,hn,if_true,FwdQ.nipEnlist,if_neg hni]
    refine ⟨by simp [h.qsize],hnd,?_,?_,?_,by simp⟩
    · rw [nodup_append_comm]
      exact nodup_cons.2 ⟨hni,h.nipNodup⟩
    · intro a ha
      obtain ha | ha := mem_append.1 ha
      · exact mem_append_left _ (h.nipMem a ha)
      · exact mem_append_right _ ha
    · intro a ha hna
      obtain ha | ha := mem_append.1 ha
      · exact mem_append_left _ (h.listed a ha hna)
      · exact mem_append_right _ ha
  · refine ⟨⟨q.fwdQueue++[r],q.qsize+1,q.nipQueue,q.hasnip⟩,?_,rfl,?_⟩
    · simp only [FwdQ.enlist,if_neg hn]
    refine ⟨by simp [h.qsize],hnd,h.nipNodup,?_,?_,h.hasnip⟩
    · intro a ha
      exact mem_append_left _ (h.nipMem a ha)
    · intro a ha hna
      obtain ha | ha := mem_append.1 ha
      · exact h.listed a ha hna
      · rw [mem_singleton.1 ha] at hna
        exact absurd hna hn

end

lemma empty : Books nip ⟨[],0,[],false⟩ := ⟨rfl,by simp,by simp,by simp,by simp,by simp⟩

lemma mono {nip' : Req → Bool} (h : Books nip q) (hle : ∀r∈q.fwdQueue,nip' r=true → nip r=true) : Books nip' q :=
  ⟨h.qsize,h.nodup,h.nipNodup,h.nipMem,fun r hr hn => h.listed r hr (hle r hr hn),h.hasnip⟩

end Books
end

/-- The queue is `S`, sent since the last connect, `O`, sent before it, and `U`, not sent yet. -/
structure Layout (c : SrvConn) (S O U : List Req) : Prop where
  queue : c.q.fwdQueue=S++O++U
  curr : c.currMsgSent=S.getLast?
  last : c.lastMsgSent=(S++O).getLast?

/-- The connection `c'` came from `c` by handing `new` to the socket. -/
structure Sent (c c' : SrvConn) (new : List Req) : Prop where
  pending : c'.pending=c.pending++new
  handed : c'.handed=c.handed++new
  live : c'.live=c.live
  resend : c'.resend=c.resend
  qforwd : c'.qforwd=c.qforwd
  paired : c'.paired=c.paired
  onWire : c'.onWire=c.onWire
  chosen : c'.chosen=c.chosen
  reschq : c'.reschq=c.reschq

namespace Sent
variable {c c' d : SrvConn} {new new' : List Req}
lemma refl (c : SrvConn) : Sent c c [] := by constructor <;> simp

lemma trans (h : Sent c c' new) (h' : Sent c' d new') : Sent c d (new++new') where
  pending := by rw [h'.pending,h.pending,append_assoc]
  handed := by rw [h'.handed,h.handed,append_assoc]
  live := h'.live.trans h.live
  resend := h'.resend.trans h.resend
  qforwd := h'.qforwd.trans h.qforwd
  paired := h'.paired.trans h.paired
  onWire := h'.onWire.trans h.onWire
  chosen := h'.chosen.trans h.chosen
  reschq := h'.reschq.trans h.reschq

end Sent

structure Kept (c c' : SrvConn) : Prop where
  q : c'.q=c.q
  last : c'.lastMsgSent=c.lastMsgSent
  curr : c'.currMsgSent=c.currMsgSent

/-- A result of eviction or of a failed send. -/
structure Removed (c c' : SrvConn) (r : Req) : Prop where
  q : c'.q=c.q.delist r
  last : c'.lastMsgSent=c.lastMsgSent
  curr : c'.currMsgSent=c.currMsgSent
  sent : Sent c c' []

lemma Removed.cut {nip : Req → Bool} {c c' : SrvConn} {r : Req} {A B : List Req}
    (hr : Removed c c' r) (hb : Books nip c.q) (hq : c.q.fwdQueue=A++r::B) : Books nip c'.q ∧ c'.q.fwdQueue=A++B := by
  rw [hr.q]
  refine ⟨hb.delist (by simp [hq]),?_⟩
  rw [FwdQ.delist_fwdQueue,hq,erase_append_right _ (nodup_cut (hq ▸ hb.nodup)).1]
  simp

lemma Layout.kept {c c' : SrvConn} {S O U : List Req} (h : Layout c S O U) (hk : Kept c c') : Layout c' S O U :=
  ⟨by rw [hk.q,h.queue],hk.curr.trans h.curr,hk.last.trans h.last⟩

namespace SrvConn
variable {nip : Req → Bool} {env : Env} {c c' : SrvConn} {r : Req}
lemma reqErr_removed (status : Nat) (reason : String) : Removed c (c.reqErr r status reason) r := by
  rw [reqErr,queueErr]
  split_ifs <;> exact ⟨rfl,rfl,rfl,by constructor <;> simp⟩

lemma sendError_removed (c : SrvConn) (r : Req) : Removed c (c.sendError r) r := by
  rw [sendError]
  split_ifs
  · exact ⟨rfl,rfl,rfl,by constructor <;> simp⟩
  · exact reqErr_removed _ _

lemma evictDropped_removed (h : c.evictDropped env r=some c') : Removed c c' r := by
  rw [evictDropped] at h
  split_ifs at h
  cases h
  exact ⟨rfl,rfl,rfl,by constructor <;> simp⟩

lemma evictTimeout_removed (h : c.evictTimeout env r=some c') : Removed c c' r := by
  rw [evictTimeout] at h
  split_ifs at h
  cases h
  exact reqErr_removed _ _

lemma evictRetries_removed (h : c.evictRetries env r=some c') : Removed c c' r := by
  rw [evictRetries] at h
  split_ifs at h
  cases h
  exact reqErr_removed _ _

lemma evictStaleReq_removed (h : c.evictStaleReq env r=some c') : Removed c c' r := by
  rw [evictStaleReq,or_eq_some_iff] at h
  obtain h | ⟨-,h⟩ := h
  · exact evictDropped_removed h
  · exact evictTimeout_removed h

lemma evict_removed (h : c.evict env r=some c') : Removed c c' r := by
  rw [evict,or_eq_some_iff,or_eq_some_iff] at h
  obtain h | ⟨-,h | ⟨-,h⟩⟩ := h
  · exact evictDropped_removed h
  · exact evictTimeout_removed h
  · exact evictRetries_removed h

/-- What `tfw_http_req_fwd_send` does, by its return code. -/
def SendSpec (c : SrvConn) (r : Req) (c' : SrvConn) : Rc → Prop
  | .ok => Kept c c' ∧ Sent c c' [r]
  | .ebusy => Kept c c' ∧ Sent c c' []
  | .ebadf => Kept c c' ∧ Sent c c' [] ∧ c'.ebadf=true
  | .other => Removed c c' r

lemma fwdSend_spec {rc : Rc} (h : c.fwdSend env r=(rc,c')) : SendSpec c r c' rc := by
  rw [fwdSend] at h
  split_ifs at h with hu
  · cases h
    exact ⟨⟨rfl,rfl,rfl⟩,by constructor <;> simp,rfl⟩
  · cases hs : env.send r with
    | ok =>
      simp only [hs] at h
      cases h
      exact ⟨⟨rfl,rfl,rfl⟩,by constructor <;> simp⟩
    | ebadf =>
      simp only [hs] at h
      cases h
      exact ⟨⟨rfl,rfl,rfl⟩,by constructor <;> simp,rfl⟩
    | ebusy =>
      simp only [hs] at h
      cases h
      exact ⟨⟨rfl,rfl,rfl⟩,by constructor <;> simp⟩
    | other =>
      simp only [hs] at h
      cases h
      have h := sendError_removed {c with unsched:=r.upgrade || c.unsched} r
      have hf : Sent c {c with unsched:=r.upgrade || c.unsched} [] := by constructor <;> simp
      exact ⟨h.q,h.last,h.curr,hf.trans h.sent⟩

/-- What `tfw_http_req_fwd_single` does, by its return code. -/
def SingleSpec (c : SrvConn) (r : Req) (c' : SrvConn) : Rc → Prop
  | .ok => c'.q=c.q ∧ Sent c c' [r] ∧ c'.lastMsgSent=some r ∧ c'.currMsgSent=some r
  | .other => Removed c c' r
  | _ => Kept c c' ∧ Sent c c' []

lemma fwdSingle_spec {rc : Rc} (h : c.fwdSingle env r=(rc,c')) : SingleSpec c r c' rc := by
  rw [fwdSingle] at h
  cases he : c.evictStaleReq env r with
  | some d =>
    simp only [he] at h
    cases h
    exact evictStaleReq_removed he
  | none =>
    cases hs : c.fwdSend env r with
    | mk rc' d =>
      have hsp := fwdSend_spec hs
      simp only [he,hs] at h
      cases rc' with
      | ok =>
        cases h
        exact ⟨hsp.1.q,hsp.2.trans (by constructor <;> simp),rfl,rfl⟩
      | ebusy =>
        cases h
        exact hsp
      | ebadf =>
        cases h
        exact ⟨hsp.1,hsp.2.1⟩
      | other =>
        cases h
        exact hsp

/-- What forwarding of unsent requests did. -/
structure Forwarded (nip : Req → Bool) (c : SrvConn) (P U : List Req) (res : Rc×SrvConn)
    (new rest : List Req) : Prop where
  books : Books nip res.2.q
  layout : Layout res.2 (P++new) [] rest
  sent : Sent c res.2 new
  sublist : (new++rest).Sublist U
  /-- Forwarding fails only when the connection has no request to wait for. -/
  rc : res.1=.ok ∨ (res.1=.ebusy ∧ P++new=[])
  busy : res.1=.ebusy → rest <:+ U ∧ rest≠[]
  /-- Nothing is sent after a non-idempotent request. -/
  idempotent : ∀r∈new.dropLast,nip r=false

variable {P U rs O : List Req}
lemma fwdUnsentLoop_spec (env : Env) (hb : Books nip c.q) (hl : Layout c P [] U) :
    ∃new rest,Forwarded nip c P U (c.fwdUnsentLoop nip env U) new rest := by
  induction U generalizing c P with
  | nil =>
    rw [fwdUnsentLoop]
    exact ⟨[],[],hb,by simpa using hl,.refl c,by simp,.inl rfl,by simp,by simp⟩
  | cons r U ih =>
    have hqu : c.q.fwdQueue=P++r::U := by simpa using hl.queue
    rw [fwdUnsentLoop]
    cases hr : c.fwdSingle env r with
    | mk rc c' =>
      have hs := fwdSingle_spec hr
      cases rc with
      | ebusy =>
        obtain ⟨hk,hse⟩ := hs
        refine ⟨[],r::U,hk.q ▸ hb,by simpa using hl.kept hk,hse,by simp,?_,by simp,by simp⟩
        simp only [hk.last,hl.last,append_nil,getLast?_eq_none_iff]
        by_cases hP : P=[]
        · exact .inr ⟨if_pos hP,hP⟩
        · exact .inl (if_neg hP)
      | ebadf =>
        obtain ⟨hk,hse⟩ := hs
        exact ⟨[],r::U,hk.q ▸ hb,by simpa using hl.kept hk,hse,by simp,.inl rfl,by simp,by simp⟩
      | other =>
        obtain ⟨hb',hq'⟩ := hs.cut hb hqu
        have hl' : Layout c' P [] U := ⟨by simpa using hq',hs.curr.trans hl.curr,hs.last.trans hl.last⟩
        obtain ⟨new,rest,h⟩ := ih hb' hl'
        refine ⟨new,rest,h.books,h.layout,hs.sent.trans h.sent,h.sublist.cons r,h.rc,?_,h.idempotent⟩
        intro hbu
        exact (h.busy hbu).imp_left fun hsu => hsu.trans (suffix_cons r U)
      | ok =>
        obtain ⟨hq,hse,hla,hc⟩ := hs
        dsimp only
        split_ifs with hn
        · refine ⟨[r],U,hq ▸ hb,?_,hse,by simp,.inl rfl,by simp,by simp⟩
          exact ⟨by simp [hq,hqu],by simp [hc],by simp [hla]⟩
        · rw [Bool.not_eq_true] at hn
          have hb' : Books nip (c'.q.nipDelist r) := (hq ▸ hb).nipDelist hn
          have hl' : Layout {c' with q:=c'.q.nipDelist r} (P++[r]) [] U := ⟨by simp [hq,hqu],by simp [hc],by simp [hla]⟩
          obtain ⟨new,rest,h⟩ := ih (c := {c' with q:=c'.q.nipDelist r}) hb' hl'
          refine ⟨r::new,rest,h.books,by simpa using h.layout,?_,by simpa using h.sublist,by simpa using h.rc,?_,?_⟩
          · have hf : Sent c' {c' with q:=c'.q.nipDelist r} [] := by constructor <;> simp
            exact (hse.trans hf).trans h.sent
          · intro hbu
            exact (h.busy hbu).imp_left fun hsu => hsu.trans (suffix_cons r U)
          · intro a ha
            cases new with
            | nil => cases ha
            | cons b new =>
              rw [dropLast_cons_cons,mem_cons] at ha
              obtain rfl | ha := ha
              · exact hn
              · exact h.idempotent a ha

lemma not_drained (hb : Books nip c.q) (hl : Layout c P [] U) (hU : U≠[]) : c.drained=false := by
  have hq : c.q.fwdQueue=P++U := by simpa using hl.queue
  have hla : c.lastMsgSent=P.getLast? := by simpa using hl.last
  rw [drained,Bool.or_eq_false_iff,hq,hla]
  refine ⟨by simp [hU],?_⟩
  cases hP : P.getLast? with
  | none => rfl
  | some x =>
    have hne : (P++U).getLast? ≠ some x := by
      rw [getLast?_append_of_ne_nil _ hU]
      intro hx
      have hnd := hq ▸ hb.nodup
      rw [nodup_append] at hnd
      exact hnd.2.2 x (mem_of_getLast? hP) x (mem_of_getLast? hx) rfl
    rw [isSome_some,Bool.true_and,beq_eq_false_iff_ne]
    exact hne.symm

lemma fwdUnsent_spec (env : Env) (hb : Books nip c.q) (hl : Layout c P [] U) (hU : U≠[]) :
    ∃res new rest,c.fwdUnsent nip env=.ok res ∧ Forwarded nip c P U res new rest := by
  have hla : c.lastMsgSent=P.getLast? := by simpa using hl.last
  have ha : after c.lastMsgSent c.q.fwdQueue=U := by
    have hq : c.q.fwdQueue=P++U := by simpa using hl.queue
    rw [hla,hq,after_getLast? (hq ▸ hb.nodup)]
  obtain ⟨new,rest,h⟩ := fwdUnsentLoop_spec env hb hl
  refine ⟨_,new,rest,?_,h⟩
  rw [fwdUnsent,if_neg (by simp [hl.curr,hla]),not_drained hb hl hU,ha]
  rfl

/-- Where the loop of `tfw_http_conn_resend` stops, by its return code. -/
def ResentRc (c c' : SrvConn) (first : Bool) (sent new rest rs : List Req) : Rc → Prop
  | .ok => c'.lastMsgSent=c.lastMsgSent ∧ (rest=[] ∧ (first=true → new=[]) ∨ first=true ∧ ∃r,new=[r] ∧ r::rest <:+ rs)
  | .ebusy => c'.lastMsgSent=(sent++new).getLast? ∧ (first=true → new=[])
  | .ebadf => c'.lastMsgSent=c.lastMsgSent ∧ c'.ebadf=true ∧ rest≠[] ∧ rest <:+ rs ∧ (first=true → new=[])
  | .other => False

/-- What the loop of `tfw_http_conn_resend` did. -/
structure Resent (nip : Req → Bool) (c : SrvConn) (first : Bool) (S rs U : List Req)
    (res : Rc×Option Req×SrvConn) (new rest : List Req) : Prop where
  books : Books nip res.2.2.q
  queue : res.2.2.q.fwdQueue=S++new++rest++U
  resent : res.2.1=(S++new).getLast?
  curr : res.2.2.currMsgSent=(S++new).getLast?
  sent : Sent c res.2.2 new
  sublist : (new++rest).Sublist rs
  rc : ResentRc c res.2.2 first S new rest rs res.1

lemma Resent.skip {first : Bool} {S new rest : List Req} {res : Rc×Option Req×SrvConn}
    (h : Resent nip c' first S rs U res new rest) (hr : Removed c c' r) :
    Resent nip c first S (r::rs) U res new rest := by
  refine ⟨h.books,h.queue,h.resent,h.curr,hr.sent.trans h.sent,h.sublist.cons r,?_⟩
  have hrc := h.rc
  revert hrc
  cases res.1 with
  | ok =>
    rintro ⟨hl,hst⟩
    refine ⟨hl.trans hr.last,hst.imp_right ?_⟩
    rintro ⟨hf,a,hn,hs⟩
    exact ⟨hf,a,hn,hs.trans (suffix_cons r rs)⟩
  | ebusy => exact id
  | ebadf =>
    rintro ⟨hl,hb,hne,hs,hf⟩
    exact ⟨hl.trans hr.last,hb,hne,hs.trans (suffix_cons r rs),hf⟩
  | other => exact id

lemma resendLoop_spec {S : List Req} (env : Env) (first : Bool) (hb : Books nip c.q)
    (hq : c.q.fwdQueue=S++rs++U) (hc : c.currMsgSent=S.getLast?) : ∃new rest,
      Resent nip c first S rs U (c.resendLoop env first S.getLast? rs) new rest := by
  induction rs generalizing c S with
  | nil =>
    rw [resendLoop]
    refine ⟨[],[],hb,by simpa using hq,by simp,by simpa using hc,.refl c,by simp,?_⟩
    exact ⟨rfl,.inl ⟨rfl,fun _ => rfl⟩⟩
  | cons r rs ih =>
    have hqu' : c.q.fwdQueue=S++r::(rs++U) := by simpa using hq
    -- A request that is evicted or fails is skipped.
    have hsk : ∀c',Removed c c' r → ∃new rest,
        Resent nip c first S (r::rs) U (resendLoop env first c' S.getLast? rs) new rest := by
      intro c' hr
      obtain ⟨hb',hq'⟩ := hr.cut hb hqu'
      obtain ⟨new,rest,h⟩ := ih hb' (by simpa using hq') (hr.curr.trans hc)
      exact ⟨new,rest,h.skip hr⟩
    rw [resendLoop]
    cases he : c.evict env r with
    | some c' => exact hsk c' (evict_removed he)
    | none =>
      cases hres : c.fwdSend env r with
      | mk rc c' =>
        have hs := fwdSend_spec hres
        cases rc with
        | ebadf =>
          obtain ⟨hk,hse,hba⟩ := hs
          refine ⟨[],r::rs,hk.q ▸ hb,by simp [hk.q,hqu'],by simp,by simp [hk.curr,hc],hse,by simp,?_⟩
          exact ⟨hk.last,hba,by simp,suffix_refl _,fun _ => rfl⟩
        | ebusy =>
          obtain ⟨hk,hse⟩ := hs
          refine ⟨[],r::rs,hk.q ▸ hb,by simp [hk.q,hqu'],by simp,
            by simp [hk.curr,hc],hse.trans (by constructor <;> simp),by simp,?_⟩
          exact ⟨by simp,fun _ => rfl⟩
        | other => exact hsk c' hs
        | ok =>
          obtain ⟨hk,hse⟩ := hs
          have hfr : Sent c {c' with currMsgSent:=some r} [r] := hse.trans (by constructor <;> simp)
          dsimp only
          split_ifs with hf
          · refine ⟨[r],rs,hk.q ▸ hb,by simp [hk.q,hqu'],by simp,by simp,hfr,by simp,?_⟩
            exact ⟨hk.last,.inr ⟨hf,r,rfl,suffix_refl _⟩⟩
          · obtain ⟨new,rest,h⟩ := ih (c := {c' with currMsgSent:=some r}) (S := S++[r])
              (hk.q ▸ hb) (by simp [hk.q,hqu']) (by simp)
            rw [getLast?_concat] at h
            refine ⟨r::new,rest,h.books,by simpa using h.queue,by simpa using h.resent,
              by simpa using h.curr,hfr.trans h.sent,by simpa using h.sublist,?_⟩
            have hrc := h.rc
            revert hrc
            cases (resendLoop env first {c' with currMsgSent:=some r} (some r) rs).1 with
            | ok =>
              rintro ⟨hl,⟨hre,-⟩ | ⟨hf',-⟩⟩
              · exact ⟨hl.trans hk.last,.inl ⟨hre,fun hf' => absurd hf' hf⟩⟩
              · exact absurd hf' hf
            | ebusy =>
              rintro ⟨hl,-⟩
              exact ⟨by simpa using hl,fun hf' => absurd hf' hf⟩
            | ebadf =>
              rintro ⟨hl,hba,hne,hsu,-⟩
              exact ⟨hl.trans hk.last,hba,hne,hsu.trans (suffix_cons r rs),fun hf' => absurd hf' hf⟩
            | other => exact id

/-- What `tfw_http_conn_resend` did. -/
structure Resend (nip : Req → Bool) (c : SrvConn) (first : Bool) (O U : List Req)
    (res : Rc×SrvConn) (new O' U' : List Req) : Prop where
  books : Books nip res.2.q
  layout : Layout res.2 new O' U'
  sent : Sent c res.2 new
  sublist : (new++O'++U').Sublist (O++U)
  mem : ∀r∈new++O',r∈O
  one : first=true → new.length≤1
  notOther : res.1 ≠ .other
  done : res.1=.ok → first=false ∨ new=[] → O'=[]
  busy : res.1=.ebusy → O'=[] ∧ (first=true → new=[])
  broken : res.1=.ebadf → res.2.ebadf=true ∧ (first=true → new=[])

lemma resendSent_spec (env : Env) (first : Bool) (hb : Books nip c.q) (hl : Layout c [] O U) :
    ∃res new O' U',c.resendSent env first=.ok res ∧ Resend nip c first O U res new O' U' := by
  have hla : c.lastMsgSent=O.getLast? := by simpa using hl.last
  have hq : c.q.fwdQueue=O++U := by simpa using hl.queue
  have hc : c.currMsgSent=none := hl.curr
  rw [resendSent]
  cases hO : O.getLast? with
  | none =>
    rw [getLast?_eq_none_iff] at hO
    subst hO
    refine ⟨(.ok,c),[],[],U,by rw [hla]; rfl,hb,hl,.refl c,by simp,by simp,by simp,by simp,by simp,by simp,by simp⟩
  | some l =>
    have hl_mem : l∈c.q.fwdQueue := by
      rw [hq]
      exact mem_append_left _ (mem_of_getLast? hO)
    have hu : upTo l c.q.fwdQueue=O := by rw [hq,upTo_getLast? (hq ▸ hb.nodup) hO]
    have hst : c.q.fwdQueue=[]++O++U := by simpa using hq
    obtain ⟨new,rest,h⟩ := resendLoop_spec env first hb hst hc
    have hm : ∀r∈new++rest,r∈O := fun r hr => h.sublist.subset hr
    have hn : ∀r∈new,r∈O := fun r hr => hm r (mem_append_left _ hr)
    have hs : (new++rest++U).Sublist (O++U) := List.Sublist.append h.sublist (.refl U)
    rw [hla,hO]
    simp only [hl_mem,not_true_eq_false,if_false,hc,isSome_none,Bool.false_and,Bool.false_eq_true,hu]
    cases hres : c.resendLoop env first none O with
    | mk rc p =>
      obtain ⟨resent,c'⟩ := p
      rw [getLast?_nil,hres] at h
      obtain ⟨hb',hq',hrs,hc',hse,-,hrc⟩ := h
      rw [nil_append] at hrs hc' hq'
      dsimp only at hb' hq' hrs hc' hse hrc
      cases rc with
      | ok =>
        obtain ⟨hl',⟨hre,ho⟩ | ⟨hf,r,hr,hsu⟩⟩ := hrc
        · -- Every request was tried, and both pointers go to the last one sent.
          have hco : (!first || resent.isNone)=true := by
            cases first with
            | false => rfl
            | true => simp [hrs,ho rfl]
          subst hre
          rw [append_nil] at hq' hs
          refine ⟨(.ok,{c' with currMsgSent:=resent, lastMsgSent:=resent}),new,[],U,
            by simp only [hco,if_true],hb',?_,?_,by simpa using hs,by simpa using hn,?_,
            by simp,by simp,by simp,by simp⟩
          · exact ⟨by simpa using hq',hrs,by simpa using hrs⟩
          · have hfr : Sent c' {c' with currMsgSent:=resent, lastMsgSent:=resent} [] := by constructor <;> simp
            simpa using hse.trans hfr
          · intro hf
            simp [ho hf]
        · -- The first request was sent, and the pointer to the last one stays.
          subst hr
          refine ⟨(.ok,c'),[r],rest,U,by simp [hf,hrs],hb',?_,hse,hs,hm,by simp,by simp,by simp [hf],by simp,by simp⟩
          refine ⟨hq',hc',?_⟩
          rw [hl',hla,singleton_append,getLast?_suffix hsu (by simp)]
      | ebusy =>
        obtain ⟨hl',ho⟩ := hrc
        refine ⟨(.ebusy,c'),new,[],rest++U,rfl,hb',?_,hse,by simpa using hs,?_,?_,
          by simp,by simp,fun _ => ⟨rfl,ho⟩,by simp⟩
        · exact ⟨by simpa using hq',hc',by simpa using hl'⟩
        · intro r hr
          exact hn r (by simpa using hr)
        · intro hf
          simp [ho hf]
      | ebadf =>
        obtain ⟨hl',hba,hne,hsu,ho⟩ := hrc
        refine ⟨(.ebadf,c'),new,rest,U,rfl,hb',?_,hse,hs,hm,?_,by simp,by simp,by simp,fun _ => ⟨hba,ho⟩⟩
        · refine ⟨hq',hc',?_⟩
          rw [hl',hla,getLast?_append_of_ne_nil _ hne,getLast?_suffix hsu hne]
        · intro hf
          simp [ho hf]
      | other => exact hrc.elim

lemma evictAll_spec {A B : List Req} (env : Env) (hb : Books nip c.q) (hqu : c.q.fwdQueue=A++rs++B) :
    ∃kept : List Req,kept.Sublist rs ∧ Books nip (c.evictAll env rs).q ∧ (c.evictAll env rs).q.fwdQueue=A++kept++B ∧
      (c.evictAll env rs).lastMsgSent=c.lastMsgSent ∧
      (c.evictAll env rs).currMsgSent=c.currMsgSent ∧ Sent c (c.evictAll env rs) [] := by
  induction rs generalizing c A with
  | nil => exact ⟨[],by simp,hb,hqu,rfl,rfl,.refl c⟩
  | cons r rs ih =>
    have hqu' : c.q.fwdQueue=A++r::(rs++B) := by simpa using hqu
    rw [evictAll]
    cases he : c.evictStaleReq env r with
    | some c' =>
      have hr := evictStaleReq_removed he
      obtain ⟨hb',hq'⟩ := hr.cut hb hqu'
      obtain ⟨kept,hk,hbo,hq,hl,hc,hs⟩ := ih hb' (by simpa using hq')
      exact ⟨kept,hk.cons r,hbo,hq,hl.trans hr.last,hc.trans hr.curr,hr.sent.trans hs⟩
    | none =>
      obtain ⟨kept,hk,hbo,hq,hre⟩ := ih (A := A++[r]) hb (by simp [hqu'])
      exact ⟨r::kept,hk.cons_cons r,hbo,by simpa using hq,hre⟩

/-- What `tfw_http_conn_shrink_fwdq` did. -/
structure Shrunk (nip : Req → Bool) (c c' : SrvConn) (O U O' U' : List Req) : Prop where
  books : Books nip c'.q
  layout : Layout c' [] O' U'
  sent : Sent c c' []
  sublist : O'.Sublist O
  unsent : U'.Sublist U
  last : c'.lastMsgSent=c.lastMsgSent ∨ ∀l,c.lastMsgSent=some l → l∉O'

lemma shrinkSent_spec (env : Env) (hb : Books nip c.q) (hl : Layout c [] O U) :
    ∃O',Shrunk nip c (c.shrinkSent env) O U O' U := by
  have hla : c.lastMsgSent=O.getLast? := by simpa using hl.last
  rw [shrinkSent]
  cases hO : O.getLast? with
  | none =>
    rw [hla,hO]
    exact ⟨O,hb,hl,.refl c,.refl O,.refl U,.inl rfl⟩
  | some l =>
    obtain ⟨P,rfl⟩ := getLast?_eq_some_iff.1 hO
    have hq : c.q.fwdQueue=P++l::U := by simpa using hl.queue
    have hP : l∉P := (nodup_cut (hq ▸ hb.nodup)).1
    rw [hla,hO]
    dsimp only
    rw [hq,before_append hP]
    obtain ⟨kept,hk,hb',hq',hl',hc',hs⟩ := evictAll_spec (A := []) (B := l::U) env hb (by simpa using hq)
    have hl_kept : l∉kept := fun hm => hP (hk.subset hm)
    rw [nil_append] at hq'
    generalize c.evictAll env P=d at hb' hq' hl' hc' hs
    cases he : d.evictStaleReq env l with
    | none =>
      refine ⟨kept++[l],hb',?_,hs,hk.append (.refl _),.refl U,.inl hl'⟩
      exact ⟨by simpa using hq',hc'.trans hl.curr,by simp [hl',hla]⟩
    | some d' =>
      have hr := evictStaleReq_removed he
      obtain ⟨hb'',hq''⟩ := hr.cut hb' hq'
      refine ⟨kept,hb'',?_,?_,hk.trans (sublist_append_left P [l]),.refl U,.inr ?_⟩
      · refine ⟨by simpa using hq'',hr.curr.trans (hc'.trans hl.curr),?_⟩
        rw [hq',ListCursor.prev,before_append hl_kept,nil_append]
      · exact (hs.trans hr.sent).trans (by constructor <;> simp)
      · intro a ha
        rw [hla,hO] at ha
        cases ha
        exact hl_kept

lemma shrinkFwdq_spec (env : Env) (hb : Books nip c.q) (hl : Layout c [] O U) :
    ∃c' O' U',c.shrinkFwdq env=.ok c' ∧ Shrunk nip c c' O U O' U' := by
  rw [shrinkFwdq]
  by_cases he : c.q.fwdQueue=[]
  · rw [if_pos he]
    exact ⟨c,O,U,rfl,hb,hl,.refl c,.refl O,.refl U,.inl rfl⟩
  · rw [if_neg he,if_neg (by simp [hl.curr])]
    obtain ⟨O',h⟩ := shrinkSent_spec env hb hl
    have hla : (c.shrinkSent env).lastMsgSent=O'.getLast? := by simpa using h.layout.last
    have hq : (c.shrinkSent env).q.fwdQueue=O'++U := by simpa using h.layout.queue
    have ha : after (c.shrinkSent env).lastMsgSent (c.shrinkSent env).q.fwdQueue=U := by
      rw [hla,hq,after_getLast? (hq ▸ h.books.nodup)]
    dsimp only
    rw [ha]
    obtain ⟨kept,hk,hb',hq',hl',hc',hs⟩ := evictAll_spec (A := O') (B := []) env h.books (by simpa using hq)
    refine ⟨_,O',kept,rfl,hb',?_,h.sent.trans hs,h.sublist,hk,?_⟩
    · exact ⟨by simpa using hq',hc'.trans h.layout.curr,hl'.trans h.layout.last⟩
    · rw [hl']
      exact h.last
end SrvConn
end VetWaf.Http.FwdQueue
