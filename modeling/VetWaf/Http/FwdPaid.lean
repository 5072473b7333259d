import VetWaf.Http.FwdRetries
import VetWaf.Lib.Outcome

namespace VetWaf.Http.FwdQueue
open SrvConn List Outcome ListCursor Option Bool
namespace SrvConn
variable {nip : Req → Bool} {env : Env} {c c' : SrvConn} {S O U : List Req} {L : Ledger} {retries : Req → Nat}

/-- The counters after the requests `T` were counted. -/
def counting (retries : Req → Nat) (T : List Req) : Req → Nat := fun r => retries r+T.count r

lemma counting_nil : counting retries []=retries := rfl

lemma Tries.paid {d : SrvConn} {T new : List Req} (ht : Tries env c T new c')
    (hp : Paid L retries c) (hex : ∀r,env.exhausted r=decide (L.limit≤retries r))
    (hh : d.handed=c'.handed) (hpe : d.holding.Perm c'.holding) (hu : ∀r∈d.unsent,r∉new ∧ (r∈c.unsent ∨ r∈T)) :
    Paid L (counting retries T) d := by
  have hq : ∀r∈T,r∈c.q.fwdQueue := fun r hr => ht.sublist.subset hr
  refine hp.counted (hh.trans ht.handed) ?_ ?_ ?_ ht.sent ?_ ?_ hu
  · refine hpe.subperm.trans (List.Sublist.subperm ?_)
    rw [holding,holding,ht.reschq]
    exact ht.queue.append (.refl _)
  · exact (nodup_append.1 hp.nodup).1.sublist ht.sublist
  · exact fun r hr => mem_append_left _ (hq r hr)
  · exact fun r hr => hpe.mem_iff.2 (mem_append_left _ (ht.left r hr))
  · intro r hrT hr
    have hrq : r∈c'.q.fwdQueue := by
      refine (mem_append.1 (hpe.mem_iff.1 hr)).resolve_right fun hrr => ?_
      exact (nodup_append.1 hp.nodup).2.2 r (hq r hrT) r (ht.reschq ▸ hrr) rfl
    have hf := ht.spared r hrT hrq
    rw [hex,decide_eq_false_iff_not] at hf
    exact Nat.lt_of_not_le hf

variable {res : Rc×SrvConn} {env' : Env} {r : Req} {ps : List Req}
lemma Forwarded.paid {P new rest : List Req}
    (hf : Forwarded nip c P U res new rest) (hb : Books nip c.q) (hl : Layout c P [] U)
    (hp : Paid L retries c) : Paid L retries res.2 := by
  have hq : c.q.fwdQueue=P++U := by simpa using hl.queue
  have hq' : res.2.q.fwdQueue=P++(new++rest) := by simpa using hf.layout.queue
  refine hp.forward hf.sent.handed (List.Sublist.subperm ?_) ?_
  · rw [holding,holding,hf.sent.reschq,hq,hq']
    exact (hf.sublist.append_left P).append (.refl _)
  · rw [hl.unsent hb,hf.layout.unsent hf.books]
    exact hf.sublist

lemma fwdUnsent_paid {P : List Req} (hb : Books nip c.q)
    (hl : Layout c P [] U) (hp : Paid L retries c) (h : c.fwdUnsent nip env=.ok res) : Paid L retries res.2 := by
  have hU : U≠[] := by
    rintro rfl
    have hq : c.q.fwdQueue=P := by simpa using hl.queue
    have hla : c.lastMsgSent=P.getLast? := by simpa using hl.last
    have hd : c.drained=true := by
      rw [drained,hq,hla]
      cases P <;> simp [getLast?_cons]
    rw [fwdUnsent,hd,if_pos rfl] at h
    split_ifs at h
  obtain ⟨res',new,rest,hr,hf⟩ := fwdUnsent_spec env hb hl hU
  obtain rfl : res'=res := Except.ok.inj (hr.symm.trans h)
  exact hf.paid hb hl hp

lemma fwdNeeded_paid (hi : Inv nip c S [] U) (hp : Paid L retries c)
    (h : c.fwdNeeded nip env=.ok res) : Paid L retries res.2 := by
  rw [fwdNeeded] at h
  split_ifs at h
  · exact fwdUnsent_paid hi.books hi.layout hp h
  · cases h
    exact hp

lemma fwdqReset_holding (c : SrvConn) : c.fwdqReset.holding.Perm c.holding := by
  show (c.reschq++c.q.fwdQueue).Perm (c.q.fwdQueue++c.reschq)
  exact perm_append_comm

lemma fwdqReset_paid (hp : Paid L retries c) : Paid L retries c.fwdqReset :=
  hp.shrink rfl c.fwdqReset_holding.subperm (nil_sublist _)

lemma clearRestricted_paid (hp : Paid L retries c) : Paid L retries c.clearRestricted := hp.congr rfl rfl rfl rfl

lemma resetOnError_paid (rc : Rc) (hp : Paid L retries c) : Paid L retries (c.resetOnError rc) := by
  rw [resetOnError]
  split_ifs
  · exact hp
  · exact fwdqReset_paid (clearRestricted_paid hp)

lemma reenableIfDone_paid {done : Bool} (hp : Paid L retries c)
    (h : c.reenableIfDone=.ok (done,c')) : Paid L retries c' := by
  rw [reenableIfDone] at h
  split_ifs at h
  · cases h
    exact hp
  · cases h
    exact clearRestricted_paid hp

lemma endRepair_paid {rc : Rc} (hp : Paid L retries c) (h : c.endRepair rc=.ok res) : Paid L retries res.2 := by
  rw [endRepair] at h
  obtain ⟨⟨done,d⟩,hd,h⟩ := bind_eq_ok.1 h
  cases h
  exact reenableIfDone_paid hp hd

lemma fwdNeeded_endRepair_paid (hi : Inv nip c S [] U) (hp : Paid L retries c)
    (h : (do let (rc,c) ← c.fwdNeeded nip env; c.endRepair rc)=.ok res) :
    Paid L retries res.2 := by
  obtain ⟨⟨rc,d⟩,hd,h⟩ := bind_eq_ok.1 h
  exact endRepair_paid (fwdNeeded_paid hi hp hd) h

lemma resendSent_paid {first : Bool} (hi : Inv nip c [] O U)
    (hp : Paid L retries c) (hex : ∀r,env.exhausted r=decide (L.limit≤retries r))
    (hb : res.1=.ebusy → ∀r∈O,env.send r=.ebusy → c.lastMsgSent=some r) (h : c.resendSent env first=.ok res) :
    Paid L (counting retries (c.sentTried env first)) res.2 := by
  obtain ⟨new,ht,hu⟩ := resendSent_tries hi.books hi.layout h
  exact ht.paid hp hex rfl (.refl _) (hu hb)

lemma fwdRepair_paid (hi : Inv nip c S O U) (hl : c.live=true) (hS : c.qforwd=false → S=[]) (hp : Paid L retries c)
    (hex : ∀r,env.exhausted r=decide (L.limit≤retries r))
    (hbu : c.qforwd=false → ∀r∈O,env.send r=.ebusy → c.lastMsgSent=some r) (h : c.fwdRepair nip env env'=.ok res) :
    Paid L (counting retries (if c.qforwd then [] else c.sentTried env false)) res.2 := by
  rw [fwdRepair] at h
  split_ifs at h with hrs
  rw [not_eq_true',not_eq_false] at hrs
  obtain ⟨⟨done,d⟩,hd,h⟩ := bind_eq_ok.1 h
  obtain ⟨hdo,rfl,rfl,rfl⟩ | hdo := reenableIfDone_cases hi
  · rw [hdo] at hd
    cases hd
    cases h
    have hla : c.lastMsgSent=none := hi.layout.last
    have hT : c.sentTried env false=[] := by rw [sentTried,hla]
    rw [hT,ite_self,counting_nil]
    exact clearRestricted_paid hp
  · rw [hdo] at hd
    cases hd
    dsimp only at h
    rw [if_neg Bool.false_ne_true] at h
    cases hq : c.qforwd with
    | true =>
      obtain rfl := hi.direct hl fun _ => hq
      rw [hq,if_pos rfl] at h
      rw [if_pos rfl,counting_nil]
      exact fwdNeeded_endRepair_paid hi hp h
    | false =>
      obtain rfl := hS hq
      rw [hq,if_neg Bool.false_ne_true] at h
      rw [if_neg Bool.false_ne_true]
      obtain ⟨⟨rc,d⟩,hd,h⟩ := bind_eq_ok.1 h
      have hpa := resendSent_paid hi hp hex (fun _ => hbu hq) hd
      dsimp only at h
      split_ifs at h with hb
      · cases h
        exact hpa
      · obtain ⟨res',new,O',U',hre,hr⟩ := resendSent_spec env false hi.books hi.layout
        obtain rfl : res'=(rc,d) := Except.ok.inj (hre.symm.trans hd)
        have hO' : O'=[] := by
          cases hrc : rc with
          | ok => exact hr.done hrc (.inl rfl)
          | ebusy => exact (hr.busy hrc).1
          | ebadf => exact absurd hrc hb
          | other => exact absurd hrc hr.notOther
        have hld := hr.leads_qforwd hi hl (fun ho => ho.repair hl hrs hq) hO'
        exact fwdNeeded_endRepair_paid hld.inv (hpa.congr rfl rfl rfl rfl) h

lemma unlinkAnswered_paid (hi : Inv nip c S O U) (hli : c.live=true) (hpa : c.paired=r::ps) (hp : Paid L retries c) :
    Paid L retries (c.unlinkAnswered nip r) := by
  obtain ⟨S',rfl,hl⟩ := unlinkAnswered_leads hi hli hpa
  refine hp.shrink rfl (List.Sublist.subperm ?_) ?_
  · show (((c.q.delist r).nipAdjust nip).fwdQueue++c.reschq).Sublist _
    rw [FwdQ.nipAdjust_fwdQueue,FwdQ.delist_fwdQueue]
    exact (erase_sublist).append (.refl _)
  · rw [hl.inv.layout.unsent hl.inv.books,hi.layout.unsent hi.books]

lemma popreq_paid {fwd : Bool} (hi : Inv nip c S O U) (hl : c.live=true) (hpa : c.paired=r::ps) (hp : Paid L retries c)
    (hex : ∀r,env.exhausted r=decide (L.limit≤retries r)) (hb : c.busyAtLast (.popreq fwd env env')=true)
    (h : c.popreq nip fwd env env' r=.ok c') :
    Paid L (counting retries (c.tried false nip (.popreq fwd env env'))) c' := by
  obtain ⟨S',rfl,hld⟩ := unlinkAnswered_leads hi hl hpa
  have hp' := unlinkAnswered_paid hi hl hpa hp
  rw [tried,hpa]
  dsimp only
  rw [popreq] at h
  cases fwd with
  | false =>
    cases h
    exact hp'
  | true =>
    rw [Bool.not_true,if_neg Bool.false_ne_true] at h
    cases hr : c.resend with
    | false =>
      have hmo : c.resend=true → c.qforwd=true := fun ht => absurd (hr.symm.trans ht) (by decide)
      obtain rfl := hi.direct hl hmo
      rw [show (c.unlinkAnswered nip r).resend=false from hr] at h
      obtain ⟨⟨rc,d⟩,hd,h⟩ := bind_eq_ok.1 h
      cases h
      exact resetOnError_paid rc (fwdNeeded_paid hld.inv hp' hd)
    | true =>
      rw [show (c.unlinkAnswered nip r).resend=true from hr] at h
      obtain ⟨⟨rc,d⟩,hd,h⟩ := bind_eq_ok.1 h
      cases h
      have hT : (if true && true && !c.qforwd then (c.unlinkAnswered nip r).sentTried env false
          else []) =
          if c.qforwd then [] else (c.unlinkAnswered nip r).sentTried env false := by
        cases c.qforwd <;> rfl
      rw [hT]
      refine resetOnError_paid rc (fwdRepair_paid hld.inv hl ?_ hp' hex ?_ hd)
      · intro hqf
        obtain ho | ⟨-,hn⟩ := hi.probing hl hr hqf
        · rw [length_cons] at ho
          exact length_eq_zero_iff.1 (by omega)
        · rw [hpa] at hn
          cases hn
      · intro hqf a ha hs
        have hnd : (r::(S'++O++U)).Nodup := by
          have hq := hi.books.nodup
          rw [hi.layout.queue] at hq
          exact hq
        have hm : a∈S'++O++U := by simp [ha]
        have hla : c.lastMsgSent=some a := by
          rw [busyAtLast,hr,show c.qforwd=false from hqf] at hb
          have hal := all_eq_true.1 hb a (by
            rw [hi.layout.queue]
            exact mem_cons_of_mem r hm)
          simpa [hs] using hal
        have hne : a≠r := by
          rintro rfl
          exact (nodup_cons.1 hnd).1 hm
        rw [unlinkAnswered,hla,if_neg (by simpa using hne)]

lemma repairUnsent_paid (hi : Inv nip c [] [] U) (hp : Paid L retries c)
    (h : c.repairUnsent nip env=.ok res) : Paid L retries res.2 := by
  rw [repairUnsent] at h
  by_cases hq : c.q.fwdQueue=[]
  · rw [if_pos hq] at h
    exact endRepair_paid hp h
  · rw [if_neg hq] at h
    obtain ⟨⟨rc,d⟩,hd,h⟩ := bind_eq_ok.1 h
    have hl : Layout {c with qforwd:=true} [] [] U := ⟨hi.layout.queue,hi.layout.curr,hi.layout.last⟩
    have hp' : Paid L retries {c with qforwd:=true} := hp.congr rfl rfl rfl rfl
    exact endRepair_paid (fwdUnsent_paid (c := {c with qforwd:=true}) hi.books hl hp' hd) h

lemma repairSent_paid (hi : Inv nip c [] O U) (hli : c.live=true)
    (hrs : c.resend=true) (hq : c.qforwd=false) (hp : Paid L retries c)
    (hex : ∀r,env.exhausted r=decide (L.limit≤retries r)) (h : c.repairSent nip env env'=.ok c') :
    Paid L (counting retries (c.sentTried env true)) c' := by
  rw [repairSent] at h
  obtain ⟨⟨rc,d⟩,hd,h⟩ := bind_eq_ok.1 h
  obtain ⟨res,new,O',U',hre,hr⟩ := resendSent_spec env true hi.books hi.layout
  obtain rfl : res=(rc,d) := Except.ok.inj (hre.symm.trans hd)
  have hno : Once nip c O → NoNipSent nip c := fun ho => ho.repair hli hrs hq
  have hl := hr.leads hi hli hrs hq hno (.inl (hr.one rfl))
  dsimp only at h hl
  cases rc with
  | ebadf =>
    cases h
    exact resendSent_paid hi hp hex (by rintro ⟨⟩) hd
  | other => exact absurd rfl hr.notOther
  | ebusy =>
    cases h
    obtain ⟨new',ht,-⟩ := resendSent_tries hi.books hi.layout hd
    exact ht.paid hp hex rfl (fwdqReset_holding _) fun r hr => by cases hr
  | ok =>
    have hpa := resendSent_paid hi hp hex (by rintro ⟨⟩) hd
    rw [if_neg (by decide)] at h
    split_ifs at h with hla
    · have hn := hr.layout.last
      rw [hla.2,eq_comm,getLast?_eq_none_iff,append_eq_nil_iff] at hn
      obtain ⟨rfl,rfl⟩ := hn
      obtain ⟨⟨rc,d'⟩,hd',h⟩ := bind_eq_ok.1 h
      cases h
      exact resetOnError_paid rc (repairUnsent_paid hl.inv hpa hd')
    · cases h
      exact resetOnError_paid .ok hpa

lemma connectComplete_paid {retryNip : Bool} (hi : Inv nip c S O U) (hde : c.live=false) (hp : Paid L retries c)
    (hex : ∀r,env.exhausted r=decide (L.limit≤retries r)) (h : c.connectComplete retryNip nip env env'=.ok c') :
    Paid L (counting retries (c.tried retryNip nip (.connectComplete env env'))) c' := by
  obtain ⟨hpai,hre,hqf⟩ := hi.dead hde
  rw [tried]
  by_cases hq : c.q.fwdQueue=[]
  · have hc : c.newSocket.connInit=c.newSocket := if_pos hq
    rw [connectComplete,hc] at h
    rw [hc]
    simp only [newSocket,hre] at h ⊢
    cases h
    exact hp.congr rfl rfl rfl rfl
  · let d : SrvConn := {c.newSocket with currMsgSent:=none, resend:=true}
    have hd : c.newSocket.connInit=d := if_neg hq
    have hco : c.connectComplete retryNip nip env env'=(do
        let c ← d.treatnip retryNip nip
        let c ← c.repairSent nip env env'
        pure {c with unsched:=false}) := by
      simp [connectComplete,connInit,newSocket,repairLive,hq,d]
    rw [hco] at h
    obtain ⟨c1,ht,h⟩ := bind_eq_ok.1 h
    obtain ⟨c2,hr,h⟩ := bind_eq_ok.1 h
    cases h
    have hl : Layout d [] (S++O) U := ⟨hi.layout.queue,rfl,hi.layout.last⟩
    have hT : d.repairTried retryNip nip env=c1.sentTried env true := by
      have hcu : {d with currMsgSent:=none}=d := rfl
      rw [repairTried,if_neg (show ¬ d.q.fwdQueue=[] from hq),hcu,ht]
    have hpd : Paid L retries d := hp.congr rfl rfl rfl rfl
    rcases treatnip_cases (c := d) retryNip hi.books hl with
      ⟨-,he⟩ | ⟨c1',O₁,-,hok,hb1,hl1,hse,hs,-⟩
    · rw [he] at ht
      cases ht
    · obtain rfl : c1'=c1 := Except.ok.inj (hok.symm.trans ht)
      have hi1 : Inv nip c1' [] O₁ U := by
        refine ⟨hb1,hl1,?_,?_,fun _ _ _ => .inl (Nat.zero_le 1),?_⟩
        · rw [hse.paired]
          exact hpai ▸ nil_prefix
        · intro _ hm
          have hte := hm hse.resend
          rw [hse.qforwd] at hte
          exact absurd (hqf.symm.trans hte) (by decide)
        · intro hd'
          rw [hse.live] at hd'
          cases hd'
      have hp1 : Paid L retries c1' := by
        refine hpd.forward hse.handed (List.Sublist.subperm ?_) ?_
        · rw [holding,holding,hse.reschq,hl1.queue,hl.queue]
          exact ((hs.append_left []).append (.refl U)).append (.refl _)
        · rw [hl1.unsent hb1,hl.unsent hi.books,nil_append]
      have hpa := repairSent_paid hi1 hse.live hse.resend (hse.qforwd.trans hqf) hp1 hex hr
      rw [hd,if_pos rfl,hT]
      exact hpa.congr rfl rfl rfl rfl

lemma cancel_paid (hi : Inv nip c S O U) (hr : r∈c.q.fwdQueue) (hrp : r∉c.paired) (hp : Paid L retries c) :
    Paid L retries {c.cancel r with pending:=ps} := by
  have hi' : Inv nip {c.cancel r with pending:=ps} _ _ _ := cancel_inv hi hr hrp
  refine hp.shrink rfl (List.Sublist.subperm ?_) ?_
  · show ((c.q.delist r).fwdQueue++c.reschq).Sublist _
    rw [FwdQ.delist_fwdQueue]
    exact erase_sublist.append (.refl _)
  · rw [hi'.layout.unsent hi'.books,hi.layout.unsent hi.books]
    exact erase_sublist

lemma shrinkFwdqResched_paid (hp : Paid L retries c) : Paid L retries c.shrinkFwdqResched := by
  obtain ⟨h,-⟩ | h := shrinkFwdqResched_cases c
  · rw [h]
    exact hp
  · rw [h]
    exact fwdqReset_paid hp

lemma release_paid (removed : Bool) (hp : Paid L retries c) : Paid L retries (c.release removed) := by
  cases removed with
  | false => exact hp.congr rfl rfl rfl rfl
  | true => exact (shrinkFwdqResched_paid hp).congr rfl rfl rfl rfl

lemma repairDead_paid {needResched : Bool} (hi : Inv nip c S O U) (hp : Paid L retries c)
    (h : c.repairDead needResched env=.ok c') : Paid L retries c' := by
  have hp' : Paid L retries {c with currMsgSent:=none} := hp.congr rfl rfl rfl rfl
  rw [repairDead] at h
  cases needResched with
  | true =>
    cases h
    exact shrinkFwdqResched_paid hp'
  | false =>
    have hl : Layout {c with currMsgSent:=none} [] (S++O) U := ⟨hi.layout.queue,rfl,hi.layout.last⟩
    obtain ⟨d,O',U',hok,hs⟩ := shrinkFwdq_spec (c := {c with currMsgSent:=none}) env hi.books hl
    obtain rfl : d=c' := Except.ok.inj (hok.symm.trans h)
    refine hp'.forward hs.sent.handed (List.Sublist.subperm ?_) ?_
    · rw [holding,holding,hs.sent.reschq,hs.layout.queue,hl.queue]
      exact ((hs.sublist.append_left []).append hs.unsent).append (.refl _)
    · rw [hs.layout.unsent hs.books,hl.unsent hi.books]
      exact hs.unsent

lemma respond_paid (hp : Paid L retries c) : Paid L retries c.respond := by
  rw [respond]
  cases c.respPair with
  | none => exact hp
  | some a => exact hp.congr rfl rfl rfl rfl

structure Enters (L : Ledger) (retries : Req → Nat) (c : SrvConn) (r : Req) : Prop where
  own : L.own r
  fresh : r∉c.holding
  limit : retries r≤L.limit
  sends : L.sends c r≤retries r

variable (hi : Inv nip c S O U)
include hi
lemma enlist_paid {q : FwdQ} (hp : Paid L retries c) (hr : Enters L retries c r) (hq : c.q.enlist r nip=.ok q) :
    Paid L retries {c with q} ∧ Inv nip {c with q} S O (U++[r]) := by
  have hrq : r∉c.q.fwdQueue := fun hm => hr.fresh (mem_append_left _ hm)
  obtain ⟨q',hq',he⟩ := enlist_entered hi hrq
  obtain rfl : q'=q := Except.ok.inj (hq'.symm.trans hq)
  have hqu : q'.fwdQueue=c.q.fwdQueue++[r] := by
    have hl := he.inv.layout.queue
    rw [← append_assoc,← hi.layout.queue] at hl
    exact hl
  refine ⟨hp.enter rfl ?_ ?_ hr.fresh hr.own hr.limit hr.sends,he.inv⟩
  · show (q'.fwdQueue++c.reschq).Perm (r::(c.q.fwdQueue++c.reschq))
    rw [hqu,append_assoc]
    exact perm_middle
  · intro a ha
    rw [he.inv.layout.unsent he.inv.books,mem_append,mem_singleton] at ha
    rwa [hi.layout.unsent hi.books]

lemma reqFwdResched_paid (hl : c.live=true) (hre : c.resend=false) (hp : Paid L retries c) (hr : Enters L retries c r)
    (h : c.reqFwdResched nip env r=.ok c') : Paid L retries c' := by
  rw [reqFwdResched] at h
  obtain ⟨q,hq,h⟩ := bind_eq_ok.1 h
  obtain ⟨hp',hi'⟩ := enlist_paid hi hp hr hq
  obtain rfl := hi.direct hl fun ht => absurd (hre.symm.trans ht) (by decide)
  dsimp only at h
  split_ifs at h
  · cases h
    exact hp'
  · obtain ⟨⟨rc,d⟩,hd,h⟩ := bind_eq_ok.1 h
    have hpd := fwdUnsent_paid hi'.books hi'.layout hp' hd
    dsimp only at h
    split_ifs at h
    · cases h
      exact hpd
    · cases h
      exact fwdqReset_paid hpd

lemma delist_paid (hr : r∈U) (hp : Paid L retries c) :
    Paid L retries {c with q:=c.q.delist r} ∧ Enters L retries {c with q:=c.q.delist r} r := by
  have hi' := (delist_leads hi hr).inv
  have hrq : r∈c.q.fwdQueue := hi.layout.queue ▸ mem_append_right _ hr
  have hrh : r∈c.holding := mem_append_left _ hrq
  have hh : holding {c with q:=c.q.delist r}=c.q.fwdQueue.erase r++c.reschq := by rw [holding,FwdQ.delist_fwdQueue]
  refine ⟨hp.shrink rfl (List.Sublist.subperm ?_) ?_,hp.own r hrh,?_,
    hp.limit r hrh,hp.unsent r (by rwa [hi.layout.unsent hi.books])⟩
  · rw [hh]
    exact erase_sublist.append (.refl _)
  · rw [hi'.layout.unsent hi'.books,hi.layout.unsent hi.books]
    exact erase_sublist
  · rw [hh,← erase_append_left _ hrq]
    exact hp.nodup.not_mem_erase

lemma reqFwd_paid {resched : Bool} {res : Bool×SrvConn}
    (hli : c.live=true) (hrs : c.resend=false) (hp : Paid L retries c)
    (hr : Enters L retries c r) (h : c.reqFwd nip env r resched=.ok res) :
    Paid L retries res.2 ∧ (res.1=false → Enters L retries res.2 r) := by
  rw [reqFwd] at h
  obtain ⟨q,hq,h⟩ := bind_eq_ok.1 h
  obtain ⟨hp',hi'⟩ := enlist_paid hi hp hr hq
  dsimp only at h
  by_cases hh : onHold nip {c with q}=true
  · rw [if_pos hh] at h
    cases resched with
    | false =>
      cases h
      exact ⟨hp',fun hf => by cases hf⟩
    | true =>
      cases h
      exact (delist_paid hi' (by simp) hp').imp_right fun he _ => he
  · rw [if_neg hh] at h
    obtain ⟨⟨rc,d⟩,hd,h⟩ := bind_eq_ok.1 h
    obtain ⟨res',new,rest,hres,hld,hrc⟩ := fwdUnsent_leads env hi' hli hrs hh (by simp)
    obtain rfl : res'=(rc,d) := Except.ok.inj (hres.symm.trans hd)
    obtain rfl := hi.direct hli fun ht => absurd (hrs.symm.trans ht) (by decide)
    have hpd := fwdUnsent_paid hi'.books hi'.layout hp' hd
    dsimp only at h
    split_ifs at h with hb
    · cases h
      obtain ⟨-,-,hs,hne⟩ := hrc.resolve_left hb.1
      have hre : r∈rest := by
        have hl := getLast?_suffix hs hne
        rw [getLast?_concat] at hl
        exact mem_of_getLast? hl
      exact (delist_paid hld.inv hre hpd).imp_right fun he _ => he
    · cases h
      exact ⟨hpd,fun hf => by cases hf⟩

end SrvConn

/-- `f` takes the place of the oracle for the retry counters. -/
def Env.setExhausted (f : Req → Bool) (env : Env) : Env := {env with exhausted:=f}

def Event.setExhausted (f : Req → Bool) : Event → Event
  | .fwdResched r env => .fwdResched r (env.setExhausted f)
  | .fwd r resched env => .fwd r resched (env.setExhausted f)
  | .popreq b env env' => .popreq b (env.setExhausted f) (env'.setExhausted f)
  | .repairDead needResched env => .repairDead needResched (env.setExhausted f)
  | .connectComplete env env' => .connectComplete (env.setExhausted f) (env'.setExhausted f)
  | .respond => .respond
  | .entail valid => .entail valid
  | .release removed => .release removed
  | .clearUnsched => .clearUnsched

lemma Paid.act {L : Ledger} {retries : Req → Nat} {retryNip : Bool} {nip : Req → Bool}
    {c c' : SrvConn} {S O U : List Req} {e : Event} (hp : Paid L retries c) (hi : Inv nip c S O U)
    (he : ∀r,e.enters=some r → SrvConn.Enters L retries c r) (hb : c.busyAtLast e=true)
    (h : c.act retryNip nip (e.setExhausted fun r => decide (L.limit≤retries r))=some (.ok c')) :
    Paid L (SrvConn.counting retries
      (c.tried retryNip nip (e.setExhausted fun r => decide (L.limit≤retries r)))) c' := by
  cases e with
  | fwdResched r env =>
    simp only [Event.setExhausted,SrvConn.act,ite_none_right_eq_some,Option.some.injEq,not_eq_true] at h
    obtain ⟨⟨hl,hrs,-⟩,h⟩ := h
    exact reqFwdResched_paid hi hl hrs hp (he r rfl) h
  | fwd r resched env =>
    simp only [Event.setExhausted,SrvConn.act,ite_none_right_eq_some,Option.some.injEq,not_eq_true] at h
    obtain ⟨⟨hl,hrs,-⟩,h⟩ := h
    cases hre : c.reqFwd nip (env.setExhausted fun r => decide (L.limit≤retries r)) r resched with
    | error b =>
      rw [hre] at h
      cases h
    | ok res =>
      rw [hre] at h
      cases h
      exact (reqFwd_paid hi hl hrs hp (he r rfl) hre).1
  | respond =>
    simp only [Event.setExhausted,SrvConn.act,ite_none_right_eq_some,Option.some.injEq] at h
    obtain ⟨-,h⟩ := h
    cases h
    exact respond_paid hp
  | popreq fwd env env' =>
    rw [Event.setExhausted,SrvConn.act] at h
    cases hpa : c.paired with
    | nil =>
      rw [hpa] at h
      cases h
    | cons r ps =>
      simp only [hpa,ite_none_right_eq_some,Option.some.injEq] at h
      obtain ⟨hl,h⟩ := h
      exact popreq_paid hi hl hpa hp (fun _ => rfl) hb h
  | entail valid =>
    rw [Event.setExhausted,SrvConn.act] at h
    cases hpe : c.pending with
    | nil =>
      rw [hpe] at h
      cases h
    | cons r ps =>
      simp only [hpe,ite_none_right_eq_some,Option.some.injEq] at h
      obtain ⟨⟨-,hg⟩,h⟩ := h
      cases h
      rw [entail_cases valid hpe]
      cases valid with
      | true => exact hp.congr rfl rfl rfl rfl
      | false =>
        obtain ⟨hr,hrp⟩ := hg.resolve_left (by decide)
        exact cancel_paid hi hr hrp hp
  | release removed =>
    simp only [Event.setExhausted,SrvConn.act,ite_none_right_eq_some,Option.some.injEq] at h
    obtain ⟨-,h⟩ := h
    cases h
    exact release_paid removed hp
  | repairDead needResched env =>
    simp only [Event.setExhausted,SrvConn.act,ite_none_left_eq_some,Option.some.injEq] at h
    exact SrvConn.repairDead_paid hi hp h.2
  | connectComplete env env' =>
    simp only [Event.setExhausted,SrvConn.act,ite_none_left_eq_some,Option.some.injEq,not_eq_true] at h
    exact SrvConn.connectComplete_paid hi h.1 hp (fun _ => rfl) h.2
  | clearUnsched =>
    simp only [Event.setExhausted,SrvConn.act,Option.some.injEq] at h
    cases h
    exact hp.congr rfl rfl rfl rfl
end VetWaf.Http.FwdQueue
