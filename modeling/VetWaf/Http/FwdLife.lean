import VetWaf.Http.FwdInv

namespace VetWaf.Http.FwdQueue
open List ListCursor Bool
variable {nip : Req → Bool} {c c' : SrvConn} {S O U S' O' U' : List Req} {r : Req} {P : List Req}
lemma Once.unsched (b : Bool) (h : Once nip c P) : Once nip {c with unsched:=b} P := ⟨h.handed,h.only,h.repair,h.count⟩

lemma Inv.unsched (b : Bool) (h : Inv nip c S O U) : Inv nip {c with unsched:=b} S O U :=
  ⟨h.books,⟨h.layout.queue,h.layout.curr,h.layout.last⟩,h.paired,h.direct,h.probing,h.dead⟩

lemma Once.shrink {P' : List Req} (h : Once nip c P) (hP : ∀a∈P',a∈P)
    (hq : ∀a∈c'.q.fwdQueue,a∈c.q.fwdQueue) (hh : c'.handed=c.handed)
    (hla : ∀a∈c'.q.fwdQueue,c.lastMsgSent=some a → c'.lastMsgSent=some a)
    (hm : c'.live=true → c'.resend=true → c'.qforwd=false →
      c.live=true ∧ c.resend=true ∧ c.qforwd=false) : Once nip c' P' := by
  refine ⟨?_,?_,?_,?_⟩
  · intro a ha
    rw [hh]
    exact h.handed a (hP a ha)
  · intro a ha hn hah
    rw [hh] at hah
    exact hla a ha (h.only a (hq a ha) hn hah)
  · intro hl hr hf a ha hn hah
    obtain ⟨hl',hr',hf'⟩ := hm hl hr hf
    rw [hh] at hah
    exact h.repair hl' hr' hf' a (hq a ha) hn hah
  · rw [hh]
    exact h.count

namespace SrvConn
variable {ps : List Req}
lemma cancel_inv (hi : Inv nip c S O U) (hr : r∈c.q.fwdQueue) (hp : r∉c.paired) :
    Inv nip {c.cancel r with pending:=ps} (S.erase r) (O.erase r) (U.erase r) := by
  have hnd : (S++O++U).Nodup := hi.layout.queue ▸ hi.books.nodup
  have hnd' : (S++O).Nodup := (nodup_append.1 hnd).1
  refine ⟨hi.books.delist hr,⟨?_,?_,?_⟩,?_,?_,?_,hi.dead⟩
  · show (c.q.delist r).fwdQueue=_
    rw [FwdQ.delist_fwdQueue,hi.layout.queue,erase_append_of_nodup hnd,erase_append_of_nodup hnd']
  · show (if c.currMsgSent=some r then prev r c.q.fwdQueue else c.currMsgSent)=_
    rw [hi.layout.curr,hi.layout.queue,append_assoc]
    rw [append_assoc] at hnd
    exact getLast?_unlink hnd
  · show (if c.lastMsgSent=some r then prev r c.q.fwdQueue else c.lastMsgSent)=_
    rw [hi.layout.last,hi.layout.queue,← erase_append_of_nodup hnd']
    exact getLast?_unlink hnd
  · obtain ⟨T,rfl⟩ := hi.paired
    rw [erase_append_right _ hp]
    exact prefix_append _ _
  · intro hl hm
    rw [hi.direct hl hm]
    rfl
  · intro hl hre hq
    refine (hi.probing hl hre hq).imp_left fun ho => ?_
    exact Nat.le_trans erase_sublist.length_le ho

lemma cancel_once (hi : Inv nip c S O U) (ho : Once nip c (S++O)) :
    Once nip {c.cancel r with pending:=ps} (S.erase r++O.erase r) := by
  have hq : ∀a∈(c.q.delist r).fwdQueue,a∈c.q.fwdQueue ∧ a≠r := by
    intro a ha
    rw [FwdQ.delist_fwdQueue,hi.books.nodup.mem_erase_iff] at ha
    exact ⟨ha.2,ha.1⟩
  refine ho.shrink ?_ (fun a ha => (hq a ha).1) rfl ?_ fun hl hr hqf => ⟨hl,hr,hqf⟩
  · intro a ha
    obtain ha | ha := mem_append.1 ha
    · exact mem_append_left _ (mem_of_mem_erase ha)
    · exact mem_append_right _ (mem_of_mem_erase ha)
  · intro a ha hla
    show (if c.lastMsgSent=some r then prev r c.q.fwdQueue else c.lastMsgSent)=_
    rw [hla,if_neg (by simpa using (hq a ha).2)]

lemma cancel_track (hi : Inv nip c S O U) (ht : Track c S)
    (hp : c.pending=r::ps) : Track {c.cancel r with pending:=ps} (S.erase r) := by
  intro hli
  obtain ⟨taken,hc,hwi,hl⟩ := ht hli
  refine ⟨taken,hc,?_,hl⟩
  have hle : taken.length≤c.onWire.length := by
    rw [hc,length_append] at hl
    omega
  rw [hp] at hwi
  have hpr : taken <+: c.onWire := by
    refine prefix_of_prefix_length_le (prefix_append taken S) ?_ hle
    rw [← hwi]
    exact prefix_append _ _
  obtain ⟨w,hw⟩ := hpr
  rw [← hw,append_assoc,append_cancel_left_eq] at hwi
  have hS : (w++r::ps).Nodup := by
    rw [hwi]
    have := hi.layout.queue ▸ hi.books.nodup
    exact (nodup_append.1 (nodup_append.1 this).1).1
  show c.onWire++ps=taken++S.erase r
  rw [← hwi,erase_append_right _ (nodup_cut hS).1,← hw]
  simp

lemma entail_cases (valid : Bool) (hp : c.pending=r::ps) : c.entail valid =
      if valid then {c with pending:=ps, onWire:=c.onWire++[r]} else {c.cancel r with pending:=ps} := by
  rw [entail,hp]

lemma written_track (ht : Track c S) (hp : c.pending=r::ps) : Track {c with pending:=ps, onWire:=c.onWire++[r]} S := by
  intro hli
  obtain ⟨taken,hc,hw,hl⟩ := ht hli
  refine ⟨taken,hc,?_,?_⟩
  · rw [hp] at hw
    simpa using hw
  · show c.chosen.length≤(c.onWire++[r]).length
    rw [length_append]
    exact Nat.le_add_right_of_le hl

/-- What a critical section did that put the request `r` into the queue. -/
structure Entered (nip : Req → Bool) (c : SrvConn) (r : Req) (S O : List Req) (c' : SrvConn)
    (S' O' U' : List Req) : Prop where
  inv : Inv nip c' S' O' U'
  track : Track c S → Track c' S'
  once : (nip r=true → r∉c.handed) → Once nip c (S++O) → Once nip c' (S'++O')
  has : ∀a,Has c' a → Has c a ∨ a=r

lemma Entered.leads {d : SrvConn} {S₁ O₁ U₁ : List Req} (h : Entered nip c r S O c' S' O' U')
    (h' : Leads nip c' S' O' d S₁ O₁ U₁) : Entered nip c r S O d S₁ O₁ U₁ :=
  ⟨h'.inv,fun ht => h'.track (h.track ht),fun hf ho => h'.once (h.once hf ho),fun a ha => h.has a (h'.has a ha)⟩

lemma enlist_entered (hi : Inv nip c S O U) (hr : r∉c.q.fwdQueue) :
    ∃q,c.q.enlist r nip=.ok q ∧ Entered nip c r S O {c with q} S O (U++[r]) := by
  obtain ⟨q,hq,hqu,hb⟩ := hi.books.enlist hr
  have hm : ∀a∈q.fwdQueue,a∈c.q.fwdQueue ∨ a=r := by
    intro a ha
    rw [hqu,mem_append,mem_singleton] at ha
    exact ha
  refine ⟨q,hq,?_,id,?_,?_⟩
  · refine ⟨hb,⟨?_,hi.layout.curr,hi.layout.last⟩,hi.paired,hi.direct,hi.probing,hi.dead⟩
    show q.fwdQueue=_
    rw [hqu,hi.layout.queue,append_assoc]
  · intro hf ho
    refine ⟨ho.handed,?_,?_,ho.count⟩
    · intro a ha hn hh
      obtain ha | rfl := hm a ha
      · exact ho.only a ha hn hh
      · exact absurd hh (hf hn)
    · intro hl hre hqf a ha hn
      obtain ha | rfl := hm a ha
      · exact ho.repair hl hre hqf a ha hn
      · exact hf hn
  · intro a ha
    obtain ha | ha := ha
    · exact (hm a ha).imp_left .inl
    · exact .inl (.inr ha)

variable (env : Env)
lemma fwdUnsent_leads (hi : Inv nip c S O U) (hl : c.live=true)
    (hrs : c.resend=false) (hh : ¬ c.onHold nip=true) (hU : U≠[]) :
    ∃res new rest,c.fwdUnsent nip env=.ok res ∧ Leads nip c S O res.2 (S++new) [] rest ∧
      (res.1=.ok ∨ (res.1=.ebusy ∧ S++new=[] ∧ rest <:+ U ∧ rest≠[])) := by
  have hm : c.resend=true → c.qforwd=true := fun h => absurd (hrs.symm.trans h) (by decide)
  obtain rfl := hi.direct hl hm
  rw [not_eq_true,onHold,or_eq_false_iff] at hh
  obtain ⟨res,new,rest,hr,hf⟩ := fwdUnsent_spec env hi.books hi.layout hU
  refine ⟨res,new,rest,hr,hf.leads hi hl hm fun _ => hh.1,?_⟩
  obtain hok | ⟨hb,hn⟩ := hf.rc
  · exact .inl hok
  · exact .inr ⟨hb,hn,hf.busy hb⟩

lemma reqFwdResched_entered (hi : Inv nip c S O U) (hli : c.live=true) (hrs : c.resend=false) (hr : r∉c.q.fwdQueue) :
    ∃c' S' O' U',c.reqFwdResched nip env r=.ok c' ∧ Entered nip c r S O c' S' O' U' := by
  obtain ⟨q,hq,he⟩ := enlist_entered hi hr
  rw [reqFwdResched,hq]
  by_cases hh : onHold nip {c with q}=true
  · exact ⟨{c with q},S,O,U++[r],by simp [bind,Except.bind,hh,pure,Except.pure],he⟩
  · obtain ⟨res,new,rest,hre,hl,hrc⟩ := fwdUnsent_leads env he.inv hli hrs hh (by simp)
    obtain hok | ⟨hb,hn,-⟩ := hrc
    · refine ⟨res.2,S++new,[],rest,?_,he.leads hl⟩
      simp [bind,Except.bind,hh,hre,hok,pure,Except.pure]
    · rw [hn] at hl
      refine ⟨res.2.fwdqReset,[],[],[],?_,he.leads (hl.trans (fwdqReset_leads hl.inv))⟩
      simp [bind,Except.bind,hh,hre,hb,pure,Except.pure]

lemma delist_leads (hi : Inv nip c S O U) (hr : r∈U) : Leads nip c S O {c with q:=c.q.delist r} S O (U.erase r) := by
  have hnd := hi.layout.queue ▸ hi.books.nodup
  have hrP : r∉S++O := fun h => (nodup_append.1 hnd).2.2 r h r hr rfl
  have hrq : r∈c.q.fwdQueue := hi.layout.queue ▸ mem_append_right _ hr
  have hq : ∀a∈(c.q.delist r).fwdQueue,a∈c.q.fwdQueue := by
    intro a ha
    rw [FwdQ.delist_fwdQueue] at ha
    exact mem_of_mem_erase ha
  constructor
  · refine ⟨hi.books.delist hrq,⟨?_,hi.layout.curr,hi.layout.last⟩,hi.paired,hi.direct,hi.probing,hi.dead⟩
    show (c.q.delist r).fwdQueue=_
    rw [FwdQ.delist_fwdQueue,hi.layout.queue,erase_append_right _ hrP]
  · exact id
  · intro ho
    exact ho.shrink (fun a ha => ha) hq rfl (fun _ _ h => h) fun hl hre hqf => ⟨hl,hre,hqf⟩
  · exact fun a ha => ha.imp_left (hq a)

lemma reqFwd_entered (resched : Bool) (hi : Inv nip c S O U) (hli : c.live=true)
    (hrs : c.resend=false) (hr : r∉c.q.fwdQueue) :
    ∃res S' O' U',c.reqFwd nip env r resched=.ok res ∧ Entered nip c r S O res.2 S' O' U' := by
  obtain ⟨q,hq,he⟩ := enlist_entered hi hr
  rw [reqFwd,hq]
  by_cases hh : onHold nip {c with q}=true
  · cases resched with
    | false => exact ⟨(true,{c with q}),S,O,U++[r],by simp [bind,Except.bind,hh,pure,Except.pure],he⟩
    | true =>
      refine ⟨(false,{c with q:=q.delist r}),S,O,(U++[r]).erase r,?_,he.leads (delist_leads he.inv (by simp))⟩
      simp [bind,Except.bind,hh,pure,Except.pure]
  · obtain ⟨res,new,rest,hres,hl,hrc⟩ := fwdUnsent_leads env he.inv hli hrs hh (by simp)
    by_cases hb : res.1 ≠ .ok ∧ resched=true
    · obtain ⟨-,-,hs,hne⟩ := hrc.resolve_left hb.1
      have hre : r∈rest := by
        have hla := getLast?_suffix hs hne
        rw [getLast?_concat] at hla
        exact mem_of_getLast? hla
      refine ⟨(false,{res.2 with q:=res.2.q.delist r}),S++new,[],rest.erase r,?_,
        he.leads (hl.trans (delist_leads hl.inv hre))⟩
      simp [bind,Except.bind,hh,hres,hb,pure,Except.pure]
    · refine ⟨(true,res.2),S++new,[],rest,?_,he.leads hl⟩
      simp only [bind,Except.bind,hh,hres,pure,Except.pure,if_neg hb]
      simp

/-- The condition under which `tfw_http_conn_treatnip` meets no `BUG_ON`. -/
def treatSafe (retryNip : Bool) (c : SrvConn) : Bool :=
  retryNip || !c.unsched || c.lastMsgSent.all fun l => c.q.nipQueue.contains l

lemma treatSafe_iff {retryNip : Bool} : treatSafe retryNip c=true ↔
    (retryNip=false → c.unsched=true → ∀l,c.lastMsgSent=some l → l∈c.q.nipQueue) := by
  rw [treatSafe]
  cases retryNip <;> cases c.unsched <;> cases c.lastMsgSent <;> simp

lemma treatnip_cases (retryNip : Bool) (hb : Books nip c.q) (hl : Layout c [] O U) :
    (treatSafe retryNip c=false ∧ c.treatnip retryNip nip=.error .treatnipUnlisted) ∨
      ∃c' O',treatSafe retryNip c=true ∧ c.treatnip retryNip nip=.ok c' ∧ Books nip c'.q ∧
        Layout c' [] O' U ∧ Sent c c' [] ∧ O'.Sublist O ∧ (∀a∈c'.q.fwdQueue,a∈c.q.fwdQueue) ∧
        (retryNip=false → (∀r∈c.q.fwdQueue,nip r=true → r∈c.handed → c.lastMsgSent=some r) → NoNipSent nip c') := by
  cases hla : c.lastMsgSent with
  | none =>
    refine .inr ⟨c,O,?_,by rw [treatnip,hla],hb,hl,.refl c,.refl O,fun _ => id,?_⟩
    · simp [treatSafe,hla]
    · intro _ ho r hr hn hh
      cases ho r hr hn hh
  | some l =>
    have hO : O.getLast? = some l := by simpa [hla] using hl.last.symm
    have hlq : l∈c.q.fwdQueue := by
      rw [hl.queue]
      exact mem_append_left _ (mem_of_getLast? hO)
    by_cases hco : (c.onHold nip && !retryNip)=true
    · by_cases hni : l∈c.q.nipQueue
      · -- The request goes to the error queue, and the pointer to the one before it.
        obtain ⟨P,rfl⟩ := getLast?_eq_some_iff.1 hO
        have hq : c.q.fwdQueue=P++l::U := by simpa using hl.queue
        have hc := nodup_cut (hq ▸ hb.nodup)
        have hf : Sent c {c with lastMsgSent:=prev l c.q.fwdQueue} [] := by constructor <;> simp
        have hr := reqErr_removed (c := {c with lastMsgSent:=prev l c.q.fwdQueue}) (r := l) 504
          "request dropped: non-idempotent requests aren't re-forwarded or re-scheduled"
        obtain ⟨hb',hq'⟩ := hr.cut hb hq
        have hm : ∀a∈P++U,a∈c.q.fwdQueue := by
          intro a ha
          rw [hq]
          exact mem_append.2 ((mem_append.1 ha).imp_right (mem_cons_of_mem l))
        refine .inr ⟨_,P,?_,?_,hb',⟨by simpa using hq',hr.curr.trans hl.curr,?_⟩,
          hf.trans hr.sent,sublist_append_left P [l],fun a ha => hm a (hq' ▸ ha),?_⟩
        · simp [treatSafe,hla,hni]
        · simp [treatnip,hla,hco,hni,show c.currMsgSent=none from hl.curr]
        · rw [hr.last,hq]
          simp [ListCursor.prev,before_append hc.1]
        · intro _ ho a ha hn hh
          rw [hr.sent.handed,append_nil] at hh
          rw [hq'] at ha
          cases ho a (hm a ha) hn hh
          exact (mem_append.1 ha).elim hc.1 hc.2
      · -- The flag of a queued request keeps it on the list, so the hold is an upgrade's.
        rw [and_eq_true,onHold,hla,Option.any_some,or_eq_true,not_eq_true'] at hco
        have hu := hco.1.resolve_left fun hn => hni (hb.listed l hlq hn)
        refine .inl ⟨by simp [treatSafe,hco.2,hu,hla,hni],?_⟩
        simp [treatnip,hla,onHold,hu,hco.2,hni]
    · refine .inr ⟨c,O,?_,by simp [treatnip,hla,hco],hb,hl,.refl c,.refl O,fun _ => id,?_⟩
      · refine treatSafe_iff.2 fun hre hu => ?_
        simp [onHold,hre,hu] at hco
      · intro hre ho a ha hn hh
        cases ho a ha hn hh
        simp [onHold,hla,hre,hn] at hco

lemma repairUnsent_leads (hi : Inv nip c [] [] U) (hli : c.live=true) :
    ∃res S' O' U',c.repairUnsent nip env=.ok res ∧ Leads nip c [] [] res.2 S' O' U' ∧
      res.2.live=true ∧ (res.1 ≠ .ok → S'++O'=[]) := by
  rw [repairUnsent]
  by_cases hq : c.q.fwdQueue=[]
  · obtain ⟨c',he,hl,hli'⟩ := endRepair_leads .ok hi hli
    refine ⟨(.ok,c'),[],[],U,?_,hl,hli',fun hne => absurd rfl hne⟩
    rw [if_pos hq]
    exact he
  · have hU : U≠[] := by
      rintro rfl
      exact hq hi.layout.queue
    have hi' : Inv nip {c with qforwd:=true} [] [] U :=
      ⟨hi.books,⟨hi.layout.queue,hi.layout.curr,hi.layout.last⟩,hi.paired,fun _ _ => rfl,
        (fun _ _ h => nomatch h),fun hd => absurd (hli.symm.trans hd) (by decide)⟩
    obtain ⟨res,new,rest,hre,hf⟩ := fwdUnsent_spec (c := {c with qforwd:=true}) env hi'.books hi'.layout hU
    have hla : c.lastMsgSent=none := hi.layout.last
    have hl := hf.leads hi' hli (fun _ => rfl) fun _ => by simp [hla]
    obtain ⟨c',he,hl',hli'⟩ := endRepair_leads res.1 hl.inv (hf.sent.live.trans hli)
    refine ⟨(res.1,c'),[]++new,[],rest,?_,⟨hl'.inv,?_,?_,?_⟩,hli',?_⟩
    · rw [if_neg hq,hre]
      exact he
    · exact fun ht => hl'.track (hl.track ht)
    · intro ho
      exact hl'.once (hl.once ⟨ho.handed,ho.only,(fun _ _ h => nomatch h),ho.count⟩)
    · exact fun r hr => hl.has r (hl'.has r hr)
    · intro hne
      rw [append_nil]
      exact (hf.rc.resolve_left hne).2

lemma repairSent_leads (env env' : Env) (hi : Inv nip c [] O U) (hli : c.live=true)
    (hrs : c.resend=true) (hq : c.qforwd=false) :
    ∃c' S' O' U',c.repairSent nip env env'=.ok c' ∧ Leads nip c [] O c' S' O' U' := by
  have hno : Once nip c O → NoNipSent nip c := fun ho => ho.repair hli hrs hq
  obtain ⟨res,new,O',U',hre,hr⟩ := resendSent_spec env true hi.books hi.layout
  have hl := hr.leads hi hli hrs hq hno (.inl (hr.one rfl))
  have hl' : res.2.live=true := hr.sent.live.trans hli
  rw [repairSent,hre]
  cases hrc : res.1 with
  | ebadf => exact ⟨res.2,new,O',U',by simp [bind,Except.bind,hrc,pure,Except.pure],hl⟩
  | other => exact absurd hrc hr.notOther
  | ebusy =>
    obtain ⟨rfl,hne⟩ := hr.busy hrc
    obtain rfl := hne rfl
    obtain ⟨S₁,O₁,U₁,hl1⟩ := resetOnError_leads .ebusy hl.inv hl' fun _ => rfl
    exact ⟨_,S₁,O₁,U₁,by simp [bind,Except.bind,hrc,pure,Except.pure],hl.trans hl1⟩
  | ok =>
    by_cases hla : res.2.lastMsgSent=none
    · have hn := hr.layout.last
      rw [hla,eq_comm,getLast?_eq_none_iff,append_eq_nil_iff] at hn
      obtain ⟨rfl,rfl⟩ := hn
      obtain ⟨res',S₁,O₁,U₁,hr',hl1,hli1,hr1⟩ := repairUnsent_leads env' hl.inv hl'
      obtain ⟨S₂,O₂,U₂,hl2⟩ := resetOnError_leads res'.1 hl1.inv hli1 hr1
      refine ⟨_,S₂,O₂,U₂,?_,(hl.trans hl1).trans hl2⟩
      simp [bind,Except.bind,hrc,hla,hr',pure,Except.pure]
    · refine ⟨res.2,new,O',U',?_,hl⟩
      simp [bind,Except.bind,hrc,hla,resetOnError,pure,Except.pure]

lemma connectComplete_cases (retryNip : Bool) (env env' : Env) (hi : Inv nip c S O U) (hde : c.live=false) :
    (treatSafe retryNip c=false ∧ c.connectComplete retryNip nip env env'=.error .treatnipUnlisted) ∨
      ∃c' S' O' U',treatSafe retryNip c=true ∧
        c.connectComplete retryNip nip env env'=.ok c' ∧ Inv nip c' S' O' U' ∧ Track c' S' ∧
        (retryNip=false → Once nip c (S++O) → Once nip c' (S'++O')) ∧ ∀r,Has c' r → Has c r := by
  obtain ⟨hp,hres,hqf⟩ := hi.dead hde
  by_cases hq : c.q.fwdQueue=[]
  · have hpa := hi.layout.queue
    rw [hq,nil_eq_append_iff,append_eq_nil_iff] at hpa
    obtain ⟨⟨rfl,rfl⟩,rfl⟩ := hpa
    have hla : c.lastMsgSent=none := hi.layout.last
    refine .inr ⟨{c.newSocket with unsched:=false},[],[],[],?_,?_,?_,?_,?_,fun _ => id⟩
    · simp [treatSafe,hla]
    · simp [connectComplete,connInit,newSocket,hq,hres,bind,Except.bind,pure,Except.pure]
    · exact ⟨hi.books,⟨hi.layout.queue,hi.layout.curr,hi.layout.last⟩,hi.paired,fun _ _ => rfl,
        fun _ _ _ => .inl (Nat.zero_le 1),fun hd => nomatch hd⟩
    · exact fun _ => ⟨[],hp.symm,rfl,Nat.le_refl 0⟩
    · exact fun _ ho => ho.of_empty hq rfl
  · have hc : c.connectComplete retryNip nip env env'=(do
        let c ← treatnip retryNip nip {c.newSocket with currMsgSent:=none, resend:=true}
        let c ← c.repairSent nip env env'
        pure {c with unsched:=false}) := by
      simp [connectComplete,connInit,newSocket,repairLive,hq]
    have hl : Layout {c.newSocket with currMsgSent:=none, resend:=true} [] (S++O) U :=
      ⟨hi.layout.queue,rfl,hi.layout.last⟩
    rcases treatnip_cases (c := {c.newSocket with currMsgSent:=none, resend:=true}) retryNip
      hi.books hl with ⟨hb,he⟩ | ⟨c1,O₁,hsa,hok,hb1,hl1,hse,hs,hme,hno⟩
    · refine .inl ⟨hb,?_⟩
      rw [hc,he]
      rfl
    · have hi1 : Inv nip c1 [] O₁ U := by
        refine ⟨hb1,hl1,?_,?_,fun _ _ _ => .inl (Nat.zero_le 1),?_⟩
        · rw [hse.paired]
          exact hp ▸ nil_prefix
        · intro _ hm
          have ht := hm hse.resend
          rw [hse.qforwd] at ht
          exact absurd (hqf.symm.trans ht) (by decide)
        · intro hd
          rw [hse.live] at hd
          cases hd
      obtain ⟨c2,S₂,O₂,U₂,hrep,hld⟩ := repairSent_leads env env' hi1 hse.live hse.resend (hse.qforwd.trans hqf)
      refine .inr ⟨{c2 with unsched:=false},S₂,O₂,U₂,hsa,?_,hld.inv.unsched false,?_,?_,?_⟩
      · rw [hc,hok]
        simp [bind,Except.bind,hrep,pure,Except.pure]
      · refine hld.track fun _ => ⟨[],?_,?_,?_⟩
        · rw [hse.chosen,hse.paired]
          exact hp.symm
        · rw [hse.onWire,hse.pending]
          rfl
        · rw [hse.chosen]
          exact zero_le
      · intro hre ho
        refine (hld.once (.of_noNipSent ?_ (hno hre ho.only) ?_)).unsched false
        · intro a ha
          rw [hse.handed,append_nil]
          exact ho.handed a (hs.subset ha)
        · intro a hn
          rw [hse.handed,append_nil]
          exact ho.count a hn
      · intro r hr
        exact Has.of_sent (c := {c.newSocket with currMsgSent:=none, resend:=true})
          (hld.has r hr) hse hme (by simp)

lemma shrinkFwdqResched_cases (c : SrvConn) :
    c.shrinkFwdqResched=c ∧ c.q.fwdQueue=[] ∨ c.shrinkFwdqResched=c.fwdqReset := by
  rw [shrinkFwdqResched]
  split_ifs with hq
  · exact .inl ⟨rfl,hq⟩
  · exact .inr rfl

lemma release_leads (removed : Bool) (hi : Inv nip c S O U) :
    ∃S' O' U',Leads nip c S O (c.release removed) S' O' U' := by
  have hk : ∀ {c : SrvConn} {S O U : List Req},Inv nip c S O U →
      Leads nip c S O {c.clearRestricted with live:=false, paired:=[], pending:=[]} S O U := by
    intro c S O U hi
    refine ⟨⟨hi.books,⟨hi.layout.queue,hi.layout.curr,hi.layout.last⟩, nil_prefix,
      (fun h => nomatch h),(fun h => nomatch h),fun _ => ⟨rfl,rfl,rfl⟩⟩,(fun _ h => nomatch h),?_,fun _ => id⟩
    intro ho
    exact ⟨ho.handed,ho.only,(fun h => nomatch h),ho.count⟩
  rw [release]
  cases removed with
  | false => exact ⟨S,O,U,hk hi⟩
  | true =>
    obtain ⟨h,-⟩ | h := shrinkFwdqResched_cases c
    · simp only [h]
      exact ⟨S,O,U,hk hi⟩
    · simp only [h]
      refine ⟨[],[],[],⟨.empty,⟨rfl,rfl,rfl⟩, nil_prefix,(fun h => nomatch h),
        (fun h => nomatch h),fun _ => ⟨rfl,rfl,rfl⟩⟩,(fun _ h => nomatch h),?_,?_⟩
      · exact fun ho => ho.of_empty rfl rfl
      · exact fun _ hr => Has.of_fwdqReset hr

lemma repairDead_leads (needResched : Bool) (env : Env) (hi : Inv nip c S O U) (hd : c.live=false) :
    ∃c' S' O' U',c.repairDead needResched env=.ok c' ∧ Leads nip c S O c' S' O' U' := by
  obtain ⟨hp,hre,hqf⟩ := hi.dead hd
  have hl : Layout {c with currMsgSent:=none} [] (S++O) U := ⟨hi.layout.queue,rfl,hi.layout.last⟩
  have hn : ∀ {d : SrvConn},d.live=c.live → d.live=true → False :=
    fun h h' => absurd (hd.symm.trans (h.symm.trans h')) (by decide)
  rw [repairDead]
  cases needResched with
  | true =>
    obtain ⟨h,-⟩ | h := shrinkFwdqResched_cases {c with currMsgSent:=none}
    · refine ⟨{c with currMsgSent:=none},[],S++O,U,by simp [h],⟨hi.books,hl,?_,?_,?_,hi.dead⟩,?_,?_,fun _ => id⟩
      · exact hp ▸ nil_prefix
      · exact fun hli => (hn rfl hli).elim
      · exact fun hli => (hn rfl hli).elim
      · exact fun _ hli => (hn rfl hli).elim
      · exact fun ho => ⟨ho.handed,ho.only,ho.repair,ho.count⟩
    · refine ⟨c.fwdqReset,[],[],[],by simp [h,fwdqReset],⟨.empty,⟨rfl,rfl,rfl⟩,?_,
        fun _ _ => rfl,?_,hi.dead⟩,?_,?_,fun _ hr => hr.of_fwdqReset⟩
      · exact hp ▸ nil_prefix
      · exact fun hli => (hn rfl hli).elim
      · exact fun _ hli => (hn rfl hli).elim
      · exact fun ho => ho.of_empty rfl rfl
  | false =>
    obtain ⟨c',O',U',hok,h⟩ := shrinkFwdq_spec (c := {c with currMsgSent:=none}) env hi.books hl
    have hq : c'.q.fwdQueue=O'++U' := by simpa using h.layout.queue
    have hm : ∀a∈c'.q.fwdQueue,a∈c.q.fwdQueue := by
      intro a ha
      rw [hq] at ha
      rw [hi.layout.queue]
      exact mem_append.2 ((mem_append.1 ha).imp (h.sublist.subset ·) (h.unsent.subset ·))
    refine ⟨c',[],O',U',hok,⟨h.books,h.layout,?_,?_,?_,?_⟩,?_,?_,?_⟩
    · rw [h.sent.paired]
      exact hp ▸ nil_prefix
    · exact fun hli => (hn h.sent.live hli).elim
    · exact fun hli => (hn h.sent.live hli).elim
    · exact fun _ => ⟨h.sent.paired.trans hp,h.sent.resend.trans hre,h.sent.qforwd.trans hqf⟩
    · exact fun _ hli => (hn h.sent.live hli).elim
    · intro ho
      have hnd := hi.layout.queue ▸ hi.books.nodup
      refine ho.shrink (fun a ha => h.sublist.subset ha) hm ?_ ?_ ?_
      · rw [h.sent.handed,append_nil]
      · intro a ha hla
        obtain hs | hg := h.last
        · exact hs.trans hla
        · rw [hq] at ha
          have haU := h.unsent.subset ((mem_append.1 ha).resolve_left (hg a hla))
          have haP : a∈S++O := mem_of_getLast? (hi.layout.last.symm.trans hla)
          exact absurd rfl ((nodup_append.1 hnd).2.2 a haP a haU)
      · exact fun hli => (hn h.sent.live hli).elim
    · exact fun r hr => Has.of_sent (c := {c with currMsgSent:=none}) hr h.sent hm (by simp)
end SrvConn
end VetWaf.Http.FwdQueue
