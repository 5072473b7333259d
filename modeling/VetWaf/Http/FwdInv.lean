import VetWaf.Http.FwdSpec

namespace VetWaf.Http.FwdQueue
open List ListCursor Bool

/-- The state of a connection between two critical sections. -/
structure Inv (nip : Req → Bool) (c : SrvConn) (S O U : List Req) : Prop where
  books : Books nip c.q
  layout : Layout c S O U
  paired : c.paired <+: S
  /-- Outside the first stage of a repair every request before the unsent ones was sent. -/
  direct : c.live=true → (c.resend=true → c.qforwd=true) → O=[]
  /-- In the first stage of a repair one request is tried. -/
  probing : c.live=true → c.resend=true → c.qforwd=false → S.length≤1 ∨ (c.ebadf=true ∧ c.paired=[])
  dead : c.live=false → c.paired=[] ∧ c.resend=false ∧ c.qforwd=false

/-- The responses so far are those to `taken`. -/
def Track (c : SrvConn) (S : List Req) : Prop :=
  c.live=true → ∃taken,c.chosen=taken++c.paired ∧ c.onWire++c.pending=taken++S ∧ c.chosen.length≤c.onWire.length

def NoNipSent (nip : Req → Bool) (c : SrvConn) : Prop := ∀r∈c.q.fwdQueue,nip r=true → r∉c.handed

/-- A non-idempotent request was sent at most once. -/
structure Once (nip : Req → Bool) (c : SrvConn) (P : List Req) : Prop where
  handed : ∀r∈P,r∈c.handed
  only : ∀r∈c.q.fwdQueue,nip r=true → r∈c.handed → c.lastMsgSent=some r
  repair : c.live=true → c.resend=true → c.qforwd=false → NoNipSent nip c
  count : ∀r,nip r=true → c.handed.count r≤1

def Has (c : SrvConn) (r : Req) : Prop := r∈c.q.fwdQueue ∨ r∈c.reschq ∨ r∈c.handed

variable {r : Req}
lemma Has.of_sent {c c' : SrvConn} {new : List Req} (h : Has c' r) (hs : Sent c c' new)
    (hq : ∀r∈c'.q.fwdQueue,r∈c.q.fwdQueue) (hn : ∀r∈new,r∈c.q.fwdQueue) : Has c r := by
  obtain h | h | h := h
  · exact .inl (hq r h)
  · exact .inr (.inl (hs.reschq ▸ h))
  · rw [hs.handed] at h
    obtain h | h := mem_append.1 h
    · exact .inr (.inr h)
    · exact .inl (hn r h)

lemma Has.of_fwdqReset {c : SrvConn} (h : Has c.fwdqReset r) : Has c r := by
  obtain h | h | h := h
  · cases h
  · obtain h | h := mem_append.1 h
    · exact .inr (.inl h)
    · exact .inl h
  · exact .inr (.inr h)

/-- A critical section took the connection from `c` to `c'`. -/
structure Leads (nip : Req → Bool) (c : SrvConn) (S O : List Req) (c' : SrvConn)
    (S' O' U' : List Req) : Prop where
  inv : Inv nip c' S' O' U'
  track : Track c S → Track c' S'
  once : Once nip c (S++O) → Once nip c' (S'++O')
  has : ∀r,Has c' r → Has c r

lemma Leads.refl {nip : Req → Bool} {c : SrvConn} {S O U : List Req} (h : Inv nip c S O U) :
    Leads nip c S O c S O U := ⟨h,id,id,fun _ => id⟩

lemma Leads.trans {nip : Req → Bool} {c c1 c2 : SrvConn} {S O S₁ O₁ U₁ S₂ O₂ U₂ : List Req}
    (h : Leads nip c S O c1 S₁ O₁ U₁) (h' : Leads nip c1 S₁ O₁ c2 S₂ O₂ U₂) : Leads nip c S O c2 S₂ O₂ U₂ :=
  ⟨h'.inv,fun ht => h'.track (h.track ht),fun ho => h'.once (h.once ho),fun r hr => h.has r (h'.has r hr)⟩

section
variable {nip : Req → Bool} {c c' : SrvConn} {S O U P new rest : List Req}
lemma Track.sent (h : Track c S) (hs : Sent c c' new) : Track c' (S++new) := by
  intro hli
  obtain ⟨taken,hc,hw,hl⟩ := h (hs.live ▸ hli)
  refine ⟨taken,by rw [hs.chosen,hs.paired,hc],?_,by rwa [hs.chosen,hs.onWire]⟩
  rw [hs.onWire,hs.pending,← append_assoc,hw,append_assoc]

lemma Once.noNipSent (h : Once nip c P) (hl : c.lastMsgSent.any nip=false) : NoNipSent nip c := by
  intro r hr hn hh
  rw [h.only r hr hn hh,Option.any_some,hn] at hl
  cases hl

lemma Once.of_noNipSent (hP : ∀r∈P,r∈c.handed) (hno : NoNipSent nip c)
    (hc : ∀r,nip r=true → c.handed.count r≤1) : Once nip c P :=
  ⟨hP,fun r hr hn hh => absurd hh (hno r hr hn),fun _ _ _ => hno,hc⟩

lemma Once.forwarded {res : Rc×SrvConn} (h : Once nip c S)
    (hf : SrvConn.Forwarded nip c S U res new rest) (hl : Layout c S [] U) (hm : c.resend=true → c.qforwd=true)
    (hho : new≠[] → c.lastMsgSent.any nip=false) : Once nip res.2 (S++new) := by
  have hqu : c.q.fwdQueue=S++U := by simpa using hl.queue
  have hq' : res.2.q.fwdQueue=S++new++rest := by simpa using hf.layout.queue
  have hold : ∀r∈new,nip r=true → r∉c.handed := by
    intro r hr hn
    refine h.noNipSent (hho (ne_nil_of_mem hr)) r ?_ hn
    rw [hqu]
    exact mem_append_right _ (hf.sublist.subset (mem_append_left _ hr))
  constructor
  · intro r hr
    rw [hf.sent.handed]
    obtain hr | hr := mem_append.1 hr
    · exact mem_append_left _ (h.handed r hr)
    · exact mem_append_right _ hr
  · intro r hr hn hh
    rw [hf.sent.handed] at hh
    rw [hf.layout.last,append_nil]
    by_cases hrn : r∈new
    · obtain ⟨i,a,rfl⟩ := eq_nil_or_concat new |>.resolve_left (ne_nil_of_mem hrn)
      rw [concat_eq_append] at hrn ⊢
      obtain hi | ha := mem_append.1 hrn
      · have hid := hf.idempotent r (by simpa using hi)
        rw [hn] at hid
        cases hid
      · rw [← append_assoc,getLast?_concat,mem_singleton.1 ha]
    · have hrh : r∈c.handed := (mem_append.1 hh).resolve_right hrn
      have hrq : r∈c.q.fwdQueue := by
        rw [hqu]
        rw [hq',append_assoc] at hr
        obtain hr | hr := mem_append.1 hr
        · exact mem_append_left _ hr
        · exact mem_append_right _ (hf.sublist.subset hr)
      have hla := h.only r hrq hn hrh
      have hnew : new=[] := by
        by_contra hne
        have := hho hne
        rw [hla,Option.any_some,hn] at this
        cases this
      rw [hnew,append_nil,← hla,hl.last,append_nil]
  · intro _ hr hq
    rw [hf.sent.resend] at hr
    rw [hf.sent.qforwd,hm hr] at hq
    cases hq
  · intro r hn
    have hnd : new.Nodup := by
      have := hq' ▸ hf.books.nodup
      exact (nodup_append.1 (nodup_append.1 this).1).2.1
    rw [hf.sent.handed,count_append]
    by_cases hrn : r∈new
    · have h0 := count_eq_zero.2 (hold r hrn hn)
      have ho := nodup_iff_count_le_one.1 hnd r
      omega
    · have h0 := count_eq_zero.2 hrn
      have := h.count r hn
      omega

lemma NoNipSent.resend {first : Bool} {res : Rc×SrvConn} {O' U' : List Req}
    (hno : NoNipSent nip c) (hO : ∀r∈O,r∈c.handed) (hc : ∀r,nip r=true → c.handed.count r≤1) (hl : Layout c [] O U)
    (hr : SrvConn.Resend nip c first O U res new O' U') : NoNipSent nip res.2 ∧ (∀r∈new++O',r∈res.2.handed) ∧
      ∀r,nip r=true → res.2.handed.count r≤1 := by
  have hq : c.q.fwdQueue=O++U := by simpa using hl.queue
  have hidem : ∀r∈new,nip r=true → False := by
    intro r hrn hn
    have hrO : r∈O := hr.mem r (mem_append_left _ hrn)
    exact hno r (hq ▸ mem_append_left _ hrO) hn (hO r hrO)
  refine ⟨?_,?_,?_⟩
  · intro r hrq hn hh
    rw [hr.sent.handed] at hh
    rw [hr.layout.queue] at hrq
    obtain hh | hh := mem_append.1 hh
    · exact hno r (hq ▸ hr.sublist.subset hrq) hn hh
    · exact hidem r hh hn
  · intro r hrP
    rw [hr.sent.handed]
    exact mem_append_left _ (hO r (hr.mem r hrP))
  · intro r hn
    have h0 := count_eq_zero.2 fun hrn => hidem r hrn hn
    have := hc r hn
    rw [hr.sent.handed,count_append]
    omega

lemma Once.of_empty (h : Once nip c P) (hq : c'.q.fwdQueue=[]) (hh : c'.handed=c.handed) : Once nip c' [] := by
  refine .of_noNipSent (by simp) ?_ ?_
  · intro r hr
    rw [hq] at hr
    cases hr
  · rw [hh]
    exact h.count

end

namespace SrvConn
variable {nip : Req → Bool} {c : SrvConn} {S O U : List Req}
lemma Forwarded.leads {res : Rc×SrvConn} {new rest : List Req} (hi : Inv nip c S [] U)
    (hl : c.live=true) (hm : c.resend=true → c.qforwd=true) (hf : Forwarded nip c S U res new rest)
    (hh : new≠[] → c.lastMsgSent.any nip=false) : Leads nip c S [] res.2 (S++new) [] rest where
  inv :=
    { books:=hf.books
      layout:=hf.layout
      paired:=hf.sent.paired ▸ hi.paired.trans (prefix_append S new)
      direct:=fun _ _ => rfl
      probing:=by
        intro _ hr hq
        rw [hf.sent.resend] at hr
        rw [hf.sent.qforwd,hm hr] at hq
        cases hq
      dead:=by
        intro hd
        rw [hf.sent.live,hl] at hd
        cases hd}
  track ht := ht.sent hf.sent
  once ho := by
    rw [append_nil] at ho ⊢
    exact ho.forwarded hf hi.layout hm hh
  has r hr := by
    have hqu : c.q.fwdQueue=S++U := by simpa using hi.layout.queue
    have hq' : res.2.q.fwdQueue=S++(new++rest) := by simpa using hf.layout.queue
    refine hr.of_sent hf.sent ?_ ?_
    · intro a ha
      rw [hqu]
      rw [hq'] at ha
      exact mem_append.2 ((mem_append.1 ha).imp_right (hf.sublist.subset ·))
    · intro a ha
      rw [hqu]
      exact mem_append_right _ (hf.sublist.subset (mem_append_left _ ha))

lemma fwdNeeded_leads (env : Env) (hi : Inv nip c S O U) (hl : c.live=true) (hm : c.resend=true → c.qforwd=true) :
    ∃res new rest,c.fwdNeeded nip env=.ok res ∧ Leads nip c S O res.2 (S++new) [] rest ∧
      Sent c res.2 new ∧ (res.1 ≠ .ok → S++new=[]) := by
  obtain rfl := hi.direct hl hm
  rw [fwdNeeded]
  by_cases hnd : c.needFwd nip=true
  · rw [if_pos hnd]
    rw [needFwd,and_eq_true,not_eq_true',not_eq_true',onHold,or_eq_false_iff] at hnd
    have hU : U≠[] := by
      rintro rfl
      have hq : c.q.fwdQueue=S := by simpa using hi.layout.queue
      have hla : c.lastMsgSent=S.getLast? := by simpa using hi.layout.last
      have hd := hnd.2
      rw [drained,hq,hla] at hd
      cases S <;> simp at hd
    obtain ⟨res,new,rest,hr,hf⟩ := fwdUnsent_spec env hi.books hi.layout hU
    refine ⟨res,new,rest,hr,hf.leads hi hl hm fun _ => hnd.1.1,hf.sent,?_⟩
    intro hne
    exact (hf.rc.resolve_left hne).2
  · rw [if_neg hnd]
    exact ⟨(.ok,c),[],U,rfl,by simpa using Leads.refl hi,.refl c,fun h => absurd rfl h⟩

lemma clearRestricted_leads (hi : Inv nip c S [] U) (hl : c.live=true) : Leads nip c S [] c.clearRestricted S [] U where
  inv :=
    { books:=hi.books
      layout:=⟨hi.layout.queue,hi.layout.curr,hi.layout.last⟩
      paired:=hi.paired
      direct:=fun _ _ => rfl
      probing:=fun _ h => nomatch h
      dead:=by
        intro hd
        exact absurd (hl.symm.trans hd) (by decide)}
  track := id
  once ho := ⟨ho.handed,ho.only,(fun _ h => nomatch h),ho.count⟩
  has _ hr := hr

lemma fwdqReset_leads (hi : Inv nip c [] [] U) : Leads nip c [] [] c.fwdqReset [] [] [] where
  inv :=
    { books:=.empty
      layout:=⟨rfl,rfl,rfl⟩
      paired:=hi.paired
      direct:=fun _ _ => rfl
      probing:=fun _ _ _ => .inl (Nat.zero_le 1)
      dead:=hi.dead}
  track := id
  once ho := ho.of_empty rfl rfl
  has _ hr := hr.of_fwdqReset

lemma resetOnError_leads (rc : Rc) (hi : Inv nip c S O U) (hl : c.live=true) (hr : rc ≠ .ok → S++O=[]) :
    ∃S' O' U',Leads nip c S O (c.resetOnError rc) S' O' U' := by
  rw [resetOnError]
  split_ifs with h
  · exact ⟨S,O,U,.refl hi⟩
  · obtain ⟨rfl,rfl⟩ := append_eq_nil_iff.1 (hr h)
    have hc := clearRestricted_leads hi hl
    exact ⟨[],[],[],hc.trans (fwdqReset_leads hc.inv)⟩

lemma reenableIfDone_cases (hi : Inv nip c S O U) :
    (c.reenableIfDone=.ok (true,c.clearRestricted) ∧ S=[] ∧ O=[] ∧ U=[]) ∨ c.reenableIfDone=.ok (false,c) := by
  rw [reenableIfDone]
  by_cases hq : c.q.fwdQueue=[]
  · have hp := hi.layout.queue
    rw [hq,nil_eq_append_iff,append_eq_nil_iff] at hp
    obtain ⟨⟨rfl,rfl⟩,rfl⟩ := hp
    have hs : c.q.qsize=0 := by rw [hi.books.qsize,hq,length_nil]
    have hc : c.currMsgSent=none := hi.layout.curr
    have hl : c.lastMsgSent=none := hi.layout.last
    refine .inl ⟨?_,rfl,rfl,rfl⟩
    simp only [hq,ne_eq,not_true_eq_false,if_false,hs,hl,hc,Option.isSome_none,false_eq_true]
  · exact .inr (if_pos hq)

lemma endRepair_leads (rc : Rc) (hi : Inv nip c S [] U) (hl : c.live=true) :
    ∃c',c.endRepair rc=.ok (rc,c') ∧ Leads nip c S [] c' S [] U ∧ c'.live=true := by
  rw [endRepair]
  obtain ⟨h,-⟩ | h := reenableIfDone_cases hi
  · rw [h]
    exact ⟨c.clearRestricted,rfl,clearRestricted_leads hi hl,hl⟩
  · rw [h]
    exact ⟨c,rfl,.refl hi,hl⟩

section
variable {first : Bool} {res : Rc×SrvConn} {new O' U' : List Req}
lemma Resend.has {r : Req} (hr : Resend nip c first O U res new O' U') (hl : Layout c [] O U)
    (h : Has res.2 r) : Has c r := by
  have hq : c.q.fwdQueue=O++U := by simpa using hl.queue
  refine h.of_sent hr.sent ?_ ?_
  · intro a ha
    rw [hr.layout.queue] at ha
    rw [hq]
    exact hr.sublist.subset ha
  · intro a ha
    rw [hq]
    exact mem_append_left _ (hr.mem a (mem_append_left _ ha))

lemma Resend.leads (hi : Inv nip c [] O U) (hl : c.live=true) (hre : c.resend=true)
    (hq : c.qforwd=false) (hr : Resend nip c first O U res new O' U')
    (hn : Once nip c O → NoNipSent nip c) (hon : new.length≤1 ∨ res.2.ebadf=true) :
    Leads nip c [] O res.2 new O' U' where
  inv :=
    { books:=hr.books
      layout:=hr.layout
      paired:=by
        rw [hr.sent.paired,prefix_nil.1 hi.paired]
        exact nil_prefix
      direct:=by
        intro _ hd
        rw [hr.sent.resend,hr.sent.qforwd,hq] at hd
        exact absurd (hd hre) (by decide)
      probing:=by
        intro _ _ _
        rw [hr.sent.paired]
        exact hon.imp_right fun hb => ⟨hb,prefix_nil.1 hi.paired⟩
      dead:=by
        intro hd
        exact absurd (hl.symm.trans (hr.sent.live.symm.trans hd)) (by decide)}
  track ht := by simpa using ht.sent hr.sent
  once ho := by
    obtain ⟨hn',hP,hc⟩ := (hn ho).resend ho.handed ho.count hi.layout hr
    exact .of_noNipSent hP hn' hc
  has _ h := hr.has hi.layout h

lemma Resend.leads_qforwd (hi : Inv nip c [] O U) (hl : c.live=true)
    (hr : Resend nip c first O U res new O' U') (hn : Once nip c O → NoNipSent nip c)
    (hO' : O'=[]) : Leads nip c [] O {res.2 with qforwd:=true} new [] U' where
  inv :=
    { books:=hr.books
      layout:=hO' ▸ ⟨hr.layout.queue,hr.layout.curr,hr.layout.last⟩
      paired:=by
        show res.2.paired <+: new
        rw [hr.sent.paired,prefix_nil.1 hi.paired]
        exact nil_prefix
      direct:=fun _ _ => rfl
      probing:=fun _ _ h => nomatch h
      dead:=by
        intro hd
        exact absurd (hl.symm.trans (hr.sent.live.symm.trans hd)) (by decide)}
  track ht := by
    have htr := ht.sent hr.sent
    rw [nil_append] at htr
    exact htr
  once ho := by
    obtain ⟨hn',hP,hc⟩ := (hn ho).resend ho.handed ho.count hi.layout hr
    subst hO'
    exact .of_noNipSent hP hn' hc
  has _ h := hr.has hi.layout h

end

lemma fwdNeeded_endRepair_leads (env : Env) (hi : Inv nip c S O U) (hli : c.live=true)
    (hm : c.resend=true → c.qforwd=true) : ∃res S' U',(do let (rc,c) ← c.fwdNeeded nip env; c.endRepair rc)=.ok res ∧
      Leads nip c S O res.2 S' [] U' ∧ res.2.live=true ∧ (res.1 ≠ .ok → S'=[]) := by
  obtain ⟨res,new,rest,hr,hl,hs,hrc⟩ := fwdNeeded_leads env hi hli hm
  obtain ⟨c',he,hl',hli'⟩ := endRepair_leads res.1 hl.inv (hs.live.trans hli)
  refine ⟨(res.1,c'),S++new,rest,?_,hl.trans hl',hli',hrc⟩
  rw [hr]
  exact he

lemma fwdRepair_leads (env env' : Env) (hi : Inv nip c S O U) (hl : c.live=true)
    (hrs : c.resend=true) (hS : c.qforwd=false → S=[]) :
    ∃res S' O' U',c.fwdRepair nip env env'=.ok res ∧ Leads nip c S O res.2 S' O' U' ∧
      res.2.live=true ∧ (res.1 ≠ .ok → S'++O'=[]) := by
  rw [fwdRepair,hrs]
  obtain ⟨h,rfl,rfl,rfl⟩ | h := reenableIfDone_cases hi
  · rw [h]
    exact ⟨(.ok,c.clearRestricted),[],[],[],rfl,clearRestricted_leads hi hl,hl,fun hne => absurd rfl hne⟩
  · rw [h]
    cases hq : c.qforwd with
    | true =>
      obtain ⟨res,S',U',hre,hld,hl',hrc⟩ := fwdNeeded_endRepair_leads env' hi hl fun _ => hq
      refine ⟨res,S',[],U',?_,hld,hl',by simpa using hrc⟩
      simpa [bind,Except.bind,hq] using hre
    | false =>
      obtain rfl := hS hq
      have hn : Once nip c O → NoNipSent nip c := fun ho => ho.repair hl hrs hq
      obtain ⟨res,new,O',U',hre,hr⟩ := resendSent_spec env false hi.books hi.layout
      by_cases hb : res.1=.ebadf
      · have hld := hr.leads hi hl hrs hq hn (.inr (hr.broken hb).1)
        refine ⟨(.ok,res.2),new,O',U',?_,hld,hr.sent.live.trans hl,fun hne => absurd rfl hne⟩
        simp [bind,Except.bind,hq,hre,hb,pure,Except.pure]
      · have hO' : O'=[] := by
          cases hrc : res.1 with
          | ok => exact hr.done hrc (.inl rfl)
          | ebusy => exact (hr.busy hrc).1
          | ebadf => exact absurd hrc hb
          | other => exact absurd hrc hr.notOther
        have hld := hr.leads_qforwd hi hl hn hO'
        obtain ⟨res',S',U'',hr',hld',hl',hrc⟩ :=
          fwdNeeded_endRepair_leads env' hld.inv (hr.sent.live.trans hl) fun _ => rfl
        refine ⟨res',S',[],U'',?_,hld.trans hld',hl',by simpa using hrc⟩
        simpa [bind,Except.bind,hq,hre,hb] using hr'

variable {r : Req} {ps t : List Req}
lemma unlinkAnswered_leads (hi : Inv nip c S O U) (hli : c.live=true) (hp : c.paired=r::ps) :
    ∃S',S=r::S' ∧ Leads nip c S O (c.unlinkAnswered nip r) S' O U := by
  obtain ⟨t,ht⟩ := hi.paired
  rw [hp] at ht
  obtain rfl : S=r::(ps++t) := ht.symm
  refine ⟨ps++t,rfl,?_⟩
  have hqu : c.q.fwdQueue=r::(ps++t++O++U) := by simpa using hi.layout.queue
  have hr : r∉ps++t++O++U := (nodup_cons.1 (hqu ▸ hi.books.nodup)).1
  have hq : ((c.q.delist r).nipAdjust nip).fwdQueue=ps++t++O++U := by simp [hqu]
  have hla : (c.unlinkAnswered nip r).lastMsgSent=(ps++t++O).getLast? := by
    rw [unlinkAnswered,hi.layout.last]
    exact getLast?_unlink_head fun hm => hr (mem_append_left _ hm)
  have hme : ∀a∈ps++t++O++U,a∈c.q.fwdQueue := by
    intro a ha
    rw [hqu]
    exact mem_cons_of_mem r ha
  constructor
  · refine ⟨(hi.books.delist (by simp [hqu])).nipAdjust,⟨hq,?_,hla⟩,?_,hi.direct,?_,?_⟩
    · rw [unlinkAnswered,hi.layout.curr]
      refine getLast?_unlink_head fun hm => hr ?_
      exact mem_append_left _ (mem_append_left _ hm)
    · rw [unlinkAnswered,hp,erase_cons_head]
      exact prefix_append ps t
    · intro hl hre hqf
      obtain hon | ⟨-,hni⟩ := hi.probing hl hre hqf
      · rw [length_cons] at hon
        exact .inl (by omega)
      · rw [hp] at hni
        cases hni
    · intro hd
      exact absurd (hli.symm.trans hd) (by decide)
  · intro htr _
    obtain ⟨taken,hc,hw,hle⟩ := htr hli
    refine ⟨taken++[r],?_,?_,hle⟩
    · rw [unlinkAnswered,hp,erase_cons_head]
      simpa [hp] using hc
    · rw [append_assoc]
      exact hw
  · intro ho
    refine ⟨fun a ha => ho.handed a (mem_cons_of_mem r ha),?_,?_,ho.count⟩
    · intro a ha hn hh
      have haq : a∈ps++t++O++U := by
        rw [← hq]
        exact ha
      have hne : a≠r := fun h => hr (h ▸ haq)
      have hold := ho.only a (hme a haq) hn hh
      rw [unlinkAnswered,hold,if_neg (by simpa using hne)]
    · intro hl hre hqf a ha hn
      refine ho.repair hl hre hqf a (hme a ?_) hn
      rw [← hq]
      exact ha
  · intro a ha
    refine ha.imp_left fun h => hme a ?_
    rw [← hq]
    exact h

lemma popreq_leads (fwd : Bool) (env env' : Env) (hi : Inv nip c S O U) (hli : c.live=true) (hp : c.paired=r::ps) :
    ∃c' S' O' U',c.popreq nip fwd env env' r=.ok c' ∧ Leads nip c S O c' S' O' U' := by
  obtain ⟨S',rfl,hl⟩ := unlinkAnswered_leads hi hli hp
  rw [popreq]
  cases fwd with
  | false => exact ⟨_,S',O,U,rfl,hl⟩
  | true =>
    cases hr : (c.unlinkAnswered nip r).resend with
    | true =>
      have hS' : (c.unlinkAnswered nip r).qforwd=false → S'=[] := by
        intro hq
        obtain ho | ⟨-,hn⟩ := hi.probing hli hr hq
        · rw [length_cons] at ho
          exact length_eq_zero_iff.1 (by omega)
        · rw [hp] at hn
          cases hn
      obtain ⟨res,S₁,O₁,U₁,hok,hl1,hli1,hrc⟩ := fwdRepair_leads env env' hl.inv hli hr hS'
      obtain ⟨S₂,O₂,U₂,hl2⟩ := resetOnError_leads res.1 hl1.inv hli1 hrc
      refine ⟨_,S₂,O₂,U₂,?_,(hl.trans hl1).trans hl2⟩
      simp [hok,bind,Except.bind,pure,Except.pure]
    | false =>
      obtain ⟨res,new,rest,hok,hl1,hs,hrc⟩ :=
        fwdNeeded_leads env' hl.inv hli fun h => absurd (hr.symm.trans h) (by decide)
      obtain ⟨S₂,O₂,U₂,hl2⟩ := resetOnError_leads res.1 hl1.inv (hs.live.trans hli) (by simpa using hrc)
      refine ⟨_,S₂,O₂,U₂,?_,(hl.trans hl1).trans hl2⟩
      simp [hok,bind,Except.bind,pure,Except.pure]

lemma pairScan_all_paired {i : List Req} {x : Req} (hi : ∀a∈i++[x],a∈c.paired)
    (hx : c.currMsgSent=some x) : c.pairScan (i++x::t)=none := by
  induction i with
  | nil =>
    have hxp := hi x (by simp)
    simp [pairScan,hxp,hx]
  | cons a i ih =>
    have hap := hi a (by simp)
    have hr := ih fun b hb => hi b (mem_cons_of_mem a hb)
    simp [pairScan,hap,hr]

lemma pairScan_unpaired {p : List Req} {a : Req} (hp : ∀b∈p,b∈c.paired)
    (hc : ∀b∈p,c.currMsgSent≠some b) (ha : a∉c.paired) : c.pairScan (p++a::t)=some a := by
  induction p with
  | nil => simp [pairScan,ha]
  | cons b p ih =>
    have hbp := hp b (by simp)
    have hb := hc b (by simp)
    have hr := ih (fun d hd => hp d (mem_cons_of_mem b hd)) fun d hd => hc d (mem_cons_of_mem b hd)
    simp [pairScan,hbp,hb,hr]

lemma respPair_eq (hi : Inv nip c S O U) : ∃T,S=c.paired++T ∧ c.respPair=T.head? := by
  obtain ⟨T,rfl⟩ := hi.paired
  refine ⟨T,rfl,?_⟩
  have hc := hi.layout.curr
  have hq := hi.layout.queue
  rw [respPair]
  cases T with
  | nil =>
    rw [append_nil] at hc hq
    cases hx : c.paired.getLast? with
    | none => simp [hc,hx]
    | some x =>
      obtain ⟨i,hix⟩ := getLast?_eq_some_iff.1 hx
      rw [hx] at hc
      have hs := pairScan_all_paired (t := O++U) (fun a ha => hix ▸ ha) hc
      rw [if_neg (by simp [hc]),hq]
      simpa [hix] using hs
  | cons a T =>
    have hq' : c.q.fwdQueue=c.paired++a::(T++O++U) := by simpa using hq
    have hnd := hq' ▸ hi.books.nodup
    have hne : ∀b∈c.paired,c.currMsgSent≠some b := by
      intro b hb hbc
      rw [hc,getLast?_append_of_ne_nil _ (by simp)] at hbc
      have hm : b∈a::(T++O++U) := by
        have := mem_of_getLast? hbc
        simp only [mem_cons,mem_append] at this ⊢
        tauto
      exact (nodup_append.1 hnd).2.2 b hb b hm rfl
    have hso : c.currMsgSent.isNone=false := by
      rw [hc,getLast?_append_of_ne_nil _ (by simp)]
      simp [getLast?_cons]
    rw [if_neg (by simp [hso]),hq']
    exact pairScan_unpaired (fun b hb => hb) hne (nodup_cut hnd).1

lemma respond_inv (hi : Inv nip c S O U) (hli : c.live=true) (hb : c.ebadf=false) : Inv nip c.respond S O U := by
  obtain ⟨T,hS,hp⟩ := respPair_eq hi
  rw [respond,hp]
  cases T with
  | nil => exact hi
  | cons a T =>
    refine ⟨hi.books,⟨hi.layout.queue,hi.layout.curr,hi.layout.last⟩,⟨T,by simp [hS]⟩,
      hi.direct,?_,fun hd => absurd (hli.symm.trans hd) (by decide)⟩
    intro hl hr hq
    obtain ho | ⟨ht,-⟩ := hi.probing hl hr hq
    · exact .inl ho
    · exact absurd (hb.symm.trans ht) (by decide)

lemma respond_track (hi : Inv nip c S O U) (ht : Track c S)
    (ha : c.chosen.length<c.onWire.length ∨ c.pending=[]) : Track c.respond S := by
  obtain ⟨T,hS,hp⟩ := respPair_eq hi
  rw [respond,hp]
  cases T with
  | nil => exact ht
  | cons a T =>
    intro hli
    obtain ⟨taken,hc,hw,hl⟩ := ht hli
    refine ⟨taken,by simp [hc],hw,?_⟩
    show (c.chosen++[a]).length≤c.onWire.length
    rw [length_append,length_singleton]
    obtain hlt | hn := ha
    · exact hlt
    · have hln := congrArg List.length hw
      rw [hn,hS] at hln
      rw [hc,length_append] at hl ⊢
      simp only [length_append,length_nil,length_cons] at hln
      omega

lemma respond_once {P : List Req} (ho : Once nip c P) : Once nip c.respond P := by
  rw [respond]
  cases c.respPair with
  | none => exact ho
  | some a => exact ⟨ho.handed,ho.only,ho.repair,ho.count⟩

lemma respond_has (h : Has c.respond r) : Has c r := by
  rw [respond] at h
  cases hp : c.respPair with
  | none =>
    rw [hp] at h
    exact h
  | some a =>
    rw [hp] at h
    exact h
end SrvConn
end VetWaf.Http.FwdQueue
