import VetWaf.H2.FrameFsm

namespace VetWaf.H2
open List
open Rfc9113 (Frame)
open Outcome (Meets)
section
variable {f : Frame} {e : Answers} {pre tail : Bytes} {o u : Nat}

/-- What `ss_skb_process` gives for a buffer with the bytes `data`. -/
inductive Parsed (f : Frame) (e : Answers) (pre : Bytes) (o : Nat) (data : Bytes) (u : Nat) :
    Except Stop (Rc×TfwH2Ctx×Nat) → Prop
  | stop {s : Stop} : Coded s → Parsed f e pre o data u (.error s)
  | postponed {c : TfwH2Ctx} : At f e pre o c.state c (u+data.length) → (c.state.app=true → 0<c.toRead) →
      Parsed f e pre o data u (.ok (.postpone,c,data.length))
  | finished {c : TfwH2Ctx} {n : Nat} : n≤data.length → 0<n → Finished f pre o c (u+n) →
      Parsed f e pre o data u (.ok (.ok,c,n))

variable {c : TfwH2Ctx} {st : FrameState}
lemma parsed_ssSkbProcess {skb : List Bytes} (h : At f e pre o c.state c u)
    (hk : f.loses e=false) (hp : Ahead f pre tail u skb.flatten) (ha : c.state.app=true → 0<c.toRead) :
    Parsed f e pre o skb.flatten u (ssSkbProcess e c skb) := by
  induction skb generalizing c u with
  | nil => exact .postponed h ha
  | cons buf frags ih =>
    rw [flatten_cons] at hp ⊢
    have hb : Ahead f pre tail u buf := (prefix_append _ _).trans hp
    have hre := received_frameRecv h hk hb ha
    rw [ssSkbProcess]
    generalize frameRecv e c buf=r at hre
    cases hre with
    | stop hs => exact .stop hs
    | @postponed c' hat ha' =>
      have hrs : Ahead f pre tail (u+buf.length) frags.flatten := by
        have hd := hp.drop buf.length
        rwa [drop_left] at hd
      have hr := ih hat hrs ha'
      simp only [bind,Except.bind,if_true,length_nil,Nat.sub_zero]
      generalize ssSkbProcess e c' frags=r' at hr
      cases hr with
      | stop hs => exact .stop hs
      | @postponed c'' hat' ha'' =>
        change Parsed f e pre o _ u (.ok (.postpone,c'',buf.length+frags.flatten.length))
        rw [← length_append]
        refine .postponed ?_ ha''
        rw [length_append,← add_assoc]
        exact hat'
      | @finished c'' n hn hpo hf =>
        change Parsed f e pre o _ u (.ok (.ok,c'',buf.length+n))
        refine .finished ?_ (by omega) ?_
        · rw [length_append]
          omega
        · rw [← add_assoc]
          exact hf
    | @finished c' n hn hz hf =>
      have hpo : 0<n := Nat.pos_of_ne_zero fun h0 => hz h0
      have hl : buf.length-(buf.drop n).length=n := by
        rw [length_drop]
        omega
      simp only [bind,Except.bind,hl]
      refine .finished ?_ hpo hf
      rw [length_append]
      omega

lemma Coded.closeCode {s : Stop} (h : Coded s) : Coded (closeCode s) := by
  obtain ⟨err,rfl⟩ := h
  cases err with
  | sys n => exact coded_code _
  | _ => exact coded_code _

lemma flatten_skbRest (n : Nat) (skb : List Bytes) : (skbRest n skb).flatten=skb.flatten.drop n := by
  induction skb generalizing n with
  | nil => simp [skbRest]
  | cons buf frags ih =>
    rw [skbRest,flatten_cons]
    split_ifs with h
    · rw [ih,drop_append,drop_eq_nil_of_le h,nil_append]
    · rw [flatten_cons,drop_append_of_le_length (by omega)]

lemma chopHead_spec (skbs : List Bytes) (off : Nat) (hle : off ≤ skbs.flatten.length) :
    (∃pskb rest off',chopHead skbs off=(pskb::rest,off')) ∨ chopHead skbs off=([],0) ∧ skbs.flatten.length≤off := by
  induction skbs generalizing off with
  | nil =>
    right
    have h0 : off=0 := by simpa using hle
    rw [h0]
    exact ⟨rfl,le_rfl⟩
  | cons skb skbs ih =>
    rw [flatten_cons,length_append] at hle ⊢
    rw [chopHead]
    split_ifs with h
    · obtain hs | ⟨hn,ht⟩ := ih (off - skb.length) (by omega)
      · exact .inl hs
      · exact .inr ⟨hn,by omega⟩
    · exact .inl ⟨_,_,_,rfl⟩

namespace Conn

/-- The data at hand is passed on or dropped. -/
structure Passed (c : Conn) (r : Option Rc) (c' : Conn) : Prop where
  ctx : c'.ctx={c.ctx with dataOff:=0}
  skbHead : c'.skbHead=[]
  received : c'.received=c.received
  cur : c'.cur=c.cur
  back : r=none → c.ctx.state.app=true ∧ c.ctx.plen≠0 ∧ c.skbHead.flatten.length≤c.ctx.dataOff

lemma passed_purge (c : Conn) (r : Rc) (passed : List Bytes) :
    Passed c (some r) {c.purge with passed:=passed} := ⟨rfl,rfl,rfl,rfl,nofun⟩

lemma meets_msgProcess (e : Answers) (c : Conn) (pskb : Bytes) :
    Meets Coded (fun p => Passed c (some p.1) p.2) (c.msgProcess e pskb) := by
  unfold msgProcess
  cases e.msgProcess c.cur.length with
  | error err => exact coded_code _
  | ok r => exact passed_purge c r _

lemma meets_passData (e : Answers) (r : Rc) (c : Conn)
    (hle : c.ctx.state.app=true → c.ctx.plen≠0 → c.ctx.dataOff≤c.skbHead.flatten.length) :
    Meets Coded (fun p => Passed c p.1 p.2) (c.passData e r) := by
  unfold passData
  by_cases hc : c.ctx.curStream.isNone
  · rw [if_pos hc]
    exact passed_purge c r _
  · rw [if_neg hc]
    by_cases ha : c.ctx.state.app ∧ c.ctx.plen≠0
    · rw [if_pos ha]
      rcases chopHead_spec c.skbHead c.ctx.dataOff (hle ha.1 ha.2) with
        ⟨pskb,rest,off,hch⟩ | ⟨hch,ht⟩
      · rw [hch]
        apply Outcome.Meets.bind (meets_check (P := fun _ => True) trivial)
        intro _ _
        apply Outcome.Meets.bind (meets_msgProcess e c _)
        intro p hp
        exact hp
      · rw [hch]
        exact ⟨rfl,rfl,rfl,rfl,fun _ => ⟨ha.1,ha.2,ht⟩⟩
    · rw [if_neg ha]
      split_ifs
      · apply Outcome.Meets.bind (meets_msgProcess e c _)
        intro p hp
        exact hp
      · exact passed_purge c r _

structure Ready (c : Conn) : Prop where
  ctx : c.ctx={maxFrameSz:=c.ctx.maxFrameSz, lstreamId:=c.ctx.lstreamId}
  skbHead : c.skbHead=[]
  cur : c.cur=[]

/-- Inside a frame, with `u` bytes read since the connection was ready for it. -/
structure Mid (f : Frame) (e : Answers) (pre : Bytes) (c : Conn) (u : Nat) : Prop where
  at_frame : ∃o,c.skbHead.flatten.length+o=u ∧ At f e pre o c.ctx.state c.ctx u
  app : c.ctx.state.app=true → 0<c.ctx.toRead
  cur : c.cur=(pre++f.bytes).take u

lemma Ready.mid {c : Conn} (h : Ready c) (f : Frame) (e : Answers) : Mid f e [] c 0 where
  at_frame := by
    refine ⟨0,by simp [h.skbHead],?_⟩
    rw [h.ctx]
    exact ⟨rfl,rfl,rfl,⟨Nat.succ_pos _,rfl,rfl,rfl,rfl,rfl⟩⟩
  app := by
    rw [h.ctx]
    nofun
  cur := by
    rw [h.cur]
    rfl

end Conn

lemma At.dataOff_le (h : At f e pre o st c u) (ha : st.app=true) : o+c.dataOff≤u := by
  cases st with
  | recvHeader | recvCont | recvData => exact AtApp.dataOff h
  | recvAppDataPost => exact AtPost.dataOff h
  | _ => simp [FrameState.app] at ha

lemma At.purge (h : At f e pre o st c u) (ha : st.app=true) : At f e pre u st {c with dataOff:=0} u := by
  cases st with
  | recvHeader | recvCont | recvData => exact {h with dataOff:=le_rfl}
  | recvAppDataPost => exact {h with dataOff:=le_rfl}
  | _ => simp [FrameState.app] at ha

lemma size_eq (f : Frame) (pre : Bytes) : size f pre=(pre++f.bytes).length := by
  rw [length_append,Frame.length_bytes,size,add_assoc]
  rfl

lemma contextReinit_postponed (ha : c.state.app=true) : c.contextReinit true=c := by simp [TfwH2Ctx.contextReinit,ha]

lemma FrameState.app_ne_recvFrameHeader (h : st.app=true) : st ≠ .recvFrameHeader := by
  intro heq
  rw [heq] at h
  cases h

namespace Conn

/-- After `n` more bytes the connection is still inside the frame, or just behind it. -/
inductive Moved (f : Frame) (e : Answers) (pre : Bytes) (c : Conn) (u : Nat) (c' : Conn) : Prop
  | inside : Mid f e pre c' u → c'.received=c.received → Moved f e pre c u c'
  | behind : Ready c' → u=size f pre → c'.received=c.received++[pre++f.bytes] → Moved f e pre c u c'

lemma moved_reinit_postponed {c c1 c' : Conn} {r : Option Rc} (h : Passed c1 r c')
    (hat : At f e pre o c1.ctx.state c1.ctx u) (ha : c1.ctx.state.app=true)
    (ht : 0<c1.ctx.toRead) (hc : c1.cur=(pre++f.bytes).take u) (hr : c1.received=c.received) :
    Moved f e pre c u c' ∧ Moved f e pre c u (c'.reinit true) := by
  have ha' : c'.ctx.state.app=true := by
    rw [h.ctx]
    exact ha
  have hm : Moved f e pre c u c' := by
    refine .inside ⟨⟨u,?_,?_⟩,?_,h.cur.trans hc⟩ (h.received.trans hr)
    · simp [h.skbHead]
    · rw [h.ctx]
      exact hat.purge ha
    · rw [h.ctx]
      exact fun _ => ht
  refine ⟨hm,?_⟩
  rw [reinit,contextReinit_postponed ha',if_neg (FrameState.app_ne_recvFrameHeader ha')]
  exact hm

lemma moved_reinit_finished {c c1 c' : Conn} {r : Option Rc} (h : Passed c1 r c')
    (hf : Finished f pre o c1.ctx u) (hcu : c1.cur=(pre++f.bytes).take u)
    (hrec : c1.received=c.received) : Moved f e pre c u (c'.reinit false) := by
  have hrl := hf.rlen
  have hrd := hf.read
  have hc := h.ctx
  by_cases hp : c1.ctx.state.app=true ∧ c1.ctx.padlen≠0
  · -- the padding is skipped as the rest of the frame
    have hr : c'.ctx.contextReinit false = {c'.ctx with state:=.ignoreFrameData, toRead:=c'.ctx.padlen, padlen:=0} := by
      simp [TfwH2Ctx.contextReinit,hc,hp.1,hp.2]
    rw [reinit,hr,if_neg nofun]
    rw [if_pos hp.1] at hrd
    refine .inside ⟨⟨u,?_,?_⟩,nofun,h.cur.trans hcu⟩ (h.received.trans hrec)
    · simp [h.skbHead]
    · constructor
      · simp only [hc,hrl]
        omega
      · simp only [hc,hrl]
        omega
  · have hr : c'.ctx.contextReinit false={maxFrameSz:=c'.ctx.maxFrameSz, lstreamId:=c'.ctx.lstreamId} := by
      unfold TfwH2Ctx.contextReinit
      rw [if_pos]
      cases ha : c1.ctx.state.app with
      | false => simp [hc,ha]
      | true =>
        have h0 : c1.ctx.padlen=0 := by
          by_contra hne
          exact hp ⟨ha,hne⟩
        simp [hc,h0]
    have hs : u=size f pre := by
      rw [← hrd]
      split_ifs with ha
      · have h0 : c1.ctx.padlen=0 := by
          by_contra hne
          exact hp ⟨ha,hne⟩
        rw [h0,add_zero]
      · rfl
    rw [reinit,hr,if_pos rfl]
    refine .behind ⟨rfl,rfl,rfl⟩ hs ?_
    change c'.received++[c'.cur]=_
    rw [h.received,hrec,h.cur,hcu,hs,size_eq,take_length]

end Conn

lemma AtHeader.le_size (h : AtHeader f pre c u) : u ≤ size f pre := by
  have hr := h.read
  have hrl := h.rlen
  rw [size]
  omega

lemma AtPart.le_size {n : Nat} (h : AtPart f pre n c u) : u ≤ size f pre := by
  have hr := h.read
  have hrl := h.rlen
  have hl := h.length
  omega

lemma AtApp.le_size (h : AtApp f e pre o st c u) : u ≤ size f pre := by
  have hr := h.read
  omega

lemma AtPri.le_size (h : AtPri f e c u) : u ≤ size f [] := by
  have hr := h.read
  have hrl := h.rlen
  have hl := h.length
  have hn := h.nonneg
  rw [Frame.content] at hl
  rw [size,length_nil]
  omega

lemma At.le_size (h : At f e pre o st c u) : u ≤ size f pre := by
  cases st with
  | recvCliStartSeq =>
    obtain ⟨hp,hrl,hr,-⟩ := h
    rw [size,hp]
    omega
  | recvFirstSettings => exact AtHeader.le_size h
  | recvFrameHeader => exact h.2.2.2.le_size
  | recvFramePriority | recvFrameRstStream =>
    obtain ⟨-,-,n,hpa⟩ := h
    exact hpa.le_size
  | recvFrameWndUpdate | recvFramePing =>
    obtain ⟨-,n,hpa⟩ := h
    exact hpa.le_size
  | recvFrameSettings => exact h.2.le_size
  | recvFrameGoaway => exact AtPart.le_size h
  | recvFramePadded =>
    obtain ⟨hp,-,hpad⟩ := h
    rw [hp]
    exact hpad.toAtPart.le_size
  | recvHeaderPri =>
    obtain ⟨hp,-,hpr⟩ := h
    rw [hp]
    exact hpr.le_size
  | ignoreFrameData =>
    have hr := AtIgnored.read h
    have hrl := AtIgnored.rlen h
    omega
  | recvHeader | recvCont | recvData => exact AtApp.le_size h
  | recvAppDataPost =>
    have hr := AtPost.read h
    omega

lemma Finished.le_size (h : Finished f pre o c u) : u ≤ size f pre := by
  have hr := h.read
  omega

lemma Ahead.take_append {data : Bytes} {n : Nat} (h : Ahead f pre tail u data)
    (hn : n≤data.length) (hs : u+n ≤ size f pre) : (pre++f.bytes).take u++data.take n=(pre++f.bytes).take (u+n) := by
  rw [size_eq] at hs
  rw [Ahead,drop_append_of_le_length (by omega)] at h
  obtain ⟨more,hm⟩ := h
  have ht : data.take n=((pre++f.bytes).drop u).take n := by
    calc data.take n=(data++more).take n := (take_append_of_le_length hn).symm
      _ = ((pre++f.bytes).drop u++tail).take n := by rw [hm]
      _ = ((pre++f.bytes).drop u).take n := by
        apply take_append_of_le_length
        rw [length_drop]
        omega
  rw [ht,take_add]

namespace Conn

/-- What a round of `tfw_h2_frame_process` comes to. -/
def Rounded (f : Frame) (e : Answers) (pre : Bytes) (c : Conn) (u : Nat) (data : Bytes)
    (p : Rc×Conn×Option (List Bytes)) : Prop :=
  match p.2.2 with
  | none => Moved f e pre c (u+data.length) p.2.1
  | some rest => ∃n,0<n ∧ n<data.length ∧ rest.flatten=data.drop n ∧ Moved f e pre c (u+n) p.2.1

lemma meets_frameRound {c : Conn} {skb : List Bytes} (hm : Mid f e pre c u)
    (hk : f.loses e=false) (hp : Ahead f pre tail u skb.flatten) :
    Meets Coded (Rounded f e pre c u skb.flatten) (frameRound e c skb) := by
  obtain ⟨o,ho,hat⟩ := hm.at_frame
  have hsk := parsed_ssSkbProcess hat hk hp hm.app
  unfold frameRound
  by_cases hd : skb.flatten=[]
  · rw [if_pos hd]
    exact (coded_code _).closeCode
  simp only [if_neg hd]
  generalize ssSkbProcess e c.ctx skb=r at hsk
  cases hsk with
  | stop hs => exact hs.closeCode
  | @postponed h ha' ha =>
    have hc : c.cur++skb.flatten=(pre++f.bytes).take (u+skb.flatten.length) := by
      have ht := hp.take_append le_rfl ha'.le_size
      rwa [take_length,← hm.cur] at ht
    simp only [take_length,lt_irrefl,false_and,if_false]
    rw [if_neg nofun]
    by_cases hst : h.state.app=true
    · simp only [hst,Bool.not_true,Bool.false_eq_true,and_false,if_false]
      refine Outcome.Meets.bind (meets_passData e .postpone _ ?_) ?_
      · intro _ _
        have hof := ha'.dataOff_le hst
        simp only [flatten_append,flatten_singleton,length_append]
        omega
      · intro p hpa
        have hmo := moved_reinit_postponed (c := c) hpa ha' hst (ha hst) hc rfl
        cases p.1 with
        | none => exact hmo.1
        | some r' => exact hmo.2
    · -- a header or a service frame goes on with the next buffer
      simp only [Bool.not_eq_true] at hst
      simp only [hst,Bool.not_false,and_self,if_true]
      refine .inside ⟨⟨o,?_,ha'⟩,ha,hc⟩ rfl
      simp only [flatten_append,flatten_singleton,length_append]
      omega
  | @finished h n hn hpo hf =>
    have hc : c.cur++skb.flatten.take n=(pre++f.bytes).take (u+n) := by
      rw [hm.cur]
      exact hp.take_append hn hf.le_size
    have hto : (c.skbHead++[skb.flatten.take n]).flatten.length+o=u+n := by
      simp only [flatten_append,flatten_singleton,length_append,length_take]
      omega
    simp only
    rw [if_neg nofun,if_neg nofun]
    by_cases hsp : n<skb.flatten.length ∧ !e.split (c.cur++skb.flatten.take n).length
    · rw [if_pos hsp]
      exact coded_code _
    rw [if_neg hsp]
    refine Outcome.Meets.bind (meets_passData e .ok _ ?_) ?_
    · intro ha hpl
      obtain hof | h0 := hf.data ha
      · simp only
        omega
      · exact absurd h0 hpl
    · intro p hpa
      have hmo := moved_reinit_finished (e := e) (c := c) hpa hf hc rfl
      cases hp1 : p.1 with
      | none =>
        obtain ⟨ha,hpl,hle⟩ := hpa.back hp1
        obtain hof | h0 := hf.data ha
        · simp only at hle
          omega
        · exact absurd h0 hpl
      | some r' =>
        by_cases hlt : n<skb.flatten.length
        · simp only [if_pos hlt]
          exact ⟨n,hpo,hlt,flatten_skbRest n skb,hmo⟩
        · simp only [if_neg hlt]
          have heq : n=skb.flatten.length := by omega
          change Moved f e pre c (u+skb.flatten.length) (p.2.reinit false)
          rwa [← heq]
end Conn
end
end VetWaf.H2
