import VetWaf.Lib.Run
import VetWaf.H2.StreamFsm

namespace VetWaf.H2
open List Run H2Ctx

/-- What the connection's history keeps of a frame. -/
inductive StreamEvent where
  | frame (send : Bool) (id : Nat) (type : TfwFrameType) (flags : UInt8) (res : TfwStreamFsmRes)
      (state : TfwStreamState)
  | clean (id : Nat)
  deriving DecidableEq

namespace StreamEvent

def headers (send : Bool) : StreamEvent → Bool
  | frame send' _ type _ res _ => send' == send && res == .ok && type.isHeaders
  | clean _ => false

/-- A frame of a header block on stream `id` that was accepted and does not end the block. -/
def opens (send : Bool) (id : Nat) : StreamEvent → Bool
  | frame send' id' type flags res _ =>
    send' == send && res == .ok && type.isHeaders && id' == id && !hasFlag flags fEndHeaders
  | clean _ => false

/-- Stream `id` is reset, closed or deleted. -/
def ends (id : Nat) : StreamEvent → Bool
  | frame _ id' type _ res state =>
    id' == id && (type == .rstStream || res == .termStream || state == .closed || state == .locClosed)
  | clean id' => id' == id

end StreamEvent

/-- The last HEADERS or CONTINUATION frame accepted in the direction was on stream `id` and lacked END_HEADERS,
and the stream was not reset, closed or deleted since. -/
def OpenBlock (send : Bool) (id : Nat) (log : List StreamEvent) : Prop :=
  ∃since e before,log=since++e::before ∧ e.opens send id=true ∧ ∀e'∈since,e'.headers send=false ∧ e'.ends id=false

lemma not_openBlock_nil (send : Bool) (id : Nat) : ¬OpenBlock send id [] := by
  rintro ⟨since,e,before,h,-⟩
  simp at h

variable {send : Bool}
lemma openBlock_cons {id : Nat} {e : StreamEvent} {log : List StreamEvent} :
    OpenBlock send id (e::log) ↔ e.opens send id=true ∨
        e.headers send=false ∧ e.ends id=false ∧ OpenBlock send id log := by
  constructor
  · rintro ⟨since,e',before,hl,ho,hs⟩
    cases since with
    | nil =>
      cases hl
      exact .inl ho
    | cons e'' since =>
      cases hl
      obtain ⟨hh,he⟩ := hs e (.head _)
      exact .inr ⟨hh,he,since,e',before,rfl,ho,fun x hx => hs x (.tail _ hx)⟩
  · rintro (ho | ⟨hh,he,since,e',before,rfl,ho,hs⟩)
    · exact ⟨[],e,log,rfl,ho,fun x hx => absurd hx not_mem_nil⟩
    · refine ⟨e::since,e',before,rfl,ho,?_⟩
      intro x hx
      obtain rfl | hx := mem_cons.1 hx
      · exact ⟨hh,he⟩
      · exact hs x hx

structure StreamConn where
  ctx : H2Ctx
  log : List StreamEvent := []
  deriving DecidableEq

/-- What happens to the streams of a connection. -/
inductive StreamOp where
  | create (id : Nat)
  | frame (send : Bool) (id : Nat) (type : TfwFrameType) (flags : UInt8) (recv : TfwH2Ctx)
  | clean (id : Nat)
  deriving DecidableEq

/-- A frame is for a stream that exists. -/
def streamStep (c : StreamConn) : StreamOp → Option StreamConn
  | .create id => (c.ctx.streamCreate id).map fun ctx => {c with ctx:=ctx}
  | .frame send id type flags recv =>
    (c.ctx.findStream id).bind fun s =>
      (streamFsm {c.ctx with recv:=recv} s type flags send).map fun f =>
        { ctx:=f.ctx.setStream f.stream
          log:=.frame send id type flags f.res f.stream.state::c.log}
  | .clean id => some {ctx:=c.ctx.streamClean id, log:=.clean id::c.log}

/-- The open blocks are tracked, and on streams that may have one. -/
structure BlockInv (c : StreamConn) : Prop where
  tracked : ∀send id,c.ctx.curHeaders send=some id ↔ OpenBlock send id c.log
  place : ∀send t,t∈c.ctx.streams → c.ctx.curHeaders send=some t.id → mayOpen send t.state
  live : ∀send id,c.ctx.curHeaders send=some id → ∃t∈c.ctx.streams,t.id=id

/-- No HEADERS frame with END_HEADERS but without END_STREAM comes on an open stream. -/
def noReopen (c : StreamConn) : StreamOp → Bool
  | .frame _ id type flags _ => (c.ctx.findStream id).all fun s => !reopens s type flags
  | _ => true

lemma not_mayOpen {state : TfwStreamState} (h : state=.closed ∨ state=.locClosed) : ¬mayOpen send state := by
  rcases h with rfl | rfl <;> cases send <;> simp [mayOpen,halfClosed]

section
variable {c : StreamConn} {s : TfwStream} {type : TfwFrameType} {flags : UInt8} {send : Bool}
  {recv : TfwH2Ctx} {f : Fsm}

lemma curHeaders_of_effect {dir : Bool} {id : Nat} (he : Effect {c.ctx with recv:=recv} s type flags send f)
    (hh : (StreamEvent.frame send s.id type flags f.res f.stream.state).headers dir=false) :
    f.ctx.curHeaders dir=some id ↔ c.ctx.curHeaders dir=some id ∧
        ¬(s.id=id ∧ (type=.rstStream ∨ f.res=.termStream)) := by
  have hc : f.ctx.curHeaders dir = if (type=.rstStream ∨ f.res=.termStream) ∧ c.ctx.curHeaders dir=some s.id then none
      else c.ctx.curHeaders dir := by
    by_cases hd : dir=send
    · subst hd
      rw [he.cur,if_neg]
      · rfl
      · intro ha
        simp [StreamEvent.headers,ha.1,ha.2] at hh
    · have hd' : dir = !send := by cases dir <;> cases send <;> simp_all
      subst hd'
      exact he.other
  rw [hc]
  split_ifs with hre
  · constructor
    · intro hn
      cases hn
    · intro h
      have heq := h.1
      rw [hre.2,Option.some.injEq] at heq
      exact absurd ⟨heq,hre.1⟩ h.2
  · constructor
    · intro heq
      refine ⟨heq,?_⟩
      rintro ⟨rfl,hr⟩
      exact hre ⟨hr,heq⟩
    · intro h
      exact h.1

lemma BlockInv.frame (h : BlockInv c) (hs : c.ctx.findStream s.id=some s) (hre : reopens s type flags=false)
    (hf : streamFsm {c.ctx with recv:=recv} s type flags send=some f) : BlockInv
      { ctx:=f.ctx.setStream f.stream
        log:=.frame send s.id type flags f.res f.stream.state::c.log} := by
  have he := effect_streamFsm hre hf
  obtain ⟨hm,-⟩ := findStream_eq_some hs
  have hstr : f.ctx.streams=c.ctx.streams := he.streams
  have hc : ∀dir,(f.ctx.setStream f.stream).curHeaders dir=f.ctx.curHeaders dir := by
    intro dir
    cases dir <;> rfl
  -- what is kept open is on a stream that may have an open block
  have hp : ∀dir t,t∈(f.ctx.setStream f.stream).streams → f.ctx.curHeaders dir=some t.id → mayOpen dir t.state := by
    intro dir t ht ho
    obtain rfl | ⟨ht,hne⟩ := mem_setStream ht
    · rw [he.id] at ho
      exact he.place dir (h.place dir s hm) ho
    · rw [he.id] at hne
      rw [hstr] at ht
      exact h.place dir t ht (he.curHeaders_of_ne hne ho)
  have hse : f.stream∈(f.ctx.setStream f.stream).streams := by
    apply mem_map.2
    refine ⟨s,hstr ▸ hm,?_⟩
    rw [if_pos he.id.symm]
  constructor
  · intro dir id
    rw [hc,openBlock_cons]
    by_cases hh : (StreamEvent.frame send s.id type flags f.res f.stream.state).headers dir=true
    · simp only [StreamEvent.headers,Bool.and_eq_true,beq_iff_eq] at hh
      obtain ⟨⟨rfl,hok⟩,hty⟩ := hh
      rw [he.cur,if_pos ⟨hok,hty⟩]
      cases heh : hasFlag flags fEndHeaders <;> simp [StreamEvent.headers,StreamEvent.opens,hok,hty,heh]
    · rw [Bool.not_eq_true] at hh
      have hop : (StreamEvent.frame send s.id type flags f.res f.stream.state).opens dir id=false := by
        cases hop : (StreamEvent.frame send s.id type flags f.res f.stream.state).opens dir id with
        | false => rfl
        | true =>
          simp only [StreamEvent.opens,Bool.and_eq_true] at hop
          simp [StreamEvent.headers,hop.1.1.1.1,hop.1.1.1.2,hop.1.1.2] at hh
      rw [hop,hh,← h.tracked]
      have hk : f.ctx.curHeaders dir=some id ↔ c.ctx.curHeaders dir=some id ∧
          ¬(s.id=id ∧ (type=.rstStream ∨ f.res=.termStream)) := curHeaders_of_effect he hh
      constructor
      · intro ho
        refine .inr ⟨rfl,?_,(hk.1 ho).1⟩
        -- a stream that is closed has no open block
        have hst : s.id=id → ¬(f.stream.state=.closed ∨ f.stream.state=.locClosed) := by
          rintro rfl hcl
          rw [← he.id] at ho
          exact not_mayOpen hcl (hp dir f.stream hse ho)
        have hr := (hk.1 ho).2
        by_cases hid : s.id=id
        · have hcl := hst hid
          simp_all [StreamEvent.ends]
        · simp [StreamEvent.ends,hid]
      · rintro (hfa | ⟨-,hed,ho⟩)
        · cases hfa
        · refine hk.2 ⟨ho,?_⟩
          rintro ⟨rfl,hr⟩
          obtain rfl | hte := hr
          · simp [StreamEvent.ends] at hed
          · simp [StreamEvent.ends,hte] at hed
  · intro dir t ht ho
    rw [hc] at ho
    exact hp dir t ht ho
  · intro dir id ho
    rw [hc] at ho
    by_cases hid : id=s.id
    · exact ⟨f.stream,hse,he.id.trans hid.symm⟩
    · obtain ⟨t,ht,hti⟩ := h.live dir id (he.curHeaders_of_ne hid ho)
      have hne : t.id≠f.stream.id := by
        rw [he.id,hti]
        exact hid
      refine ⟨t,mem_map.2 ⟨t,hstr ▸ ht,if_neg hne⟩,hti⟩

lemma BlockInv.create {ctx : H2Ctx} {id : Nat} (h : BlockInv c)
    (hc : c.ctx.streamCreate id=some ctx) : BlockInv {c with ctx:=ctx} := by
  rw [streamCreate] at hc
  split_ifs at hc with hs
  cases hc
  rw [findStream_isSome] at hs
  have hcu : ∀dir,curHeaders {c.ctx with
        streams:=c.ctx.streams++[{id:=id, remWnd:=c.ctx.rsettings.wndSz}]
        log:=.created id::c.ctx.log} dir=c.ctx.curHeaders dir := by
    intro dir
    cases dir <;> rfl
  constructor
  · intro dir i
    rw [hcu]
    exact h.tracked dir i
  · intro dir t ht ho
    rw [hcu] at ho
    obtain hold | hn := mem_append.1 ht
    · exact h.place dir t hold ho
    · rw [mem_singleton.1 hn] at ho
      exact absurd (h.live dir id ho) hs
  · intro dir i ho
    rw [hcu] at ho
    obtain ⟨t,ht,hid⟩ := h.live dir i ho
    exact ⟨t,mem_append_left _ ht,hid⟩

lemma BlockInv.clean (h : BlockInv c) (id : Nat) : BlockInv {ctx:=c.ctx.streamClean id, log:=.clean id::c.log} := by
  have hc : ∀dir,(c.ctx.streamClean id).curHeaders dir =
      if c.ctx.curHeaders dir=some id then none else c.ctx.curHeaders dir := by
    intro dir
    cases dir <;> rfl
  have ho : ∀dir i,(c.ctx.streamClean id).curHeaders dir=some i ↔ c.ctx.curHeaders dir=some i ∧ i≠id := by
    intro dir i
    rw [hc]
    split_ifs with heq
    · simp [heq,eq_comm]
    · constructor
      · intro hi
        refine ⟨hi,?_⟩
        rintro rfl
        exact heq hi
      · intro hi
        exact hi.1
  constructor
  · intro dir i
    rw [ho,openBlock_cons,h.tracked]
    have he : (StreamEvent.clean id).ends i=false ↔ i≠id := by
      rw [StreamEvent.ends,beq_eq_false_iff_ne]
      exact ne_comm
    simp only [StreamEvent.opens,StreamEvent.headers,he,Bool.false_eq_true,false_or,true_and]
    exact and_comm
  · intro dir t ht hi
    exact h.place dir t (mem_of_mem_filter ht) ((ho dir t.id).1 hi).1
  · intro dir i hi
    obtain ⟨hold,hne⟩ := (ho dir i).1 hi
    obtain ⟨t,ht,rfl⟩ := h.live dir i hold
    exact ⟨t,mem_filter.2 ⟨ht,by simpa using hne⟩,rfl⟩

end

lemma blockInv_step (c : StreamConn) (op : StreamOp) (c' : StreamConn) (h : BlockInv c)
    (ho : noReopen c op=true) (hst : streamStep c op=some c') : BlockInv c' := by
  cases op with
  | create id =>
    obtain ⟨ctx,hc,rfl⟩ := Option.map_eq_some_iff.1 hst
    exact h.create hc
  | frame send id type flags recv =>
    obtain ⟨s,hs,hm⟩ := Option.bind_eq_some_iff.1 hst
    obtain ⟨f,hf,rfl⟩ := Option.map_eq_some_iff.1 hm
    obtain ⟨-,rfl⟩ := findStream_eq_some hs
    have hr : reopens s type flags=false := by simpa [noReopen,hs] using ho
    exact h.frame hs hr hf
  | clean id =>
    cases hst
    exact h.clean id

lemma continues_open_block {c : H2Ctx} {s : TfwStream} {type : TfwFrameType} {flags : UInt8}
    {f : Fsm} {id : Nat} (hc : c.curHeaders send=some id)
    (hf : streamFsm c s type flags send=some f) (hok : f.res=.ok) (hr : type ≠ .rstStream) :
    s.id=id ∧ type=.continuation := by
  obtain ⟨m,rfl,⟨hch,-⟩ | ⟨-,rfl⟩⟩ := streamFsm_eq_some hf
  · obtain ⟨ht,hs⟩ | ⟨-,hn⟩ := curHeaders_of_fsmCheck hch
    · rw [hc,Option.some.injEq] at hs
      exact ⟨hs.symm,ht.resolve_right hr⟩
    · rw [hc] at hn
      cases hn
  · simp at hok

/-- As long as no open stream gets a HEADERS frame with END_HEADERS and without END_STREAM, the pointers of both
directions say whose header block is open. -/
theorem header_blocks_tracked {recv : TfwH2Ctx} {ops : List StreamOp} {c : StreamConn}
    (hops : along streamStep noReopen {ctx:={recv:=recv}} ops=true)
    (hrun : run streamStep {ctx:={recv:=recv}} ops=some c) (send : Bool) (id : Nat) :
    (c.ctx.curHeaders send=some id ↔ OpenBlock send id c.log) ∧
      (c.ctx.curHeaders send=some id → ∀ (recv : TfwH2Ctx) (s : TfwStream) (type : TfwFrameType)
        (flags : UInt8) (f : Fsm),type ≠ .rstStream →
        streamFsm {c.ctx with recv:=recv} s type flags send=some f → f.res=.ok → s.id=id ∧ type=.continuation) := by
  have hinit : BlockInv {ctx:={recv:=recv}} := by
    constructor
    · intro dir i
      cases dir <;> simp [curHeaders,not_openBlock_nil]
    · intro dir t ht
      cases ht
    · intro dir i ho
      cases dir <;> cases ho
  have hi := run_invariant_along streamStep blockInv_step hinit hops hrun
  refine ⟨hi.tracked send id,?_⟩
  intro hc recv s type flags f hr hf hok
  have hc' : curHeaders {c.ctx with recv:=recv} send=some id := by cases send <;> exact hc
  exact continues_open_block hc' hf hok hr

/-- A request in two frames, and the response headers, whose block is left open by its first frame. -/
theorem header_blocks_tracked_two_frames : ∃c : StreamConn,run streamStep {ctx:={recv:={maxFrameSz:=16384}}}
        [.create 1,.frame false 1 .headers fEndStream {maxFrameSz:=16384},
          .frame false 1 .continuation fEndHeaders {maxFrameSz:=16384, plen:=5},
          .frame true 1 .headers 0 {maxFrameSz:=16384}]=some c ∧
      c.ctx.curHeaders true=some 1 ∧ OpenBlock true 1 c.log := by
  refine ⟨_,rfl,rfl,?_⟩
  refine (@header_blocks_tracked {maxFrameSz:=16384}
    [.create 1,.frame false 1 .headers fEndStream {maxFrameSz:=16384},
      .frame false 1 .continuation fEndHeaders {maxFrameSz:=16384, plen:=5},
      .frame true 1 .headers 0 {maxFrameSz:=16384}] _ ?_ rfl true 1).1.1 rfl
  decide +kernel

/-- The headers of a response that is sent before the end of the request. -/
theorem response_headers_leave_block_open : let ops : List StreamOp :=
      [.create 1,.frame false 1 .headers fEndHeaders {maxFrameSz:=16384},
        .frame true 1 .headers fEndHeaders {maxFrameSz:=16384}]
    let data : StreamOp := .frame true 1 .data 0 {maxFrameSz:=16384, plen:=5}
    (∃c,run streamStep {ctx:={recv:={maxFrameSz:=16384}}} ops=some c ∧
        c.ctx.curHeaders true=some 1 ∧ ¬OpenBlock true 1 c.log) ∧
      (run streamStep {ctx:={recv:={maxFrameSz:=16384}}} (ops++[data])).map (fun c => c.log.head?) =
        some (some (.frame true 1 .data 0 .termConn .opened)) := by
  refine ⟨⟨_,rfl,rfl,?_⟩,by decide +kernel⟩
  rw [openBlock_cons]
  rintro (ho | ⟨hh,-⟩)
  · exact absurd ho (by decide +kernel)
  · exact absurd hh (by decide +kernel)
end VetWaf.H2
