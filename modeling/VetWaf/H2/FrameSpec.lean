import VetWaf.Lib.Outcome
import VetWaf.Rfc9113.Frame
import VetWaf.H2.FrameProcess

namespace VetWaf.Rfc9113.Frame
open VetWaf.H2

def hdr (f : Frame) : TfwFrameHdr := unpackFrameHeader f.header
def padded (f : Frame) : Bool := (f.hdr.type == .data || f.hdr.type == .headers) && f.hdr.has fPadded
def lead (f : Frame) : Nat := if f.padded then 1 else 0
def padLength (f : Frame) : Nat := if f.padded then (f.payload.getD 0 0).toNat else 0
def prioritized (f : Frame) : Bool := f.hdr.type == .headers && f.hdr.has fPriority
def content (f : Frame) : Int := f.payload.length-f.lead-f.padLength

def selfDependent (f : Frame) : Bool := f.prioritized &&
    (unpackPriority ((f.payload.drop f.lead).take framePrioritySize)).streamId == f.hdr.streamId

def refused (f : Frame) (e : Answers) : Bool := f.hdr.type == .headers && !e.found && e.maxStreams

/-- The FSM is out of step after frames of nothing but padding, HEADERS frames of nothing but a priority block,
and padded frames that the stream does not accept. -/
def loses (f : Frame) (e : Answers) : Bool := !f.refused e && ((f.padLength != 0 && f.content == 0) ||
      (f.prioritized && f.content == framePrioritySize && f.padLength != framePrioritySize) ||
      (f.padLength != 0 && decide (f.content > if f.prioritized then (framePrioritySize : Int) else 0)
        && (e.streamFsm != .ok || f.selfDependent)))

lemma ntoh_take_four {b0 b1 b2 b3 : UInt8} : ntoh [b0,b1,b2,b3] >>> 8=ntoh [b0,b1,b2] := by
  have h3 := b3.toNat_lt
  simp only [ntoh,List.foldl_cons,List.foldl_nil,Nat.shiftRight_eq_div_pow]
  omega

lemma hdr_length (f : Frame) : f.hdr.length=f.payload.length := by
  rw [f.payload_length,hdr,unpackFrameHeader]
  obtain ⟨b0,b1,b2,b3,rest,hr⟩ : ∃b0 b1 b2 b3 rest,f.header=b0::b1::b2::b3::rest := by
    have hl := f.header_length
    match f.header, hl with
    | b0::b1::b2::b3::rest, _ => exact ⟨b0,b1,b2,b3,rest,rfl⟩
  simp [hr,ntoh_take_four]

end VetWaf.Rfc9113.Frame

namespace VetWaf.H2
open Rfc9113 (Frame)
open Outcome (Meets)

/-- The frame's header, without the length, is in the context. -/
structure HdrOf (f : Frame) (c : TfwH2Ctx) : Prop where
  type : c.hdr.type=f.hdr.type
  flags : c.hdr.flags=f.hdr.flags
  streamId : c.hdr.streamId=f.hdr.streamId

/-- The bytes from the moment that the FSM was ready to the end of the frame. -/
def size (f : Frame) (pre : Bytes) : Nat := pre.length+frameHeaderSize+f.payload.length

structure AtHeader (f : Frame) (pre : Bytes) (c : TfwH2Ctx) (u : Nat) : Prop where
  rlen : c.rlen<frameHeaderSize
  read : u=pre.length+c.rlen
  rbuf : c.rbuf.take c.rlen=f.header.take c.rlen
  toRead : c.toRead=0
  padlen : c.padlen=0
  priority : c.priority.streamId=0

/-- Collecting the `n` bytes at hand. -/
structure AtPart (f : Frame) (pre : Bytes) (n : Nat) (c : TfwH2Ctx) (u : Nat) : Prop where
  toRead : c.toRead=n
  small : n≤frameHeaderSize
  rlen : c.rlen<n
  length : 0≤c.hdr.length
  read : (u+n+c.hdr.length : Int)=size f pre+c.rlen

structure AtPadded (f : Frame) (e : Answers) (c : TfwH2Ctx) (u : Nat) : Prop
    extends HdrOf f c, AtPart f [] 1 c u where
  padded : f.padded=true
  refused : f.refused e=false
  dataOff : c.dataOff=u
  start : u=frameHeaderSize
  priority : c.priority.streamId=0
  stream : f.hdr.streamId≠0
  curStream : f.hdr.type=.data → c.curStream.isSome

structure AtPri (f : Frame) (e : Answers) (c : TfwH2Ctx) (u : Nat) : Prop extends HdrOf f c where
  toRead : c.toRead=framePrioritySize
  rlen : c.rlen<framePrioritySize
  length : c.hdr.length=f.content-framePrioritySize
  nonneg : 0≤c.hdr.length
  read : u=frameHeaderSize+f.lead+c.rlen
  rbuf : c.rbuf.take c.rlen=(f.payload.drop f.lead).take c.rlen
  padlen : c.padlen=f.padLength
  prioritized : f.prioritized=true
  refused : f.refused e=false
  dataOff : c.dataOff+c.rlen=u

/-- Reading the first application data. -/
structure AtApp (f : Frame) (e : Answers) (pre : Bytes) (o : Nat) (st : FrameState) (c : TfwH2Ctx)
    (u : Nat) : Prop extends HdrOf f c where
  state : c.state=st
  length : c.hdr.length=0
  rlen : c.rlen=0
  padlen : c.padlen=f.padLength
  read : u+c.toRead+c.padlen=size f pre
  refused : f.refused e=false
  content : c.padlen≠0 → f.content > if f.prioritized then (framePrioritySize : Int) else 0
  dataOff : o+c.dataOff≤u
  plen : c.toRead=0 → c.plen=0
  depends : st=.recvHeader → (c.priority.streamId=c.hdr.streamId ↔ f.selfDependent=true)
  curStream : st ≠ .recvHeader → c.curStream.isSome

structure AtPost (f : Frame) (pre : Bytes) (o : Nat) (c : TfwH2Ctx) (u : Nat) : Prop where
  rlen : c.rlen=0
  toRead : 0<c.toRead
  read : u+c.toRead+c.padlen=size f pre
  dataOff : o+c.dataOff≤u

structure AtIgnored (f : Frame) (pre : Bytes) (c : TfwH2Ctx) (u : Nat) : Prop where
  rlen : c.rlen<c.toRead
  read : u+c.toRead=size f pre+c.rlen

/-- The FSM is about to visit state `st` with `u` bytes read since it was ready for the frame. -/
def At (f : Frame) (e : Answers) (pre : Bytes) (o : Nat) (st : FrameState) (c : TfwH2Ctx) (u : Nat) : Prop :=
  match st with
  | .recvCliStartSeq =>
    pre=framePrefaceCliMagic ∧ c.rlen<framePrefaceCliMagic.length ∧ u=c.rlen ∧
      c.toRead=0 ∧ c.padlen=0 ∧ c.priority.streamId=0
  | .recvFirstSettings => AtHeader f pre c u
  | .recvFrameHeader => pre=[] ∧ o=0 ∧ c.state=.recvFrameHeader ∧ AtHeader f pre c u
  | .recvFramePriority | .recvFrameRstStream => c.hdr.length=0 ∧ c.curStream.isSome ∧ ∃n,AtPart f pre n c u
  | .recvFrameWndUpdate | .recvFramePing => c.hdr.length=0 ∧ ∃n,AtPart f pre n c u
  | .recvFrameSettings => c.hdr.length%6=0 ∧ AtPart f pre frameSettingsEntrySize c u
  | .recvFrameGoaway => AtPart f pre frameGoawaySize c u
  | .recvFramePadded => pre=[] ∧ o=0 ∧ AtPadded f e c u
  | .recvHeaderPri => pre=[] ∧ o=0 ∧ AtPri f e c u
  | .ignoreFrameData => AtIgnored f pre c u
  | .recvHeader => AtApp f e pre o .recvHeader c u
  | .recvCont => AtApp f e pre o .recvCont c u
  | .recvData => AtApp f e pre o .recvData c u
  | .recvAppDataPost => AtPost f pre o c u

/-- The FSM has said that the frame is read. -/
structure Finished (f : Frame) (pre : Bytes) (o : Nat) (c : TfwH2Ctx) (u : Nat) : Prop where
  rlen : c.rlen=0
  read : u+(if c.state.app then c.padlen else 0)=size f pre
  data : c.state.app=true → o+c.dataOff<u ∨ c.plen=0

def Coded (s : Stop) : Prop := ∃err,s=.code err
lemma coded_code (err : Err) : Coded (.code err) := ⟨err,rfl⟩

/-- How a visit to a state ends that was entered with `u` bytes of the frame read and `p` at hand. -/
inductive Visited (f : Frame) (e : Answers) (pre : Bytes) (o : Nat) (z : Prop) (p : Bytes) (u : Nat) : Visit → Prop
  | stop {s : Stop} : Coded s → Visited f e pre o z p u (.stop s)
  | postponed {c : TfwH2Ctx} : At f e pre o c.state c (u+p.length) →
      (c.state.app=true → 0<c.toRead) → Visited f e pre o z p u (.done .postpone c [])
  | finished {c : TfwH2Ctx} {n : Nat} : n≤p.length → (n=0 → z) → Finished f pre o c (u+n) →
      Visited f e pre o z p u (.done .ok c (p.drop n))
  | on {st : FrameState} {c : TfwH2Ctx} {n : Nat} : 0<n → n≤p.length →
      At f e pre o st c (u+n) → Visited f e pre o z p u (.go st c (p.drop n))

lemma meets_check {P : TfwH2Ctx → Prop} {r : Option Err} {c : TfwH2Ctx} (h : P c) : Meets Coded P (check r c) := by
  cases r with
  | none => exact h
  | some err => exact coded_code err

namespace TfwH2Ctx
variable {P : TfwH2Ctx → Prop} {c : TfwH2Ctx}
lemma meets_streamRecvProcess {e : Answers} {k : TfwH2Ctx → Except Stop TfwH2Ctx} (hc : c.curStream.isSome)
    (hok : e.streamFsm=.ok → Meets Coded P (k c)) (hn : e.streamFsm ≠ .ok →
      ∀cur,P {c.setToReadVerify .ignoreFrameData with curStream:=cur}) :
    Meets Coded P (streamRecvProcess e c k) := by
  have hs : c.curStream.isNone=false := by simp [Option.isNone_eq_false_iff,hc]
  have hk : (c.setToReadVerify .ignoreFrameData).curStream=c.curStream := by
    unfold setToReadVerify
    split_ifs <;> rfl
  rw [streamRecvProcess,if_neg (by simp [hs])]
  cases hf : e.streamFsm with
  | ok => exact hok hf
  | termConn => exact coded_code _
  | termStream =>
    rw [currentStreamSendRst,if_neg (by simp [hk,hs])]
    exact meets_check (hn (by simp [hf]) none)
  | ignore => exact hn (by simp [hf]) (c.setToReadVerify .ignoreFrameData).curStream

lemma meets_verifyFrameSize (h : 0≤c.hdr.length → P c) : Meets Coded P (verifyFrameSize c) := by
  unfold verifyFrameSize
  split_ifs with hn
  · exact coded_code _
  · exact h (by omega)

lemma meets_recvPart {n : Nat} {st : FrameState} (h : n≤c.hdr.length → P {c with
        toRead:=n
        hdr:={c.hdr with length:=c.hdr.length-n}
        plen:=Word.sub 32 c.plen n
        state:=st}) : Meets Coded P (recvPart n st c) := by
  unfold recvPart
  apply Outcome.Meets.bind (P := fun c' => P {c' with state:=st})
  · apply meets_verifyFrameSize
    intro hl
    exact h (by simp only at hl; omega)
  · intro c' hc'
    exact hc'
end TfwH2Ctx
end VetWaf.H2
