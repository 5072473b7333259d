import VetWaf.H2.FrameRound

namespace VetWaf.H2
open List Nat
open Rfc9113 (Frame stream)
open Outcome (Meets)

/-- What the FSM has to consume from one moment at which it is ready to the next one. -/
def units (pre : Bytes) : List Frame → List Bytes
  | [] => []
  | f::fs => (pre++f.bytes)::fs.map Frame.bytes

/-- What comes before frame number `k`. -/
def before (pre : Bytes) (k : Nat) : Bytes := if k=0 then pre else []

lemma length_units (pre : Bytes) (fs : List Frame) : (units pre fs).length=fs.length := by
  cases fs with
  | nil => rfl
  | cons f fs => simp [units]

lemma getElem?_units (pre : Bytes) (fs : List Frame) (k : Nat) :
    (units pre fs)[k]?=fs[k]?.map fun f => before pre k++f.bytes := by
  cases fs with
  | nil => rfl
  | cons f fs =>
    cases k with
    | zero => rfl
    | succ k => simp [units,before]

variable {pre : Bytes} {fs : List Frame} {env : Nat → Answers} {c₀ c : Conn} {k : Nat}
lemma flatten_units (h : fs=[] → pre=[]) : (units pre fs).flatten=pre++stream fs := by
  cases fs with
  | nil =>
    rw [h rfl]
    rfl
  | cons f fs =>
    rw [Rfc9113.stream_cons,← append_assoc]
    rfl

section
variable (env : Nat → Answers) (c₀ : Conn) (pre : Bytes) (fs : List Frame)

inductive Starts : Prop
  | ready : c₀.Ready → pre=[] → Starts
  | new : c₀.ctx={maxFrameSz:=c₀.ctx.maxFrameSz, state:=.recvCliStartSeq} →
      c₀.skbHead=[] → c₀.cur=[] → pre=framePrefaceCliMagic → fs≠[] → Starts

/-- After `n` bytes the connection has received `k` whole frames and is inside the next one. -/
structure InStep (n k : Nat) (c : Conn) : Prop where
  received : c.received=c₀.received++(units pre fs).take k
  le : k≤fs.length
  read : ((units pre fs).take k).flatten.length+c.cur.length=n
  place : (c.Ready ∧ before pre k=[]) ∨
    ∃f,fs[k]?=some f ∧ c.Mid f (env (c₀.received.length+k)) (before pre k) c.cur.length

variable {env c₀ pre fs} {n k : Nat} {c : Conn}
lemma Starts.inStep (h : Starts c₀ pre fs) : InStep env c₀ pre fs 0 0 c₀ := by
  cases h with
  | ready hr hp => exact ⟨(append_nil _).symm,zero_le,by simp [hr.cur],.inl ⟨hr,hp⟩⟩
  | new hct hs hc hp hf =>
    refine ⟨(append_nil _).symm,zero_le,by simp [hc],.inr ?_⟩
    obtain ⟨f,fs,rfl⟩ := exists_cons_of_ne_nil hf
    refine ⟨f,rfl,⟨0,by simp [hs,hc],?_⟩,?_,?_⟩
    · rw [hct,hc]
      exact ⟨hp,succ_pos _,rfl,rfl,rfl,rfl⟩
    · rw [hct]
      nofun
    · rw [hc]
      rfl

lemma Starts.flatten_units (h : Starts c₀ pre fs) : (units pre fs).flatten=pre++stream fs := by
  apply H2.flatten_units
  intro hf
  cases h with
  | ready _ hp => exact hp
  | new _ _ _ _ hne => exact absurd hf hne

lemma InStep.length_received (h : InStep env c₀ pre fs n k c) : c.received.length=c₀.received.length+k := by
  have hle := h.le
  rw [h.received,length_append,length_take,length_units]
  omega

variable {f : Frame}
lemma InStep.mid (h : InStep env c₀ pre fs n k c) (hf : fs[k]?=some f) :
    c.Mid f (env (c₀.received.length+k)) (before pre k) c.cur.length := by
  obtain ⟨hr,hb⟩ | ⟨f',hf',hm⟩ := h.place
  · rw [hb,hr.cur]
    exact hr.mid f _
  · rw [hf] at hf'
    obtain rfl := Option.some.inj hf'
    exact hm

lemma drop_flatten_take (l : List Bytes) (k u : Nat) :
    l.flatten.drop ((l.take k).flatten.length+u)=(l.drop k).flatten.drop u := by
  have ha : l.flatten=(l.take k).flatten++(l.drop k).flatten := by rw [← flatten_append,take_append_drop]
  rw [ha,drop_append,drop_eq_nil_of_le (Nat.le_add_right _ _),nil_append,Nat.add_sub_cancel_left]

lemma InStep.ahead (h : InStep env c₀ pre fs n k c) (hf : fs[k]?=some f)
    {data : Bytes} (hd : data <+: (units pre fs).flatten.drop n) :
    Ahead f (before pre k) ((units pre fs).drop (k+1)).flatten c.cur.length data := by
  have hu : (units pre fs)[k]?=some (before pre k++f.bytes) := by
    rw [getElem?_units,hf]
    rfl
  rw [← h.read,drop_flatten_take] at hd
  obtain ⟨hk,hg⟩ := List.getElem?_eq_some_iff.1 hu
  rw [drop_eq_getElem_cons hk,hg,flatten_cons] at hd
  exact hd

lemma InStep.nil_of_none (h : InStep env c₀ pre fs n k c) (hf : fs[k]?=none) {data : Bytes}
    (hd : data <+: (units pre fs).flatten.drop n) : data=[] := by
  have hl : (units pre fs).length≤k := by
    rw [length_units]
    exact getElem?_eq_none_iff.1 hf
  rw [← h.read,drop_flatten_take,drop_eq_nil_of_le hl] at hd
  simpa using hd

lemma length_take_size {u : Nat} (h : u ≤ size f pre) : ((pre++f.bytes).take u).length=u := by
  rw [size_eq] at h
  rw [length_take,min_eq_left h]

lemma InStep.moved (h : InStep env c₀ pre fs n k c) (hf : fs[k]?=some f) {m : Nat} {c' : Conn}
    (hm : Conn.Moved f (env (c₀.received.length+k)) (before pre k) c (c.cur.length+m) c') :
    ∃k',InStep env c₀ pre fs (n+m) k' c' := by
  have hrd := h.read
  cases hm with
  | inside hmi hr =>
    obtain ⟨o,-,ha⟩ := hmi.at_frame
    have hl : c'.cur.length=c.cur.length+m := by rw [hmi.cur,length_take_size ha.le_size]
    refine ⟨k,hr.trans h.received,h.le,by omega,.inr ⟨f,hf,?_⟩⟩
    rw [hl]
    exact hmi
  | behind hre hs hr =>
    obtain ⟨hk,-⟩ := List.getElem?_eq_some_iff.1 hf
    have ht : (units pre fs).take (k+1)=(units pre fs).take k++[before pre k++f.bytes] := by
      rw [take_add_one,getElem?_units,hf]
      rfl
    refine ⟨k+1,?_,hk,?_,.inl ⟨hre,if_neg (succ_ne_zero _)⟩⟩
    · rw [hr,h.received,ht,append_assoc]
    · rw [ht,flatten_append,flatten_singleton,length_append,← size_eq,hre.cur,length_nil]
      omega

variable (hkeep : ∀k (f : Frame),fs[k]?=some f → f.loses (env (c₀.received.length+k))=false)
include hkeep
lemma meets_frameProcess (fuel : Nat) {skb : List Bytes} (h : InStep env c₀ pre fs n k c)
    (hs : skb.flatten <+: (units pre fs).flatten.drop n) (hfu : skb.flatten.length<fuel) :
    Meets Coded (fun p => ∃k',InStep env c₀ pre fs (n+skb.flatten.length) k' p.2) (frameProcess env fuel c skb) := by
  induction fuel generalizing n k c skb with
  | zero => omega
  | succ fuel ih =>
    rw [frameProcess]
    cases hf : fs[k]? with
    | none =>
      rw [frameRound,if_pos (h.nil_of_none hf hs)]
      exact coded_code _
    | some f =>
      have hr := Conn.meets_frameRound (h.mid hf) (hkeep k f hf) (h.ahead hf hs)
      rw [h.length_received]
      generalize frameRound (env (c₀.received.length+k)) c skb=r at hr
      obtain stop | ⟨r,c',rest⟩ := r
      · exact hr
      · cases rest with
        | none => exact h.moved hf hr
        | some rest =>
          obtain ⟨m,hp,hlt,hre,hm⟩ := hr
          obtain ⟨k',hst⟩ := h.moved hf hm
          have ha : rest.flatten <+: (units pre fs).flatten.drop (n+m) := by
            rw [hre,← drop_drop]
            exact hs.drop m
          have hl : rest.flatten.length=skb.flatten.length-m := by rw [hre,length_drop]
          have hrec := ih hst ha (by omega)
          have hsu : n+m+rest.flatten.length=n+skb.flatten.length := by omega
          rwa [hsu] at hrec

lemma meets_receive (skbs : List (List Bytes)) (h : InStep env c₀ pre fs n k c)
    (hsk : skbs.flatten.flatten <+: (units pre fs).flatten.drop n) :
    Meets Coded (fun c' => ∃k',InStep env c₀ pre fs (n+skbs.flatten.flatten.length) k' c') (receive env c skbs) := by
  induction skbs generalizing n k c with
  | nil => exact ⟨k,h⟩
  | cons skb skbs ih =>
    rw [flatten_cons,flatten_append] at hsk ⊢
    rw [receive]
    have hs : skb.flatten <+: (units pre fs).flatten.drop n := (prefix_append _ _).trans hsk
    apply Outcome.Meets.bind (meets_frameProcess hkeep _ h hs (lt_succ_self _))
    intro p hp
    obtain ⟨k',hst⟩ := hp
    have hre : skbs.flatten.flatten <+: (units pre fs).flatten.drop (n+skb.flatten.length) := by
      rw [← drop_drop]
      have hd := hsk.drop skb.flatten.length
      rwa [drop_left] at hd
    have hr := ih hst hre
    rwa [add_assoc,← length_append] at hr

end

lemma InStep.prefix_unit {n : Nat} (h : InStep env c₀ pre fs n k c) : c.cur <+: (units pre fs).getD k [] := by
  obtain ⟨hr,-⟩ | ⟨f,hf,hm⟩ := h.place
  · rw [hr.cur]
    exact nil_prefix
  · have hu : (units pre fs).getD k []=before pre k++f.bytes := by
      rw [getD_eq_getElem?_getD,getElem?_units,hf]
      rfl
    rw [hu,hm.cur]
    exact take_prefix _ _

lemma InStep.consumed {data : Bytes} (h : InStep env c₀ pre fs data.length k c)
    (hda : data <+: (units pre fs).flatten) :
    ((units pre fs).take k).flatten++c.cur=data := by
  have ha : (units pre fs).flatten=((units pre fs).take k).flatten++((units pre fs).drop k).flatten := by
    rw [← flatten_append,take_append_drop]
  have hc : c.cur <+: ((units pre fs).drop k).flatten := by
    refine h.prefix_unit.trans ?_
    cases hd : (units pre fs).drop k with
    | nil =>
      rw [getD_eq_getElem?_getD,getElem?_eq_none (drop_eq_nil_iff.1 hd)]
      exact nil_prefix
    | cons unit rest =>
      have hg : (units pre fs)[k]?=some unit := by
        rw [← head?_drop,hd]
        rfl
      rw [getD_eq_getElem?_getD,hg,flatten_cons]
      exact prefix_append _ _
  have hp : ((units pre fs).take k).flatten++c.cur <+: (units pre fs).flatten := by
    rw [ha]
    exact (prefix_append_right_inj _).2 hc
  have hl : (((units pre fs).take k).flatten++c.cur).length=data.length := by
    rw [length_append]
    exact h.read
  exact (prefix_of_prefix_length_le hp hda hl.le).eq_of_length hl

lemma InStep.header {n : Nat} (h : InStep env c₀ pre fs n k c) (hst : c.ctx.state=.recvFrameHeader) :
    c.ctx.rbuf.take c.ctx.rlen=c.cur := by
  obtain ⟨hre,-⟩ | ⟨f,hf,hm⟩ := h.place
  · rw [hre.cur,hre.ctx]
    rfl
  · obtain ⟨o,-,ha⟩ := hm.at_frame
    rw [hst] at ha
    obtain ⟨hp,-,-,hh⟩ := ha
    have hr := hh.read
    have hrl := hh.rlen
    rw [hp,length_nil,zero_add] at hr
    rw [hm.cur,hr,hh.rbuf,hp,nil_append,Frame.bytes,take_append_of_le_length]
    rw [f.header_length]
    exact le_of_lt hrl

/-- As long as no frame comes whose padding or priority block the code miscounts, a connection that is not closed has
consumed whole frames and a part of the next one. -/
theorem receive_frame_by_frame (env : Nat → Answers) (c : Conn) (pre : Bytes) (fs : List Frame)
    (hstart : Starts c pre fs) (skbs : List (List Bytes)) (hbytes : skbs.flatten.flatten <+: pre++stream fs)
    (hkeep : ∀k (f : Frame),fs[k]?=some f → f.loses (env (c.received.length+k))=false) : Meets Coded
      (fun c' => ∃k≤fs.length,c'.received=c.received++(units pre fs).take k ∧
        ((units pre fs).take k).flatten++c'.cur=skbs.flatten.flatten ∧ c'.cur <+: (units pre fs).getD k [] ∧
        (c'.ctx.state=.recvFrameHeader → c'.ctx.rbuf.take c'.ctx.rlen=c'.cur)) (receive env c skbs) := by
  rw [← hstart.flatten_units] at hbytes
  apply (meets_receive hkeep skbs hstart.inStep hbytes).imp
  intro c' hc'
  obtain ⟨k,hst⟩ := hc'
  rw [zero_add] at hst
  exact ⟨k,hst.le,hst.received,hst.consumed hbytes,hst.prefix_unit,hst.header⟩

/-- An empty SETTINGS frame, a HEADERS frame and a DATA frame with a byte of data and a byte of padding. -/
theorem receive_frame_by_frame_settings_data : ∃ (settings headers data : Frame) (c : Conn) (skbs : List (List Bytes)),
    let fs := [settings,headers,data]
    skbs.flatten.flatten=framePrefaceCliMagic++stream fs ∧ ∃c',receive (fun _ => {}) c skbs=.ok c' ∧
      ∃k≤fs.length,c'.received=c.received++(units framePrefaceCliMagic fs).take k ∧
        ((units framePrefaceCliMagic fs).take k).flatten++c'.cur=skbs.flatten.flatten ∧
        c'.cur <+: (units framePrefaceCliMagic fs).getD k [] ∧
        (c'.ctx.state=.recvFrameHeader → c'.ctx.rbuf.take c'.ctx.rlen=c'.cur) := by
  refine ⟨⟨[0,0,0,4,0,0,0,0,0],[],rfl,rfl⟩,⟨[0,0,1,1,4,0,0,0,1],[0x82],rfl,rfl⟩,⟨[0,0,3,0,8,0,0,0,1],[1,7,0],rfl,rfl⟩,
    {ctx:={maxFrameSz:=16384, state:=.recvCliStartSeq}},[[framePrefaceCliMagic++[0,0,0]],
      [[4,0,0,0,0,0],[0,0,1,1,4,0,0,0,1,0x82,0,0,3,0],[8,0,0,0,1,1,7,0]]],by decide +kernel,?_⟩
  apply (receive_frame_by_frame _ _ _ _ _ _ _ _).exists_ok
  · decide +kernel
  · exact .new rfl rfl rfl rfl nofun
  · decide +kernel
  · intro k f hf
    obtain _ | _ | _ | k := k
    · obtain rfl := Option.some.inj hf
      decide +kernel
    · obtain rfl := Option.some.inj hf
      decide +kernel
    · obtain rfl := Option.some.inj hf
      decide +kernel
    · cases hf

def consumed (env : Nat → Answers) (c : Conn) (skbs : List (List Bytes)) : Option (List Bytes×Bytes) :=
  (receive env c skbs).toOption.map fun c' => (c'.received,c'.cur)

/-- A DATA frame of one byte of padding: that byte is left for the next header. -/
theorem receive_padding_only_loses_step : let c : Conn := {ctx:={maxFrameSz:=16384, lstreamId:=1}}
    let ping : Bytes := [0,0,8,6,0,0,0,0,0]
    consumed (fun _ => {}) c [[[0,0,2,0,8,0,0,0,1,1,0]++ping.take 5]] =
        some ([[0,0,2,0,8,0,0,0,1,1]],[0]++ping.take 5) ∧
      consumed (fun _ => {}) c [[[0,0,5,1,0x24,0,0,0,1,0,0,0,0,16]++ping]] =
        some ([[0,0,5,1,0x24,0,0,0,1,0,0,0,0,16]++ping.take 5],ping.drop 5) ∧
      consumed (fun _ => {streamFsm:=.ignore}) c [[[0,0,3,0,8,0,0,0,1,1,7,0]++ping.take 5]] =
        some ([[0,0,3,0,8,0,0,0,1,1,7]],[0]++ping.take 5) := by
  decide +kernel
end VetWaf.H2
