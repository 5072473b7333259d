import VetWaf.H2.FrameType

namespace VetWaf.H2
open TfwH2Ctx List Nat
open Rfc9113 (Frame)
open Outcome (Meets)

/-- The bytes at hand are the next ones of the stream, of which `u` were read since the FSM was
ready for the frame. -/
def Ahead (f : Frame) (pre tail : Bytes) (u : Nat) (p : Bytes) : Prop := p <+: (pre++f.bytes++tail).drop u

section
variable {f : Frame} {e : Answers} {pre tail p : Bytes} {o u : Nat} {z : Prop} {c : TfwH2Ctx}
lemma Ahead.drop (h : Ahead f pre tail u p) (n : Nat) : Ahead f pre tail (u+n) (p.drop n) := by
  have hd := List.IsPrefix.drop h n
  rwa [drop_drop] at hd

variable {k m : Nat}
private lemma take_of_prefix_drop {s q src a b : Bytes} (h : q <+: s.drop (a.length+k))
    (hs : s=a++src++b) (hm : m≤q.length) (hk : k+m ≤ src.length) : q.take m=(src.drop k).take m := by
  have ht : q.take m=(s.drop (a.length+k)).take m := by rw [prefix_iff_eq_take.1 h,take_take,min_eq_left hm]
  have hd : s.drop (a.length+k)=src.drop k++b := by
    rw [hs,append_assoc,← drop_drop,drop_left,drop_append_of_le_length (by omega)]
  rw [ht,hd,take_append_of_le_length (by rw [length_drop]; omega)]

lemma Ahead.header (h : Ahead f pre tail u p) (hu : u=pre.length+k)
    (hm : m≤p.length) (hk : k+m≤frameHeaderSize) : p.take m=(f.header.drop k).take m := by
  subst hu
  apply take_of_prefix_drop (a := pre) (b := f.payload++tail) h
  · simp [Frame.bytes]
  · exact hm
  · rw [f.header_length]
    exact hk

lemma Ahead.payload (h : Ahead f [] tail u p) (hu : u=frameHeaderSize+k)
    (hm : m≤p.length) (hk : k+m≤f.payload.length) : p.take m=(f.payload.drop k).take m := by
  have hl : f.header.length=frameHeaderSize := f.header_length
  rw [← hl] at hu
  subst hu
  apply take_of_prefix_drop (a := f.header) (b := tail) h
  · simp [Frame.bytes]
  · exact hm
  · exact hk

lemma collect_eq {rbuf src q : Bytes} (hb : rbuf.take k=src.take k)
    (hq : q=(src.drop k).take m) : rbuf.take k++q=src.take (k+m) := by
  rw [hb,hq,take_add]

namespace TfwH2Ctx

/-- The context with `n` bytes collected, the last of which are `bs`. -/
def collected (c : TfwH2Ctx) (n : Nat) (bs : Bytes) : TfwH2Ctx := {c with rbuf:=c.rbuf.take c.rlen++bs, rlen:=n}

lemma nextSettingsEntry_last (h : c.hdr.length=0) : c.nextSettingsEntry={c with toRead:=0} := if_neg (not_not.2 h)

lemma nextSettingsEntry_more (h : ¬c.hdr.length=0) : c.nextSettingsEntry={c with
        toRead:=frameSettingsEntrySize
        hdr:={c.hdr with length:=c.hdr.length-frameSettingsEntrySize}} := if_pos h

lemma meets_settingsProcess (c : TfwH2Ctx) : Meets Coded (fun c' => c'=c.nextSettingsEntry) c.settingsProcess := by
  unfold settingsProcess
  split_ifs
  · rfl
  · exact coded_code _

lemma meets_firstSettingsVerify {hdr : TfwFrameHdr} (hr : c.toRead=0) (hh : unpackFrameHeader c.rbuf=hdr) :
    Meets Coded (fun c' => hdr.length%6=0 ∧ c'={c with hdr:=hdr}.nextSettingsEntry) c.firstSettingsVerify := by
  rw [firstSettingsVerify,if_neg (not_not.2 hr),hh]
  simp only
  split_ifs with hb
  · exact coded_code _
  · have hm := (not_or.1 (not_or.1 (not_or.1 hb).2).2).2
    exact ⟨not_not.1 hm,rfl⟩

end TfwH2Ctx

lemma AtPart.more {st : FrameState} {n : Nat} (h : AtPart f pre n c u) (hlt : c.rlen+p.length<n) :
    AtPart f pre n {c.collected (c.rlen+p.length) p with state:=st} (u+p.length) where
  toRead := h.toRead
  small := h.small
  rlen := hlt
  length := h.length
  read := by
    have hr := h.read
    simp only [collected] at hr ⊢
    omega

namespace Visit
variable {st : FrameState} {n : Nat} {k : TfwH2Ctx → Bytes → Visit}
lemma readSrvc_short (hn : n≤frameHeaderSize) (h : c.rlen+p.length<n) : readSrvc st n c p k =
      .done .postpone {c.collected (c.rlen+p.length) p with state:=st} [] := by
  have hm : min (n-c.rlen) p.length=p.length := by omega
  rw [readSrvc,if_neg (by omega),read,hm]
  simp [after,h,collected]

lemma readSrvc_enough (hn : n≤frameHeaderSize) (hr : c.rlen≤n) (h : n≤c.rlen+p.length) : readSrvc st n c p k =
      k (c.collected n (p.take (n-c.rlen))) (p.drop (n-c.rlen)) := by
  have hm : min (n-c.rlen) p.length=n-c.rlen := by omega
  have hs : c.rlen+(n-c.rlen)=n := by omega
  rw [readSrvc,if_neg (by omega),read,hm]
  simp [after,hs,collected]

lemma visited_after {P : TfwH2Ctx → Prop} {r : Except Stop TfwH2Ctx} {k : TfwH2Ctx → Visit}
    (h : Meets Coded P r) (hk : ∀c,P c → Visited f e pre o z p u (k c)) : Visited f e pre o z p u (after r k) := by
  cases r with
  | error s => exact .stop h
  | ok c => exact hk c h

lemma visited_exit (hn : n≤p.length) (hz : n=0 → z) (h : Finished f pre o {c with rlen:=0, state:=st} (u+n)) :
    Visited f e pre o z p u (exit st .ok c (p.drop n)) := .finished hn hz h

lemma visited_move (hp : 0<n) (hn : n≤p.length) (hat : At f e pre o st {c with rlen:=0} (u+n))
    (hs : At f e pre o st {c with rlen:=0, state:=st} (u+n))
    (ha : st.app=true → 0<c.toRead) : Visited f e pre o z p u (move st c (p.drop n)) := by
  unfold move
  split_ifs with hni
  · have hl : n=p.length := by
      have := drop_eq_nil_iff.1 hni
      omega
    rw [hni,exit]
    apply Visited.postponed
    · rw [← hl]
      exact hs
    · exact ha
  · exact .on hp hn hat

lemma visited_next (hp : 0<n) (hn : n≤p.length)
    (ha : At f e pre o c.state {c with rlen:=0} (u+n)) (hne : c.toRead≠0) :
    Visited f e pre o z p u (next c (p.drop n)) := visited_move hp hn ha ha (fun _ => pos_of_ne_zero hne)

lemma finished_service (ha : st.app=false) (hr : u=size f pre) : Finished f pre o {c with rlen:=0, state:=st} u where
  rlen := rfl
  read := by simp [ha,hr]
  data := by simp [ha]

lemma visited_recvControl {process : TfwH2Ctx → Except Stop TfwH2Ctx} (ha : st.app=false)
    (hp : AtPart f pre n c u) (hl : c.hdr.length=0) (hm : c.rlen+p.length<n →
      At f e pre o st {c.collected (c.rlen+p.length) p with state:=st} (u+p.length))
    (hpr : ∀bs,Meets Coded (fun _ => True) (process (c.collected n bs))) :
    Visited f e pre o z p u (recvControl st process c p) := by
  have hrl := hp.rlen
  have hr := hp.read
  rw [recvControl,hp.toRead]
  by_cases hs : c.rlen+p.length<n
  · rw [readSrvc_short hp.small hs]
    exact .postponed (hm hs) (by simp [ha])
  · rw [readSrvc_enough hp.small (by omega) (by omega)]
    apply visited_after (hpr _)
    intro c' _
    apply visited_exit (by omega) (by omega)
    apply finished_service ha
    omega

lemma visited_recvFramePriority (h : At f e pre o .recvFramePriority c u) :
    Visited f e pre o z p u (recvFramePriority e c p) := by
  obtain ⟨hl,hc,n,hp⟩ := h
  apply visited_recvControl rfl hp hl
  · intro hlt
    exact ⟨hl,hc,n,hp.more hlt⟩
  · intro bs
    unfold priorityProcess currentStreamSendRst
    simp only [collected,Option.isNone_eq_false_iff.2 hc,Bool.false_eq_true,if_false]
    split_ifs
    · trivial
    · exact coded_code _
    · exact coded_code _
    · exact meets_check (P := fun _ => True) trivial

lemma visited_recvFrameRstStream (h : At f e pre o .recvFrameRstStream c u) :
    Visited f e pre o z p u (recvFrameRstStream c p) := by
  obtain ⟨hl,hc,n,hp⟩ := h
  apply visited_recvControl rfl hp hl
  · intro hlt
    exact ⟨hl,hc,n,hp.more hlt⟩
  · intro bs
    unfold rstStreamProcess
    simp only [collected,Option.isNone_eq_false_iff.2 hc]
    trivial

lemma visited_recvFrameWndUpdate (h : At f e pre o .recvFrameWndUpdate c u) :
    Visited f e pre o z p u (recvFrameWndUpdate e c p) := by
  obtain ⟨hl,n,hp⟩ := h
  apply visited_recvControl rfl hp hl
  · intro hlt
    exact ⟨hl,n,hp.more hlt⟩
  · intro bs
    unfold wndUpdateProcess currentStreamSendRst
    split_ifs
    · trivial
    · exact coded_code _
    · exact coded_code _
    · exact meets_check (P := fun _ => True) trivial

lemma visited_recvFramePing (h : At f e pre o .recvFramePing c u) : Visited f e pre o z p u (recvFramePing e c p) := by
  obtain ⟨hl,n,hp⟩ := h
  apply visited_recvControl rfl hp hl
  · intro hlt
    exact ⟨hl,n,hp.more hlt⟩
  · intro bs
    split_ifs
    · trivial
    · exact meets_check (P := fun _ => True) trivial

lemma visited_nextSettingsEntry {v : Visit} (hm : c.hdr.length%6=0)
    (hnn : 0≤c.hdr.length) (hp : 0<n) (hn : n≤p.length) (hr : (u+n+c.hdr.length : Int)=size f pre)
    (hla : c.hdr.length=0 → Visited f e pre o z p u v) : Visited f e pre o z p u
      (if c.nextSettingsEntry.toRead≠0 then move .recvFrameSettings c.nextSettingsEntry (p.drop n) else v) := by
  by_cases hl : c.hdr.length=0
  · rw [nextSettingsEntry_last hl,if_neg (fun hne => hne rfl)]
    exact hla hl
  · have hnx : ∀s,At f e pre o .recvFrameSettings {c with
          rlen:=0
          state:=s
          toRead:=frameSettingsEntrySize
          hdr:={c.hdr with length:=c.hdr.length-frameSettingsEntrySize}} (u+n) := by
      intro s
      refine ⟨?_,rfl,by decide,succ_pos _,?_,?_⟩ <;> simp only [frameSettingsEntrySize] <;> omega
    rw [nextSettingsEntry_more hl]
    refine (if_pos (succ_ne_zero _)).symm ▸ ?_
    apply visited_move hp hn (hnx _) (hnx _)
    simp [FrameState.app]

lemma visited_recvFrameSettings (h : At f e pre o .recvFrameSettings c u) :
    Visited f e pre o z p u (recvFrameSettings e c p) := by
  obtain ⟨hm,hp⟩ := h
  have hrl := hp.rlen
  have hr := hp.read
  rw [recvFrameSettings,hp.toRead]
  by_cases hs : c.rlen+p.length<frameSettingsEntrySize
  · rw [readSrvc_short hp.small hs]
    exact .postponed ⟨hm,hp.more hs⟩ (by simp [FrameState.app])
  · rw [readSrvc_enough hp.small (by omega) (by omega)]
    apply visited_after (meets_settingsProcess _)
    rintro _ rfl
    apply visited_nextSettingsEntry (c := c.collected _ _) hm hp.length (by omega) (by omega)
    · change (u+(frameSettingsEntrySize-c.rlen : Nat)+c.hdr.length : Int)=_
      omega
    · intro hl
      change c.hdr.length=0 at hl
      apply visited_after (meets_check (P := fun _ => True) trivial)
      intro c' _
      apply visited_exit (by omega) (by omega)
      apply finished_service rfl
      omega

lemma visited_recvFrameGoaway (h : At f e pre o .recvFrameGoaway c u) :
    Visited f e pre o z p u (recvFrameGoaway c p) := by
  have hp : AtPart f pre frameGoawaySize c u := h
  have hrl := hp.rlen
  have hr := hp.read
  have hn := hp.length
  rw [recvFrameGoaway,hp.toRead]
  by_cases hs : c.rlen+p.length<frameGoawaySize
  · rw [readSrvc_short hp.small hs]
    exact .postponed (hp.more hs) (by simp [FrameState.app])
  · rw [readSrvc_enough hp.small (by omega) (by omega)]
    simp only [goawayProcess,setToRead,after]
    split_ifs with hm
    · have hsk : ∀s b,At f e pre o .ignoreFrameData {c with
            rbuf:=b
            rlen:=0
            state:=s
            toRead:=c.hdr.length.toNat
            hdr:={c.hdr with length:=0}} (u+(frameGoawaySize-c.rlen)) := by
        intro s b
        refine ⟨pos_of_ne_zero hm,?_⟩
        simp only
        omega
      apply visited_move (by omega) (by omega) (hsk _ _) (hsk _ _)
      simp [FrameState.app]
    · have h0 : c.hdr.length.toNat=0 := not_not.1 hm
      apply visited_exit (by omega) (by omega)
      apply finished_service rfl
      omega

lemma visited_ignoreFrameData (h : At f e pre o .ignoreFrameData c u) :
    Visited f e pre o z p u (ignoreFrameData c p) := by
  have hrl := h.rlen
  have hr := h.read
  by_cases hsh : c.rlen+p.length<c.toRead
  · have hm : min (c.toRead-c.rlen) p.length=p.length := by omega
    simp only [ignoreFrameData,read,hm,after,hsh,if_true,drop_length]
    apply Visited.postponed
    · refine ⟨hsh,?_⟩
      simp only
      omega
    · simp [FrameState.app]
  · have hm : min (c.toRead-c.rlen) p.length=c.toRead-c.rlen := by omega
    have hs : c.rlen+(c.toRead-c.rlen)=c.toRead := by omega
    simp only [ignoreFrameData,read,hm,after,hs,lt_irrefl,if_false]
    apply visited_exit (by omega) (by omega)
    apply finished_service rfl
    omega
end Visit
end
end VetWaf.H2
