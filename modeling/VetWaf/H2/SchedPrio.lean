import VetWaf.H2.SchedOrder

namespace VetWaf.H2
open List Forest
namespace TfwStreamSched

/-- From the root down to `x` each node is the first among its siblings with something to send, and no stream
above `x` has itself something to send. -/
structure Chosen (s : TfwStreamSched) (x : Nat) : Prop where
  first : ∀y p,(y=x ∨ Above s.parent y x) → s.parent y=some p → ∀z,s.parent z=some p → s.Busy z → z≠y → s.Prior z y
  quiet : ∀a∈s.streams,Above s.parent a x → s.isActive a=false

namespace Valid
variable {s : TfwStreamSched} {p c : Nat} (h : s.Valid)
include h
lemma busy_iff (c : Nat) : s.Busy c ↔ s.isActive c=true ∨ ∃d∈s.streams,Above s.parent c d ∧ s.isActive d=true := by
  rw [Busy,h.activeCnt_eq]
  refine or_congr_right ?_
  simp [countP_eq_zero,mem_below]

lemma active_eq_nil_iff (p : Nat) : s.active p=[] ↔ ∀d∈s.streams,Above s.parent p d → s.isActive d=false := by
  rw [eq_nil_iff_forall_not_mem]
  simp only [h.inv.linked.active p _ (by simp),h.busy_iff,not_and,not_or]
  constructor
  · intro hn d hd hpd
    obtain ⟨c,hc,hcd⟩ := above_iff_child.1 hpd
    obtain ⟨hc',hb⟩ := hn c hc
    obtain rfl | hcd := hcd
    · simpa using hc'
    · by_contra ha
      exact hb ⟨d,hd,hcd,by simpa using ha⟩
  · intro hn c hc
    have hp := above_of_parent hc
    refine ⟨by simp [hn c (h.inv.live c p hc).1 hp],fun ⟨d,hd,hcd,ha⟩ => ?_⟩
    simp [hn d hd (hp.trans hcd)] at ha

lemma Chosen.last (hs : (s.active p).Pairwise s.Prior) (hp : s.Chosen p)
    (hqu : p∈s.streams → s.isActive p=false) (hc : (s.active p).getLast?=some c) : s.Chosen c := by
  obtain ⟨ys,hys⟩ := getLast?_eq_some_iff.1 hc
  have hpa := ((h.inv.linked.active p c (by simp)).1 (mem_of_getLast? hc)).1
  have hab : ∀a,Above s.parent a c ↔ a=p ∨ Above s.parent a p := by
    intro a
    rw [above_iff,hpa]
    simp [eq_comm]
  refine ⟨fun y q hy hq z hz hb hne => ?_,fun a ha hac => ?_⟩
  · obtain rfl | hy := hy
    · rw [hpa] at hq
      cases hq
      have hin : z∈s.active p := (h.inv.linked.active p z (by simp)).2 ⟨hz,hb⟩
      rw [hys] at hs hin
      exact (pairwise_append.1 hs).2.2 z ((mem_append.1 hin).resolve_right (by simpa using hne)) _ (by simp)
    · exact hp.first y q ((hab y).1 hy) hq z hz hb hne
  · obtain rfl | hap := (hab a).1 hac
    · exact hqu ha
    · exact hp.quiet a ha hap

lemma getMostPrioLoop_spec (hs : ∀p,(s.active p).Pairwise s.Prior) {n : Nat} {r : Option Nat}
    (hp : s.Chosen p) (hq : p∈s.streams → s.isActive p=false) (hru : s.getMostPrioLoop n p=.ok r) :
    (r=none → s.active p=[]) ∧ ∀c∈r,c∈s.streams ∧ s.isActive c=true ∧ s.Chosen c := by
  induction n generalizing p with
  | zero => cases hru
  | succ n ih =>
    rw [TfwStreamSched.getMostPrioLoop] at hru
    cases hl : (s.active p).getLast? with
    | none =>
      rw [hl] at hru
      cases hru
      exact ⟨fun _ => getLast?_eq_none_iff.1 hl,by simp⟩
    | some c =>
      obtain ⟨hpa,hb⟩ := (h.inv.linked.active p c (by simp)).1 (mem_of_getLast? hl)
      have hc := Chosen.last h (hs p) hp hq hl
      simp only [hl] at hru
      split_ifs at hru with ha hcn
      · cases hru
        refine ⟨by simp,fun c' hc' => ?_⟩
        cases hc'
        exact ⟨(h.inv.live c p hpa).1,ha,hc⟩
      · obtain ⟨hn,hso⟩ := ih hc (fun _ => by simpa using ha) hru
        refine ⟨fun hr => ?_,hso⟩
        obtain ⟨d,hd,hcd,hd'⟩ := ((h.busy_iff c).1 hb).resolve_left ha
        simp [(h.active_eq_nil_iff c).1 (hn hr) d hd hcd] at hd'

end Valid
end TfwStreamSched

/-- The stream chosen has something to send, and every node on the way to it comes first among the siblings that lead to
one that has. Every run keeps the invariant and the order of the lists that this rests on. -/
theorem most_prio_stream {s : TfwStreamSched} (h : s.Sorted) :
    (∃r,s.schedGetMostPrioStream=.ok r ∧ (r=none ↔ ∀c∈s.streams,s.isActive c=false) ∧ ∀c∈r,c∈s.streams ∧
      s.isActive c=true ∧ (∀a∈s.streams,Above s.parent a c → s.isActive a=false) ∧
      ∀x p,(x=c ∨ Above s.parent x c) → s.parent x=some p → ∀y,s.parent y=some p → y≠x → (s.isActive y=true ∨
        ∃d∈s.streams,Above s.parent y d ∧ s.isActive d=true) → s.Prior y x) ∧
    ∀ops s',Run.run schedStep s ops=some s' → s'.Sorted := by
  refine ⟨?_,fun ops s' hru => h.run hru⟩
  obtain ⟨hv,hsorted⟩ := h
  obtain ⟨r,hr⟩ := hv.schedGetMostPrioStream
  have hro : s.Chosen 0 := by
    have hn : ∀a,¬Above s.parent a 0 := fun a => not_above_of_parent_eq_none hv.inv.parent_zero
    refine ⟨fun y p hy hp => ?_,fun a _ ha => absurd ha (hn a)⟩
    rw [hy.resolve_right (hn y),hv.inv.parent_zero] at hp
    cases hp
  obtain ⟨hnn,hs⟩ := hv.getMostPrioLoop_spec hsorted hro (fun h0 => absurd h0 hv.inv.root) hr
  refine ⟨r,hr,⟨fun hr' c hc => ?_,fun hn => ?_⟩,fun c hc => ?_⟩
  · exact (hv.active_eq_nil_iff 0).1 (hnn hr') c hc ((hv.above_root c).1 hc)
  · by_contra hne
    obtain ⟨c,hc⟩ := Option.ne_none_iff_exists'.1 hne
    obtain ⟨hl,hac,-⟩ := hs c hc
    simp [hn c hl] at hac
  · obtain ⟨hl,hac,hch⟩ := hs c hc
    exact ⟨hl,hac,hch.quiet,fun x p hx hp y hy hne hb => hch.first x p hx hp y hy ((hv.busy_iff y).2 hb) hne⟩

/-- The heavier of two active streams, in a state that a run from the start reaches. -/
theorem most_prio_stream_heavier : ∃s r,Run.run schedStep {} [.create 1 {},.create 3 {weight:=32},.activate 1,
    .activate 3]=some s ∧ s.schedGetMostPrioStream=.ok r ∧ (r=none ↔ ∀c∈s.streams,s.isActive c=false) ∧ r=some 3 := by
  have hru : Run.run schedStep {} [.create 1 {},.create 3 {weight:=32},.activate 1,.activate 3]=some _ := rfl
  have hs := (most_prio_stream TfwStreamSched.sorted_empty).2 _ _ hru
  obtain ⟨⟨r,hr,hn,-⟩,-⟩ := most_prio_stream hs
  exact ⟨_,r,hru,hr,hn,Except.ok.inj (hr.symm.trans rfl)⟩
end VetWaf.H2
