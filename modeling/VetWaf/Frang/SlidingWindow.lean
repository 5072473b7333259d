import VetWaf.Lib.Word

namespace VetWaf.Frang
open List Word

structure TfwSlidingWindow where
  currCount : Nat := 0
  prevCount : Nat := 0
  epochStart : Nat := 0
  window : Nat

namespace TfwSlidingWindow

def update (w : TfwSlidingWindow) (now count : Nat) : TfwSlidingWindow :=
  if w.epochStart=0 then {w with epochStart:=now, currCount:=count}
  else
    let delta := sub 64 now w.epochStart
    if delta<w.window then {w with currCount:=add 64 w.currCount count}
    else if delta<trunc 32 (2*w.window) then
      {w with prevCount:=w.currCount, currCount:=count, epochStart:=add 64 w.epochStart w.window}
    else {w with prevCount:=0, currCount:=count, epochStart:=now}

def getTotal (w : TfwSlidingWindow) (now : Nat) : Nat :=
  if w.epochStart=0 then 0
  else
    let delta := sub 64 now w.epochStart
    if delta<w.window then add 64 w.currCount (trunc 64 (w.prevCount*(w.window-delta))/w.window)
    else if delta<trunc 32 (2*w.window) then trunc 64 (w.currCount*(w.window-(delta-w.window)))/w.window
    else 0

end TfwSlidingWindow

/-- The window after the events, each a time and a count. -/
def slide (window : Nat) (es : List (Nat×Nat)) : TfwSlidingWindow := es.foldl (fun w e => w.update e.1 e.2) {window}

/-- The number of events at the times from `a` to before `b` -/
def eventsIn (es : List (Nat×Nat)) (a b : Nat) : Nat := (es.map fun e => if a≤e.1 ∧ e.1<b then e.2 else 0).sum

variable {es : List (Nat×Nat)} {a b c a' c' W t : Nat}
lemma eventsIn_concat (e : Nat×Nat) : eventsIn (es++[e]) a b=eventsIn es a b+if a≤e.1 ∧ e.1<b then e.2 else 0 := by
  simp [eventsIn]

lemma eventsIn_eq_zero (h : ∀e∈es,e.1<a) : eventsIn es a b=0 := by
  refine sum_eq_zero fun n hn => ?_
  obtain ⟨e,he,rfl⟩ := mem_map.1 hn
  exact if_neg fun hin => absurd (h e he) (not_lt.2 hin.1)

lemma eventsIn_le_sum (es) (a b : Nat) : eventsIn es a b≤(es.map Prod.snd).sum := by
  refine sum_le_sum fun e _ => ?_
  split_ifs <;> omega

lemma eventsIn_add_le (ha : a'≤a) (hab : a≤b) (hc : ∀e∈es,e.1<c') :
    eventsIn es b c+eventsIn es a b≤eventsIn es a' c' := by
  unfold eventsIn
  rw [← sum_map_add]
  refine sum_le_sum fun e he => ?_
  have := hc e he
  split_ifs <;> omega

/-- What the counters are after some events. -/
structure Counted (es : List (Nat×Nat)) (w : TfwSlidingWindow) : Prop where
  start : ∀e∈es,0<w.epochStart ∧ e.1<w.epochStart+w.window
  last : w.epochStart=0 ∨ ∃e∈es,w.epochStart≤e.1
  curr : w.currCount=eventsIn es w.epochStart (w.epochStart+w.window)
  prev : w.prevCount=eventsIn es (w.epochStart-w.window) w.epochStart

lemma Counted.update {w : TfwSlidingWindow} {e : Nat×Nat} (h : Counted es w) (hW : 0<w.window) (hW2 : 2*w.window<2^32)
    (hp : 0<e.1) (hlt : e.1<2^64) (hle : ∀x∈es,x.1≤e.1) (hs : ((es++[e]).map Prod.snd).sum<2^64) :
    Counted (es++[e]) (w.update e.1 e.2) ∧ (w.update e.1 e.2).window=w.window := by
  have hc : w.currCount+e.2<2^64 := by
    have := eventsIn_le_sum es w.epochStart (w.epochStart+w.window)
    simp only [map_append,sum_append,map_cons,map_nil,sum_singleton] at hs
    rw [h.curr]
    omega
  have hst : w.epochStart≤e.1 := by
    obtain h0 | ⟨x,hx,hxe⟩ := h.last
    · omega
    · exact hxe.trans (hle x hx)
  unfold TfwSlidingWindow.update
  dsimp only
  rw [sub_of_le hlt hst,trunc_of_lt hW2]
  split_ifs with h0 h1 h2
  · obtain rfl : es=[] := eq_nil_iff_forall_not_mem.2 fun x hx => (h.start x hx).1.ne' h0
    have hpr : w.prevCount=0 := h.prev
    refine ⟨⟨?_,.inr ⟨e,by simp⟩,?_,?_⟩,rfl⟩ <;> simp [eventsIn,hp,hW,hpr]
  · refine ⟨⟨?_,.inr ⟨e,by simp,hst⟩,?_,?_⟩,rfl⟩ <;> dsimp only
    · exact forall_mem_append.2 ⟨h.start,forall_mem_singleton.2 ⟨by omega,by omega⟩⟩
    · rw [add_of_lt hc,eventsIn_concat,← h.curr,if_pos ⟨hst,by omega⟩]
    · rw [eventsIn_concat,← h.prev,if_neg (by omega)]
      rfl
  · rw [add_of_lt (by omega)]
    refine ⟨⟨?_,.inr ⟨e,by simp,?_⟩,?_,?_⟩,rfl⟩ <;> dsimp only
    · refine forall_mem_append.2 ⟨fun x hx => ?_,forall_mem_singleton.2 ⟨by omega,by omega⟩⟩
      have := (h.start x hx).2
      exact ⟨by omega,by omega⟩
    · omega
    · rw [eventsIn_concat,eventsIn_eq_zero fun x hx => (h.start x hx).2,if_pos ⟨by omega,by omega⟩,zero_add]
    · rw [eventsIn_concat,Nat.add_sub_cancel,← h.curr,if_neg (by omega)]
      rfl
  · have hn (x) (hx : x∈es) : x.1<e.1-w.window := by
      have := (h.start x hx).2
      omega
    refine ⟨⟨?_,.inr ⟨e,by simp⟩,?_,?_⟩,rfl⟩ <;> dsimp only
    · refine forall_mem_append.2 ⟨fun x hx => ⟨hp,?_⟩,forall_mem_singleton.2 ⟨hp,by omega⟩⟩
      have := hn x hx
      omega
    · rw [eventsIn_concat,eventsIn_eq_zero fun x hx => (hn x hx).trans_le (Nat.sub_le _ _),if_pos ⟨le_rfl,by omega⟩,
        zero_add]
    · rw [eventsIn_concat,eventsIn_eq_zero hn,if_neg (by omega)]

lemma counted_slide (hW : 0<W) (hW2 : 2*W<2^32) (hp : ∀e∈es,0<e.1) (hso : (es.map Prod.fst).Pairwise (·≤·))
    (hlt : ∀e∈es,e.1<2^64) (hs : (es.map Prod.snd).sum<2^64) : Counted es (slide W es) ∧ (slide W es).window=W := by
  induction es using reverseRecOn with
  | nil => exact ⟨⟨nofun,.inl rfl,rfl,rfl⟩,rfl⟩
  | append_singleton es e ih =>
    rw [forall_mem_append,forall_mem_singleton] at hp hlt
    rw [map_append,pairwise_append] at hso
    have hs' := hs
    rw [map_append,sum_append] at hs'
    obtain ⟨h,hw⟩ := ih hp.1 hso.1 hlt.1 (by omega)
    have hle (x) (hx : x∈es) : x.1≤e.1 := hso.2.2 _ (mem_map_of_mem hx) _ (by simp)
    unfold slide at h hw ⊢
    rw [foldl_concat]
    have hu := h.update (by omega) (by omega) hp.2 hlt.2 hle hs
    rwa [hw] at hu

/-- The counters are exact, and so is the total: with the last 2 windows of the grid it interpolates the last one. -/
theorem sliding_window_exact (hW : 1≤W) (hW2 : 2*W<2^32) (hpos : ∀e∈es,0<e.1)
    (hsorted : (es.map Prod.fst).Pairwise (·≤·)) (ht : ∀e∈es,e.1≤t) (htlt : t<2^64)
    (hsum : (es.map Prod.snd).sum<2^64) :
    let w := slide W es
    let E := w.epochStart
    let a := (t-E)%W
    let c := eventsIn es (t-a) (t-a+W)
    let p := eventsIn es (t-a-W) (t-a)
    p*(W-a)<2^64 → w.currCount=eventsIn es E (E+W) ∧ w.prevCount=eventsIn es (E-W) E ∧ w.getTotal t=c+p*(W-a)/W ∧
        w.getTotal t≤eventsIn es (t+1-2*W) (t+1) := by
  intro w E a c p hm
  obtain ⟨h,hw⟩ := counted_slide hW hW2 hpos hsorted (fun e he => (ht e he).trans_lt htlt) hsum
  have hcu : w.currCount=eventsIn es E (E+W) := by rw [h.curr,hw]
  have hpr : w.prevCount=eventsIn es (E-W) E := by rw [h.prev,hw]
  have hE : E≤t := by
    obtain h0 | ⟨x,hx,hxe⟩ := h.last
    · exact h0.le.trans t.zero_le
    · exact hxe.trans (ht x hx)
  have hb (x) (hx : x∈es) : x.1<E+W := hw ▸ (h.start x hx).2
  have ha : a<W := Nat.mod_lt _ hW
  have hat : a≤t-E := Nat.mod_le _ _
  have hto : p*(W-a)/W≤p := Nat.div_le_of_le_mul (by rw [mul_comm W]; exact Nat.mul_le_mul_left p (Nat.sub_le W a))
  have hbo : c+p≤eventsIn es (t+1-2*W) (t+1) :=
    eventsIn_add_le (by omega) (by omega) fun e he => Nat.lt_succ_of_le (ht e he)
  have hs := eventsIn_le_sum es (t+1-2*W) (t+1)
  have heq : w.getTotal t=c+p*(W-a)/W := by
    unfold TfwSlidingWindow.getTotal
    dsimp only
    rw [sub_of_le htlt hE,show w.window=W from hw,trunc_of_lt hW2]
    split_ifs with h0 h1 h2
    · obtain rfl : es=[] := eq_nil_iff_forall_not_mem.2 fun x hx => (h.start x hx).1.ne' h0
      have hp : p=0 := rfl
      rw [hp,zero_mul,Nat.zero_div]
      rfl
    · have hta : t-a=E := by rw [show a=t-E from Nat.mod_eq_of_lt h1]; omega
      have hc : w.currCount=c := by rw [hcu,← hta]
      have hp : w.prevCount=p := by rw [hpr,← hta]
      rw [hc,hp,show t-w.epochStart=a from (Nat.mod_eq_of_lt h1).symm,trunc_of_lt hm,add_of_lt (by omega)]
    · have haE : t-E-W=a := by rw [← Nat.mod_eq_of_lt (show t-E-W<W by omega),← Nat.mod_eq_sub_mod (not_lt.1 h1)]
      have hta : t-a=E+W := by omega
      have hc : c=0 := eventsIn_eq_zero fun x hx => hta ▸ hb x hx
      have hp : w.currCount=p := by rw [hcu,← hta,show E=t-a-W by omega]
      rw [hc,hp,show t-w.epochStart-W=a from haE,trunc_of_lt hm,zero_add]
    · have hq : W*2≤W*((t-E)/W) := Nat.mul_le_mul_left W ((Nat.le_div_iff_mul_le hW).2 (not_lt.1 h2))
      have hmo : W*((t-E)/W)+a=t-E := Nat.div_add_mod _ _
      have hold (x) (hx : x∈es) : x.1<t-a-W := (hb x hx).trans_le (by omega)
      have hc : c=0 := eventsIn_eq_zero fun x hx => (hold x hx).trans_le (Nat.sub_le _ _)
      have hp : p=0 := eventsIn_eq_zero hold
      rw [hc,hp,zero_mul,Nat.zero_div]
  exact ⟨hcu,hpr,heq,heq ▸ (Nat.add_le_add_left hto c).trans hbo⟩

theorem sliding_window_exact_next : (slide 10 [(5,3),(12,4),(17,6)]).getTotal 18=6+7*(10-3)/10 :=
  (@sliding_window_exact [(5,3),(12,4),(17,6)] _ _ (by decide) (by decide) (by decide) (by decide) (by decide)
    (by decide) (by decide) (by decide)).2.2.1
end VetWaf.Frang
