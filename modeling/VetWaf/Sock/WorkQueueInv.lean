import VetWaf.Sock.WorkQueue

namespace VetWaf.Sock
open Function List Nat
variable {C W : Type*} [DecidableEq C]

/-- The first `k` longs of two items agree. -/
def Upto (k : Nat) (a b : WqItem W) : Prop := ∀i : Fin wqWords,i.val<k → a i=b i

lemma Upto.zero (a b : WqItem W) : Upto 0 a b := fun _ hi => absurd hi (not_lt_zero _)

variable {k : Nat} {q : TfwRBQueue C W} {a b : WqItem W} {q' : TfwRBQueue C W} {wins wins' : List (C×WqItem W)}
lemma Upto.eq (h : Upto k a b) (hk : ¬k<wqWords) : a=b := funext fun i => h i (by have := i.isLt; omega)

lemma Upto.copy (h : Upto k a b) (hk : k<wqWords) : Upto (k+1) (update a ⟨k,hk⟩ (b ⟨k,hk⟩)) b := by
  intro i hi
  by_cases hik : i=⟨k,hk⟩
  · rw [hik,update_self]
  · rw [update_of_ne hik]
    refine h i (lt_of_le_of_ne (le_of_lt_succ hi) fun hv => hik (Fin.ext hv))

/-- CPU `c` has a guard at or before position `head`. -/
def Guarded (q : TfwRBQueue C W) (c : C) (head : Nat) : Prop := ∃g,q.heads c=some g ∧ g≤head

/-- What holds at each place of a push on CPU `c` -/
def PushOk (q : TfwRBQueue C W) (wins : List (C×WqItem W)) (c : C) : Push W → Prop
  | .idle => q.heads c=none
  | .readFirst _ => True
  | .setGuard _ head => head≤q.head
  | .readTail _ _ head => Guarded q c head ∧ head≤q.head
  | .cmpxchg _ _ head => Guarded q c head ∧ head≤q.head ∧ head<q.tail+q.qsize
  | .readHead _ _ => Guarded q c q.head
  | .memcpy ptr head k => Guarded q c head ∧ q.tail≤head ∧ wins[head]?=some (c,ptr) ∧ Upto k (q.array (q.slot head)) ptr
  | .release _ full ret => if full then 0<ret else ret=0

def PopOk (q : TfwRBQueue C W) (wins : List (C×WqItem W)) : Pop C W → Prop
  | .idle | .readTail _ => True
  | .readHead _ tail | .scan _ tail _ => tail=q.tail
  | .memcpy buf tail k => tail=q.tail ∧ tail<q.lastHead ∧ ∃c item,wins[tail]?=some (c,item) ∧ Upto k buf item
  | .setTail buf tail => tail=q.tail ∧ tail<q.lastHead ∧ ∃c,wins[tail]?=some (c,buf)

def Pop.unread : Pop C W → List C
  | .scan _ _ cpus => cpus
  | _ => []

structure WqInv (s : Wq C W) : Prop where
  online : ∀c,c∉s.cpus → s.push c=.idle
  size : ∃k,s.q.qsize=2^k
  wins : s.wins.length=s.q.head
  le_head : s.q.tail ≤ s.q.head
  head_le : s.q.head ≤ s.q.tail+s.q.qsize
  lastHead : s.q.lastHead ≤ s.q.head
  push : ∀c∈s.cpus,PushOk s.q s.wins c (s.push c)
  pop : PopOk s.q s.wins s.pop
  seen : ∀c ptr head k,s.push c=.memcpy ptr head k → s.q.lastHead≤head ∨ c∈s.pop.unread
  stored : ∀p c item,s.q.tail≤p → s.wins[p]?=some (c,item) → s.q.array (s.q.slot p)=item ∨ ∃k,s.push c=.memcpy item p k
  popped : s.popped=(s.wins.map Prod.snd).take s.q.tail
  pushed : ∀c,s.winsOf c=s.pushedOf c++(s.push c).won
  rets : ∀r∈s.rets,if r.full then 0<r.ret else r.ret=0
  warned : s.warned=false

lemma wqInv_init (cpus : List C) (k : Nat) (mem : Nat → WqItem W) : WqInv (tfwWqInit cpus (2^k) mem) where
  online _ _ := rfl
  size := ⟨k,rfl⟩
  wins := rfl
  le_head := le_rfl
  head_le := zero_le
  lastHead := le_rfl
  push _ hc := if_pos hc
  pop := trivial
  seen _ _ _ _ h := nomatch h
  stored _ _ _ _ h := nomatch h
  popped := rfl
  pushed _ := rfl
  rets _ h := nomatch h
  warned := rfl

omit [DecidableEq C] in
lemma TfwRBQueue.slot_inj {lo a b : Nat} (hs : q.qsize=2^k) (ha : lo≤a)
    (ha' : a<lo+q.qsize) (hb : lo≤b) (hb' : b<lo+q.qsize) (h : q.slot a=q.slot b) : a=b := by
  unfold TfwRBQueue.slot at h
  rw [hs,and_two_pow_sub_one_eq_mod,and_two_pow_sub_one_eq_mod,← hs] at h
  -- the larger of the two minus the smaller is a multiple of the size, and less than it
  have h0 : ∀ {x y : Nat},y≤x → x<y+q.qsize → x%q.qsize=y%q.qsize → x=y := by
    intro x y hy hx hm
    have hd := dvd_of_mod_eq_zero (sub_mod_eq_zero_of_mod_eq hm)
    have := eq_zero_of_dvd_of_lt hd (by omega)
    omega
  obtain hab | hab := le_total a b
  · exact (h0 hab (by omega) h.symm).symm
  · exact h0 hab (by omega) h

omit [DecidableEq C] in
lemma PushOk.mono {c : C} {p : Push W}
    (h : PushOk q wins c p) (hhd : q'.heads c=q.heads c) (hh : q.head≤q'.head) (ht : q.tail≤q'.tail)
    (hs : q'.qsize=q.qsize) (hw : ∀ (i : Nat) w,wins[i]?=some w → wins'[i]?=some w)
    (hc : ∀ptr head k,p=.memcpy ptr head k →
      q'.tail≤head ∧ Upto k (q'.array (q'.slot head)) ptr) : PushOk q' wins' c p := by
  have hgu : ∀ {a b : Nat},a≤b → Guarded q c a → Guarded q' c b := by
    intro a b ha hg
    obtain ⟨g,hg,hga⟩ := hg
    exact ⟨g,hhd.trans hg,hga.trans ha⟩
  cases p with
  | idle => exact hhd.trans h
  | readFirst ptr => trivial
  | setGuard ptr head => exact Nat.le_trans h hh
  | readTail ptr budget head => exact ⟨hgu le_rfl h.1,h.2.trans hh⟩
  | cmpxchg ptr budget head =>
    refine ⟨hgu le_rfl h.1,h.2.1.trans hh,h.2.2.trans_le ?_⟩
    rw [hs]
    exact Nat.add_le_add_right ht _
  | readHead ptr budget => exact hgu hh h
  | memcpy ptr head k =>
    obtain ⟨hle,hu⟩ := hc ptr head k rfl
    exact ⟨hgu le_rfl h.1,hle,hw _ _ h.2.2.1,hu⟩
  | release ptr full ret => exact h

omit [DecidableEq C] in
lemma PopOk.mono {p : Pop C W} (h : PopOk q wins p) (hta : q'.tail=q.tail) (hl : q'.lastHead=q.lastHead)
    (hwi : ∀ (i : Nat) w,wins[i]?=some w → wins'[i]?=some w) : PopOk q' wins' p := by
  cases p with
  | idle => trivial
  | readTail buf => trivial
  | readHead buf tail => exact Eq.trans h hta.symm
  | scan buf tail cpus => exact Eq.trans h hta.symm
  | memcpy buf tail k =>
    obtain ⟨ht,hlt,c,item,hw,hu⟩ := h
    exact ⟨ht.trans hta.symm,hl ▸ hlt,c,item,hwi _ _ hw,hu⟩
  | setTail buf tail =>
    obtain ⟨ht,hlt,c,hw⟩ := h
    exact ⟨ht.trans hta.symm,hl ▸ hlt,c,hwi _ _ hw⟩

namespace WqInv
variable {s : Wq C W} {c : C} {p : Push W} {ptr : WqItem W}
lemma pushOk (h : WqInv s) (hp : s.push c=p) (hb : p ≠ .idle) : c∈s.cpus ∧ PushOk s.q s.wins c p := by
  have hc : c∈s.cpus := by
    by_contra ho
    exact hb (hp.symm.trans (h.online c ho))
  exact ⟨hc,hp ▸ h.push c hc⟩

lemma lt_head (h : WqInv s) {p : Nat} {w : C×WqItem W} (hp : s.wins[p]?=some w) : p<s.q.head := by
  rw [← h.wins]
  exact (List.getElem?_eq_some_iff.1 hp).1

lemma complete (h : WqInv s) (hr : s.pop.unread=[]) {p : Nat} {item : WqItem W}
    (hp : s.q.tail≤p) (hl : p<s.q.lastHead) (hw : s.wins[p]?=some (c,item)) : s.q.array (s.q.slot p)=item := by
  obtain hd | ⟨k,hk⟩ := h.stored p c item hp hw
  · exact hd
  · obtain hle | hm := h.seen c item p k hk
    · omega
    · rw [hr] at hm
      cases hm

variable {warned : Bool} (h : WqInv s)
include h
lemma move {g : Option Nat} (rets : List (PushRet C W))
    (hc : c∈s.cpus) (hd : ∀ptr head k,s.push c=.memcpy ptr head k → s.q.array (s.q.slot head)=ptr)
    (hn : ∀ptr head k,p ≠ .memcpy ptr head k) (hp : PushOk {s.q with heads:=update s.q.heads c g} s.wins c p)
    (hpu : ∀c',s.winsOf c'=Wq.pushedOf {s with rets:=rets} c'++(update s.push c p c').won)
    (hr : ∀r∈rets,if r.full then 0<r.ret else r.ret=0) (hwa : warned=false) : WqInv {s with
      push:=update s.push c p
      q:={s.q with heads:=update s.q.heads c g}
      rets:=rets
      warned:=warned} where
  online c' hc' := by
    have hne : c'≠c := fun heq => hc' (heq ▸ hc)
    exact (update_of_ne hne _ _).trans (h.online c' hc')
  size := h.size
  wins := h.wins
  le_head := h.le_head
  head_le := h.head_le
  lastHead := h.lastHead
  push c' hc' := by
    by_cases hcc : c'=c
    · subst hcc
      simpa only [update_self] using hp
    · simp only [update_of_ne hcc]
      refine (h.push c' hc').mono (update_of_ne hcc _ _) le_rfl le_rfl rfl (fun _ _ hw => hw) ?_
      intro ptr head k hco
      have hok := (h.pushOk hco nofun).2
      exact ⟨hok.2.1,hok.2.2.2⟩
  pop := h.pop.mono rfl rfl fun _ _ hw => hw
  seen c' ptr head k hco := by
    by_cases hcc : c'=c
    · subst hcc
      simp only [update_self] at hco
      exact absurd hco (hn ptr head k)
    · simp only [update_of_ne hcc] at hco
      exact h.seen c' ptr head k hco
  stored pos c' item hpo hwi := by
    obtain hd' | ⟨k,hco⟩ := h.stored pos c' item hpo hwi
    · exact .inl hd'
    · by_cases hcc : c'=c
      · subst hcc
        exact .inl (hd item pos k hco)
      · exact .inr ⟨k,(update_of_ne hcc _ _).trans hco⟩
  popped := h.popped
  pushed := hpu
  rets := hr
  warned := hwa

lemma goOn (hc : c∈s.cpus)
    (hd : ∀ptr head k,s.push c=.memcpy ptr head k → s.q.array (s.q.slot head)=ptr)
    (hn : ∀ptr head k,p ≠ .memcpy ptr head k) (hwo : p.won=(s.push c).won) (hp : PushOk s.q s.wins c p)
    (hw : warned=false) : WqInv (Wq.at {s with warned:=warned} c p) := by
  have hq : {s.q with heads:=update s.q.heads c (s.q.heads c)}=s.q := by rw [update_eq_self]
  have hm := h.move (p := p) (g := s.q.heads c) s.rets hc hd hn (by rwa [hq]) ?_ h.rets hw
  · rw [hq] at hm
    exact hm
  · intro c'
    rw [h.pushed c']
    by_cases hcc : c'=c
    · rw [hcc,update_self,hwo]
    · rw [update_of_ne hcc]

lemma slot_ne {a b : Nat} (ha : s.q.tail≤a) (ha' : a<s.q.head) (hb : s.q.tail≤b)
    (hb' : b<s.q.head) (hne : a≠b) : s.q.slot a≠s.q.slot b := by
  obtain ⟨k,hk⟩ := h.size
  have hle := h.head_le
  exact fun heq => hne (TfwRBQueue.slot_inj hk ha (by omega) hb (by omega) heq)

lemma win {budget : Nat} (hc : c∈s.cpus) (hpu : s.push c=.cmpxchg ptr budget s.q.head) :
    WqInv {s.at c (.memcpy ptr s.q.head 0) with
      q:={s.q with head:=s.q.head+1}
      wins:=s.wins++[(c,ptr)]} := by
  have hok := (h.pushOk hpu nofun).2
  obtain ⟨hg,-,hr⟩ := hok
  have hwi : ∀ (i : Nat) w,s.wins[i]?=some w → (s.wins++[(c,ptr)])[i]?=some w := by
    intro i w hw
    rw [List.getElem?_append_left (List.getElem?_eq_some_iff.1 hw).1]
    exact hw
  have hl : (s.wins++[(c,ptr)])[s.q.head]?=some (c,ptr) := by rw [← h.wins,getElem?_concat_length]
  have ho : ∀ {c'},c'≠c → update s.push c (.memcpy ptr s.q.head 0) c'=s.push c' := fun hcc => update_of_ne hcc _ _
  constructor
  case online =>
    intro c' hc'
    exact (ho fun heq => hc' (heq ▸ hc)).trans (h.online c' hc')
  case size => exact h.size
  case wins =>
    change (s.wins++[(c,ptr)]).length=s.q.head+1
    rw [length_append,h.wins,length_singleton]
  case le_head => exact h.le_head.trans (le_succ _)
  case head_le => exact hr
  case lastHead => exact h.lastHead.trans (le_succ _)
  case push =>
    intro c' hc'
    change PushOk _ _ c' (update s.push c (.memcpy ptr s.q.head 0) c')
    by_cases hcc : c'=c
    · subst hcc
      rw [update_self]
      exact ⟨hg,h.le_head,hl,Upto.zero _ _⟩
    · rw [ho hcc]
      refine (h.push c' hc').mono rfl (le_succ _) le_rfl rfl hwi ?_
      intro ptr' head k hco
      have hok := (h.pushOk hco nofun).2
      exact ⟨hok.2.1,hok.2.2.2⟩
  case pop => exact h.pop.mono rfl rfl hwi
  case seen =>
    intro c' ptr' head k hco
    change update s.push c (.memcpy ptr s.q.head 0) c'=_ at hco
    by_cases hcc : c'=c
    · subst hcc
      rw [update_self] at hco
      injection hco with _ hh _
      exact .inl (hh ▸ h.lastHead)
    · rw [ho hcc] at hco
      exact h.seen c' ptr' head k hco
  case stored =>
    intro pos c' item hp hwin
    change (s.wins++[(c,ptr)])[pos]?=some (c',item) at hwin
    by_cases hn : pos=s.q.head
    · rw [hn,hl] at hwin
      injection hwin with hwin
      injection hwin with hcc hitem
      subst hcc hitem hn
      exact .inr ⟨0,update_self _ _ _⟩
    · have hold : s.wins[pos]?=some (c',item) := by
        obtain ⟨hlt,-⟩ := List.getElem?_eq_some_iff.1 hwin
        rw [length_append,h.wins,length_singleton] at hlt
        rwa [List.getElem?_append_left (by rw [h.wins]; omega)] at hwin
      obtain hd | ⟨k,hco⟩ := h.stored pos c' item hp hold
      · exact .inl hd
      · have hcc : c'≠c := by
          intro heq
          rw [heq,hpu] at hco
          cases hco
        exact .inr ⟨k,(ho hcc).trans hco⟩
  case popped =>
    refine h.popped.trans ?_
    change _ = ((s.wins++[(c,ptr)]).map Prod.snd).take s.q.tail
    rw [map_append,take_append_of_le_length]
    rw [length_map,h.wins]
    exact h.le_head
  case pushed =>
    intro c'
    change List.filterMap _ (s.wins++[(c,ptr)])=s.pushedOf c'++(update s.push c _ c').won
    rw [filterMap_append]
    change s.winsOf c'++_ = _
    rw [h.pushed c']
    by_cases hcc : c'=c
    · rw [hcc,hpu,update_self]
      simp [Push.won]
    · rw [ho hcc]
      simp [Ne.symm hcc]
  case rets => exact h.rets
  case warned => exact h.warned

lemma copy {head k : Nat} (hc : c∈s.cpus) (hk : k<wqWords) (hpu : s.push c=.memcpy ptr head k) :
    WqInv {s.at c (.memcpy ptr head (k+1)) with
      q :=
        {s.q with
          array:=update s.q.array (s.q.slot head)
            (update (s.q.array (s.q.slot head)) ⟨k,hk⟩ (ptr ⟨k,hk⟩))}} := by
  have hok := (h.pushOk hpu nofun).2
  obtain ⟨hg,hle,hwi,hu⟩ := hok
  have ho : ∀ {c'},c'≠c → update s.push c (.memcpy ptr head (k+1)) c'=s.push c' := fun hcc => update_of_ne hcc _ _
  -- the slot of another position is not touched
  have hs : ∀ {pos w},s.q.tail≤pos → s.wins[pos]?=some w → pos≠head → update s.q.array (s.q.slot head)
        (update (s.q.array (s.q.slot head)) ⟨k,hk⟩ (ptr ⟨k,hk⟩)) (s.q.slot pos)=s.q.array (s.q.slot pos) :=
    fun hp hw hne => update_of_ne (h.slot_ne hp (h.lt_head hw) hle (h.lt_head hwi) hne) _ _
  constructor
  case online =>
    intro c' hc'
    exact (ho fun heq => hc' (heq ▸ hc)).trans (h.online c' hc')
  case size => exact h.size
  case wins => exact h.wins
  case le_head => exact h.le_head
  case head_le => exact h.head_le
  case lastHead => exact h.lastHead
  case push =>
    intro c' hc'
    change PushOk _ _ c' (update s.push c (.memcpy ptr head (k+1)) c')
    by_cases hcc : c'=c
    · subst hcc
      rw [update_self]
      refine ⟨hg,hle,hwi,?_⟩
      change Upto (k+1) (update s.q.array _ _ (s.q.slot head)) ptr
      rw [update_self]
      exact hu.copy hk
    · rw [ho hcc]
      refine (h.push c' hc').mono rfl le_rfl le_rfl rfl (fun _ _ hw => hw) ?_
      intro ptr' head' k' hco
      have hok := (h.pushOk hco nofun).2
      obtain ⟨-,hle',hw',hu'⟩ := hok
      have hne : head'≠head := by
        intro heq
        rw [heq,hwi] at hw'
        injection hw' with hpa
        exact hcc (congrArg Prod.fst hpa).symm
      refine ⟨hle',?_⟩
      change Upto k' (update s.q.array _ _ (s.q.slot head')) ptr'
      rwa [hs hle' hw' hne]
  case pop => exact h.pop.mono rfl rfl fun _ _ hw => hw
  case seen =>
    intro c' ptr' head' k' hco
    change update s.push c (.memcpy ptr head (k+1)) c'=_ at hco
    by_cases hcc : c'=c
    · subst hcc
      rw [update_self] at hco
      injection hco with _ hh _
      exact hh ▸ h.seen c' ptr head k hpu
    · rw [ho hcc] at hco
      exact h.seen c' ptr' head' k' hco
  case stored =>
    intro pos c' item hp hw'
    change update s.q.array _ _ (s.q.slot pos)=item ∨ ∃k',update s.push c _ c'=_
    by_cases hn : pos=head
    · change s.wins[pos]?=some (c',item) at hw'
      rw [hn,hwi] at hw'
      injection hw' with hpa
      injection hpa with hcc hitem
      subst hcc hitem hn
      exact .inr ⟨k+1,update_self _ _ _⟩
    · rw [hs hp hw' hn]
      obtain hd | ⟨k',hco⟩ := h.stored pos c' item hp hw'
      · exact .inl hd
      · refine .inr ⟨k',(ho fun heq => ?_).trans hco⟩
        rw [heq,hpu] at hco
        injection hco with _ hh _
        exact hn hh.symm
  case popped => exact h.popped
  case pushed =>
    intro c'
    change s.winsOf c'=s.pushedOf c'++(update s.push c _ c').won
    rw [h.pushed c']
    by_cases hcc : c'=c
    · rw [hcc,hpu,update_self]
      rfl
    · rw [ho hcc]
  case rets => exact h.rets
  case warned => exact h.warned

lemma release {full : Bool} {ret : Nat} (hc : c∈s.cpus) (hp : s.push c=.release ptr full ret) : WqInv {s.at c .idle with
      q:={s.q with heads:=update s.q.heads c none}
      rets:=s.rets++[⟨c,ptr,full,ret⟩]} := by
  have hok := (h.pushOk hp nofun).2
  refine h.move (p := .idle) (g := none) _ hc ?_ ?_ (update_self _ _ _) ?_ ?_ h.warned
  · intro ptr' head k hco
    rw [hp] at hco
    cases hco
  · intro ptr' head k hi
    cases hi
  · intro c'
    change _ = List.filterMap _ (s.rets++[⟨c,ptr,full,ret⟩])++_
    rw [filterMap_append,h.pushed c']
    change s.pushedOf c'++_ = s.pushedOf c'++_ ++ _
    rw [append_assoc]
    refine congrArg (s.pushedOf c' ++ ·) ?_
    by_cases hcc : c'=c
    · rw [hcc,hp,update_self]
      cases full with
      | true =>
        have hne : ret≠0 := pos_iff_ne_zero.1 hok
        simp [Push.won,hne]
      | false =>
        have h0 : ret=0 := hok
        simp [Push.won,h0]
    · rw [update_of_ne hcc]
      simp [Ne.symm hcc]
  · intro r hr
    obtain hr | hr := mem_append.1 hr
    · exact h.rets r hr
    · rw [mem_singleton.1 hr]
      exact hok

lemma look {lastHead : Nat} {p : Pop C W} {pops : List (Option (WqItem W)×Nat)}
    (hl : lastHead ≤ s.q.head) (hp : PopOk {s.q with lastHead:=lastHead} s.wins p)
    (hs : ∀c ptr head k,s.push c=.memcpy ptr head k → lastHead≤head ∨ c∈p.unread)
    (hpo : pops.filterMap Prod.fst=s.popped) :
    WqInv {s with q:={s.q with lastHead:=lastHead}, pop:=p, pops:=pops} := {h with
    lastHead:=hl
    pop:=hp
    seen:=hs
    popped:=hpo.trans h.popped
    push:=fun c hc => by
      refine (h.push c hc).mono rfl le_rfl le_rfl rfl (fun _ _ hw => hw) ?_
      intro ptr head k hco
      have hok:=(h.pushOk hco nofun).2
      exact ⟨hok.2.1,hok.2.2.2⟩}

lemma exists_win {p : Nat} (hp : p<s.q.lastHead) : ∃c item,s.wins[p]?=some (c,item) := by
  have hlt : p<s.wins.length := by
    rw [h.wins]
    exact hp.trans_le h.lastHead
  exact ⟨_,_,getElem?_eq_getElem hlt⟩

lemma take {buf : WqItem W} {tail : Nat} (hpo : s.pop=.setTail buf tail) : WqInv {s with
      q:={s.q with tail:=tail+1}
      pop:=.idle
      pops:=s.pops++[(some buf,tail)]} := by
  have hok := h.pop
  rw [hpo] at hok
  obtain ⟨ht,hlt,c,hwi⟩ := hok
  subst ht
  -- the copies in progress are all behind the position
  have hb : ∀ {c' ptr head k},s.push c'=.memcpy ptr head k → s.q.lastHead≤head := by
    intro c' ptr head k hc
    obtain hle | hm := h.seen c' ptr head k hc
    · exact hle
    · rw [hpo] at hm
      cases hm
  refine {h with
    le_head:=hlt.trans_le h.lastHead
    head_le:=?_
    pop:=trivial
    push:=?_
    seen:=?_
    stored:=fun p c' item hp hw' => h.stored p c' item (le_of_succ_le hp) hw'
    popped:=?_}
  · have := h.head_le
    change s.q.head ≤ s.q.tail+1+s.q.qsize
    omega
  · intro c' hc'
    refine (h.push c' hc').mono rfl le_rfl (le_succ _) rfl (fun _ _ hw => hw) ?_
    intro ptr head k hc
    have hok := (h.pushOk hc nofun).2
    exact ⟨hlt.trans_le (hb hc),hok.2.2.2⟩
  · intro c' ptr head k hc
    exact .inl (hb hc)
  · change (s.pops++[(some buf,s.q.tail)]).filterMap Prod.fst=(s.wins.map Prod.snd).take (s.q.tail+1)
    rw [filterMap_append,take_add_one,getElem?_map,hwi]
    exact congrArg (· ++ [buf]) h.popped

end WqInv

lemma guardMin_le (lastHead : Nat) (g : Option Nat) : guardMin lastHead g≤lastHead := by
  cases g with
  | none => exact le_rfl
  | some currH =>
    change (if currH<lastHead then currH else lastHead)≤lastHead
    split_ifs with hlt
    · exact hlt.le
    · exact le_rfl

lemma guardMin_le_guard (lastHead currH : Nat) : guardMin lastHead (some currH)≤currH := by
  change (if currH<lastHead then currH else lastHead)≤currH
  split_ifs with hlt
  · exact le_rfl
  · exact Nat.le_of_not_lt hlt

namespace WqInv
variable {s s' : Wq C W}
lemma pushStep (h : WqInv s) {c : C} (hst : s.pushStep c=some s') : WqInv s' := by
  unfold Wq.pushStep at hst
  cases hpu : s.push c with
  | idle =>
    rw [hpu] at hst
    cases hst
  | readFirst ptr =>
    simp only [hpu,Option.some.injEq] at hst
    obtain ⟨hc,hok⟩ := h.pushOk hpu nofun
    subst hst
    exact h.goOn hc (by rw [hpu]; nofun) nofun (by rw [hpu]; rfl) le_rfl h.warned
  | setGuard ptr head =>
    simp only [hpu,Option.some.injEq] at hst
    obtain ⟨hc,hok⟩ := h.pushOk hpu nofun
    subst hst
    refine h.move (g := some head) s.rets hc (by rw [hpu]; nofun) nofun ?_ ?_ h.rets h.warned
    · exact ⟨⟨head,update_self _ _ _,le_rfl⟩,hok⟩
    · intro c'
      rw [h.pushed c']
      by_cases hcc : c'=c
      · rw [hcc,hpu,update_self]
        rfl
      · rw [update_of_ne hcc]
  | readTail ptr budget head =>
    simp only [hpu] at hst
    obtain ⟨hc,hok⟩ := h.pushOk hpu nofun
    obtain ⟨hgu,hle⟩ := hok
    have hr := h.head_le
    have hwa : (s.warned || decide (s.q.tail+s.q.qsize<head))=false := by
      rw [h.warned,Bool.false_or,decide_eq_false_iff_not]
      omega
    have hp : 0<s.q.qsize := by
      obtain ⟨k,hk⟩ := h.size
      rw [hk]
      exact Nat.two_pow_pos k
    split_ifs at hst with hf hb <;> cases hst
    · refine h.goOn hc (by rw [hpu]; nofun) nofun (by rw [hpu]; rfl) ?_ hwa
      change 0<head
      omega
    · exact h.goOn hc (by rw [hpu]; nofun) nofun (by rw [hpu]; rfl)
        (hgu.imp fun g hg => ⟨hg.1,hg.2.trans hle⟩) hwa
    · refine h.goOn hc (by rw [hpu]; nofun) nofun (by rw [hpu]; rfl) ⟨hgu,hle,?_⟩ hwa
      omega
  | cmpxchg ptr budget head =>
    simp only [hpu] at hst
    obtain ⟨hc,hok⟩ := h.pushOk hpu nofun
    split_ifs at hst with hw <;> cases hst
    · subst hw
      exact h.win hc hpu
    · refine h.goOn hc (by rw [hpu]; nofun) nofun (by rw [hpu]; rfl) ?_ h.warned
      exact hok.1.imp fun g hg => ⟨hg.1,hg.2.trans hok.2.1⟩
  | readHead ptr budget =>
    simp only [hpu,Option.some.injEq] at hst
    obtain ⟨hc,hok⟩ := h.pushOk hpu nofun
    subst hst
    exact h.goOn hc (by rw [hpu]; nofun) nofun (by rw [hpu]; rfl) ⟨hok,le_rfl⟩ h.warned
  | memcpy ptr head k =>
    simp only [hpu] at hst
    obtain ⟨hc,hok⟩ := h.pushOk hpu nofun
    split_ifs at hst with hk <;> cases hst
    · exact h.copy hc hk hpu
    · refine h.goOn hc ?_ nofun (by rw [hpu]; rfl) rfl h.warned
      intro ptr' head' k' hco
      rw [hpu] at hco
      cases hco
      exact hok.2.2.2.eq hk
  | release ptr full ret =>
    simp only [hpu,Option.some.injEq] at hst
    obtain ⟨hc,hok⟩ := h.pushOk hpu nofun
    subst hst
    exact h.release hc hpu

lemma popStep (h : WqInv s) (hst : s.popStep=some s') : WqInv s' := by
  have hok := h.pop
  have hs := h.seen
  unfold Wq.popStep at hst
  cases hp : s.pop with
  | idle =>
    rw [hp] at hst
    cases hst
  | readTail buf =>
    simp only [hp] at hst hs
    split_ifs at hst with hb <;> cases hst
    · exact h.look h.lastHead rfl hs rfl
    · obtain ⟨c,item,hw⟩ := h.exists_win (Nat.lt_of_not_le hb)
      exact h.look h.lastHead ⟨rfl,Nat.lt_of_not_le hb,c,item,hw,Upto.zero _ _⟩ hs rfl
  | readHead buf tail =>
    simp only [hp,Option.some.injEq] at hst hok
    subst hst
    refine h.look le_rfl hok ?_ rfl
    intro c ptr head k hc
    refine .inr ?_
    by_contra ho
    rw [h.online c ho] at hc
    cases hc
  | scan buf tail cpus =>
    cases cpus with
    | nil =>
      simp only [hp] at hst hok hs
      split_ifs at hst with hb <;> cases hst
      · refine h.look h.lastHead trivial hs ?_
        rw [filterMap_append]
        exact append_nil _
      · subst hok
        obtain ⟨c,item,hw⟩ := h.exists_win (Nat.lt_of_not_le hb)
        exact h.look h.lastHead ⟨rfl,Nat.lt_of_not_le hb,c,item,hw,Upto.zero _ _⟩ hs rfl
    | cons c cpus =>
      simp only [hp,Option.some.injEq] at hst hok hs
      subst hst
      refine h.look ((guardMin_le _ _).trans h.lastHead) hok ?_ rfl
      intro c' ptr head k hc
      obtain hle | hm := hs c' ptr head k hc
      · exact .inl ((guardMin_le _ _).trans hle)
      · obtain hcc | hm := mem_cons.1 hm
        · -- this guard is at or before the position that its producer copies to
          have hcop := (h.pushOk hc nofun).2
          obtain ⟨g,hg,hle⟩ := hcop.1
          rw [← hcc,hg]
          exact .inl ((guardMin_le_guard _ _).trans hle)
        · exact .inr hm
  | memcpy buf tail k =>
    simp only [hp] at hst hok hs
    obtain ⟨ht,hlt,c,item,hw,hu⟩ := hok
    split_ifs at hst with hk <;> cases hst
    · refine h.look h.lastHead ⟨ht,hlt,c,item,hw,?_⟩ hs rfl
      rw [h.complete (by rw [hp]; rfl) (Nat.le_of_eq ht.symm) hlt hw]
      exact hu.copy hk
    · refine h.look h.lastHead ⟨ht,hlt,c,?_⟩ hs rfl
      rwa [hu.eq hk]
  | setTail buf tail =>
    simp only [hp,Option.some.injEq] at hst
    subst hst
    exact h.take hp

lemma step (h : WqInv s) {e : WqEvent C W} (hst : s.step e=some s') : WqInv s' := by
  cases e with
  | pushCall c ptr =>
    simp only [Wq.step] at hst
    split at hst
    · rename_i hi
      split_ifs at hst with hc
      cases hst
      exact h.goOn hc (by rw [hi]; nofun) nofun (by rw [hi]; rfl) trivial h.warned
    · cases hst
  | push c => exact h.pushStep hst
  | popCall buf =>
    simp only [Wq.step] at hst
    split at hst
    · rename_i hi
      cases hst
      have hs := h.seen
      rw [hi] at hs
      exact h.look h.lastHead trivial hs rfl
    · cases hst
  | pop => exact h.popStep hst
end WqInv
end VetWaf.Sock
