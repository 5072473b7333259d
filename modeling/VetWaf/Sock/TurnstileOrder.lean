import VetWaf.Sock.Turnstile

namespace VetWaf.Sock
open Function List Run Nat
variable {C P V : Type*}
def Ss.lanes (s : Ss C P V) : Lanes (SsWork P V) where
  lane := s.wq.wins.map Prod.snd
  taken := s.wq.q.tail
  aside := s.backlog
  out := s.out

abbrev Newest (l : Lanes (SsWork P V)) (sw : SsWork P V) : Prop := l.Latest SsWork.owner SsWork.num sw

/-- The works of producer `p` are at positions below `t`. -/
def Behind (l : Lanes (SsWork P V)) (p : P) (t : Nat) : Prop := ∀ (i : Nat) sw,l.lane[i]?=some sw → sw.owner=p → i<t

/-- What holds of the work `sw` at each place of its push -/
def PlaceOk (l : Lanes (SsWork P V)) (sw : SsWork P V) : Push (V×P×Nat) → Prop
  | .idle => False
  | .readFirst ptr | .readHead ptr _ => ptr=sw ∧ Newest l sw
  | .setGuard ptr head | .readTail ptr _ head | .cmpxchg ptr _ head => ptr=sw ∧ Newest l sw ∧ Behind l sw.owner head
  | .memcpy ptr _ _ | .release ptr false _ => ptr=sw ∧ l.Has sw
  | .release ptr true ticket => ptr=sw ∧ Newest l sw ∧ Behind l sw.owner ticket ∧ ticket≤l.lane.length

/-- What holds of a producer that has begun to queue `count` works -/
def ProducerOk (l : Lanes (SsWork P V)) (push : C → Push (V×P×Nat)) (p : P) (count : Nat) : Producer C P V → Prop
  | .idle => True
  | .pushing c sw => sw.owner=p ∧ sw.num+1=count ∧ PlaceOk l sw (push c)
  | .full ticket sw => sw.owner=p ∧ sw.num+1=count ∧ Newest l sw ∧ Behind l p ticket ∧ ticket≤l.lane.length

structure ConsumerOk (s : Ss C P V) : Prop where
  ticket : s.consumer=.test ∨ s.consumer=.lock ∨ s.consumer=.loop ∧ s.ticket≠0 →
    s.wq.q.tail=s.ticket ∨ s.wq.q.tail=s.ticket+1
  lock : s.consumer=.lock → ∃t,s.turn=some t ∧ t ≤ s.wq.q.tail

variable [DecidableEq C]

structure SsInv (s : Ss C P V) : Prop where
  wq : WqInv s.wq
  lanes : s.lanes.Ordered SsWork.owner SsWork.num
  turn : s.turn=updateTurn s.backlog
  producer : ∀p,ProducerOk s.lanes s.wq.push p (s.count p) (s.producer p)
  pushing : ∀c,s.wq.push c ≠ .idle → ∃p sw,s.producer p=.pushing c sw
  known : s.lanes.All fun sw => sw.num<s.count sw.owner
  queued : ∀sw∈s.queued,s.lanes.Has sw
  consumer : ConsumerOk s

lemma ssInv_init (cpus : List C) (k : Nat) (mem : Nat → SsWork P V) (sw : SsWork P V) :
    SsInv (ssInit cpus (2^k) mem sw) where
  wq := wqInv_init cpus k mem
  lanes := Lanes.ordered_empty _ _
  turn := rfl
  producer _ := trivial
  pushing _ h := absurd rfl h
  known := ⟨nofun,nofun,nofun⟩
  queued _ h := nomatch h
  consumer := ⟨nofun,nofun⟩

variable {l : Lanes (SsWork P V)} {sw : SsWork P V} {p : P} {c : C}
variable {l' : Lanes (SsWork P V)} {place : Push (V×P×Nat)} {p' : P} {W : Type*} {wq' : Wq C (V×P×Nat)} {t : Nat}

omit [DecidableEq C] in
lemma PlaceOk.mono (h : PlaceOk l sw place) (hn : Newest l sw → Newest l' sw) (hh : l.Has sw → l'.Has sw)
    (hb : ∀t,Behind l sw.owner t → Behind l' sw.owner t) (hl : l.lane.length≤l'.lane.length) : PlaceOk l' sw place := by
  cases place with
  | idle => exact h
  | readFirst ptr => exact ⟨h.1,hn h.2⟩
  | readHead ptr budget => exact ⟨h.1,hn h.2⟩
  | setGuard ptr head => exact ⟨h.1,hn h.2.1,hb _ h.2.2⟩
  | readTail ptr budget head => exact ⟨h.1,hn h.2.1,hb _ h.2.2⟩
  | cmpxchg ptr budget head => exact ⟨h.1,hn h.2.1,hb _ h.2.2⟩
  | memcpy ptr head k => exact ⟨h.1,hh h.2⟩
  | release ptr full ret =>
    cases full with
    | true => exact ⟨h.1,hn h.2.1,hb _ h.2.2.1,h.2.2.2.trans hl⟩
    | false => exact ⟨h.1,hh h.2⟩

omit [DecidableEq C] in
lemma ProducerOk.mono {push push' : C → Push (V×P×Nat)} {count : Nat}
    {pr : Producer C P V} (h : ProducerOk l push p count pr) (hpu : ∀c sw,pr=.pushing c sw → push' c=push c)
    (hnw : ∀sw : SsWork P V,sw.owner=p → Newest l sw → Newest l' sw)
    (hh : ∀sw,l.Has sw → l'.Has sw) (hb : ∀t,Behind l p t → Behind l' p t)
    (hl : l.lane.length≤l'.lane.length) : ProducerOk l' push' p count pr := by
  cases pr with
  | idle => trivial
  | pushing c sw =>
    obtain ⟨ho,hnu,hp⟩ := h
    refine ⟨ho,hnu,?_⟩
    rw [hpu c sw rfl]
    exact hp.mono (hnw sw ho) (hh sw) (fun t => ho ▸ hb t) hl
  | full ticket sw =>
    obtain ⟨ho,hnu,hn,hbe,hle⟩ := h
    exact ⟨ho,hnu,hnw sw ho hn,hb _ hbe,hle.trans hl⟩

lemma SsInv.other_cpu {s : Ss C P V} (h : SsInv s) {c' : C} {sw' : SsWork P V}
    (hp : s.producer p=.pushing c sw) (hp' : s.producer p'=.pushing c' sw') (hne : p'≠p) : c'≠c := by
  have hpt : ∀ {l : Lanes (SsWork P V)} {place} {x y : SsWork P V},PlaceOk l x place → PlaceOk l y place → x=y := by
    intro l place x y hx hy
    cases place with
    | idle => exact hx.elim
    | release ptr full ret => cases full <;> exact hx.1.symm.trans hy.1
    | _ => exact hx.1.symm.trans hy.1
  have hok := h.producer p
  have hok' := h.producer p'
  rw [hp] at hok
  rw [hp'] at hok'
  intro hc
  have hs : sw'=sw := hpt (hc ▸ hok'.2.2) hok.2.2
  exact hne (hok'.1.symm.trans (hs ▸ hok.1))

lemma pushStep_frame {wq wq' : Wq C W} (h : wq.pushStep c=some wq') :
    wq'.q.tail=wq.q.tail ∧ ∃place,wq'.push=update wq.push c place := by
  unfold Wq.pushStep at h
  split at h
  · cases h
  · cases h
    exact ⟨rfl,_,rfl⟩
  · cases h
    exact ⟨rfl,_,rfl⟩
  · dsimp only at h
    split_ifs at h <;> cases h <;> exact ⟨rfl,_,rfl⟩
  · split_ifs at h <;> cases h <;> exact ⟨rfl,_,rfl⟩
  · cases h
    exact ⟨rfl,_,rfl⟩
  · split_ifs at h <;> cases h <;> exact ⟨rfl,_,rfl⟩
  · cases h
    exact ⟨rfl,_,rfl⟩

/-- What one step of a push does for its work `sw` -/
inductive PushMove (l : Lanes (SsWork P V)) (sw : SsWork P V) (wq wq' : Wq C (V×P×Nat)) (c : C) : Prop where
  | goOn (hret : (wq.push c).ret=none) (hwins : wq'.wins=wq.wins) (hplace : PlaceOk l sw (wq'.push c))
  | win (hret : (wq.push c).ret=none) (hwins : wq'.wins=wq.wins++[(c,sw)]) (hnew : Newest l sw) (head : Nat)
    (hplace : wq'.push c=.memcpy sw head 0)
  | done (hret : (wq.push c).ret=some 0) (hwins : wq'.wins=wq.wins) (hhas : l.Has sw)
    (hidle : wq'.push c=.idle)
  | full (ticket : Nat) (hret : (wq.push c).ret=some (ticket+1)) (hwins : wq'.wins=wq.wins)
    (hnew : Newest l sw) (hbehind : Behind l sw.owner (ticket+1)) (hle : ticket+1≤l.lane.length)
    (hidle : wq'.push c=.idle)

lemma pushStep_move {wq : Wq C (V×P×Nat)}
    (h : WqInv wq) (hl : l.lane=wq.wins.map Prod.snd) (hpl : PlaceOk l sw (wq.push c))
    (hst : wq.pushStep c=some wq') : PushMove l sw wq wq' c := by
  have hle : l.lane.length=wq.q.head := by rw [hl,length_map,h.wins]
  -- every position in the lane is below the head
  have hb : ∀p,Behind l p wq.q.head := by
    intro p i x hx _
    rw [← hle]
    exact (List.getElem?_eq_some_iff.1 hx).1
  have hu : ∀place,update wq.push c place c=place := fun place => update_self _ _ _
  unfold Wq.pushStep at hst
  cases hpu : wq.push c with
  | idle =>
    rw [hpu] at hpl
    exact hpl.elim
  | readFirst ptr =>
    simp only [hpu,Option.some.injEq] at hst hpl
    subst hst
    refine .goOn (by rw [hpu]; rfl) rfl ?_
    simp only [Wq.at,hu]
    exact ⟨hpl.1,hpl.2,hb _⟩
  | setGuard ptr head =>
    simp only [hpu,Option.some.injEq] at hst hpl
    subst hst
    refine .goOn (by rw [hpu]; rfl) rfl ?_
    simp only [Wq.at,hu]
    exact hpl
  | readTail ptr budget head =>
    simp only [hpu] at hst hpl
    have hok := (h.pushOk hpu nofun).2
    split_ifs at hst <;> cases hst <;> refine .goOn (by rw [hpu]; rfl) rfl ?_ <;> simp only [Wq.at,hu]
    · exact ⟨hpl.1,hpl.2.1,hpl.2.2,hle.symm ▸ hok.2⟩
    · exact ⟨hpl.1,hpl.2.1⟩
    · exact hpl
  | cmpxchg ptr budget head =>
    simp only [hpu] at hst hpl
    obtain ⟨hp,hn,-⟩ := hpl
    subst hp
    split_ifs at hst <;> cases hst
    · exact .win (by rw [hpu]; rfl) rfl hn head (hu _)
    · refine .goOn (by rw [hpu]; rfl) rfl ?_
      simp only [Wq.at,hu]
      exact ⟨rfl,hn⟩
  | readHead ptr budget =>
    simp only [hpu,Option.some.injEq] at hst hpl
    subst hst
    refine .goOn (by rw [hpu]; rfl) rfl ?_
    simp only [Wq.at,hu]
    exact ⟨hpl.1,hpl.2,hb _⟩
  | memcpy ptr head k =>
    simp only [hpu] at hst hpl
    split_ifs at hst <;> cases hst <;> refine .goOn (by rw [hpu]; rfl) rfl ?_ <;> simp only [Wq.at,hu] <;> exact hpl
  | release ptr full ret =>
    simp only [hpu,Option.some.injEq] at hst hpl
    have hok := (h.pushOk hpu nofun).2
    subst hst
    cases full with
    | true =>
      obtain ⟨ticket,ht⟩ := exists_eq_succ_of_ne_zero (pos_iff_ne_zero.1 hok)
      subst ht
      exact .full ticket (by rw [hpu]; rfl) rfl hpl.2.1 hpl.2.2.1 hpl.2.2.2 (hu _)
    | false =>
      have h0 : ret=0 := hok
      subst h0
      exact .done (by rw [hpu]; rfl) rfl hpl.2 (hu _)

variable [DecidableEq P] {s s' : Ss C P V}

omit [DecidableEq P] in
lemma SsInv.other_producer (h : SsInv s) (hp : s.producer p=.pushing c sw) (hne : p'≠p)
    (hn : ∀sw' : SsWork P V,sw'.owner=p' → Newest s.lanes sw' → Newest l sw')
    (hh : ∀sw',s.lanes.Has sw' → l.Has sw') (hb : ∀t,Behind s.lanes p' t → Behind l p' t)
    (hl : s.lanes.lane.length≤l.lane.length) :
    ProducerOk l (update s.wq.push c place) p' (s.count p') (s.producer p') := by
  refine (h.producer p').mono ?_ hn hh hb hl
  intro c' sw' hp'
  exact update_of_ne (h.other_cpu hp hp' hne) _ _

omit [DecidableEq C] [DecidableEq P] in
lemma ConsumerOk.congr (h : ConsumerOk s) (hc : s'.consumer=s.consumer) (hti : s'.ticket=s.ticket)
    (htu : s'.turn=s.turn) (ht : s'.wq.q.tail=s.wq.q.tail) : ConsumerOk s' := by
  refine ⟨?_,?_⟩
  · rw [hc,hti,ht]
    exact h.ticket
  · rw [hc,htu,ht]
    exact h.lock

lemma SsInv.pushTo (h : SsInv s) {r : Producer C P V} (queued : List (SsWork P V))
    (hp : s.producer p=.pushing c sw) (hw : s.wq.pushStep c=some wq')
    (hl : ({s with wq:=wq'} : Ss C P V).lanes=l) (ho : l.Ordered SsWork.owner SsWork.num)
    (hpr : ProducerOk l wq'.push p (s.count p) r) (hpus : wq'.push c ≠ .idle → ∃sw',r=.pushing c sw')
    (hn : ∀sw' : SsWork P V,sw'.owner≠p → Newest s.lanes sw' → Newest l sw')
    (hh : ∀sw',s.lanes.Has sw' → l.Has sw') (hbe : ∀p' t,p'≠p → Behind s.lanes p' t → Behind l p' t)
    (hle : s.lanes.lane.length≤l.lane.length) (hk : l.All fun x => x.num<s.count x.owner) (hq : ∀x∈queued,l.Has x) :
    SsInv {s with wq:=wq', producer:=update s.producer p r, queued:=queued} := by
  obtain ⟨ht,place,hpu⟩ := pushStep_frame hw
  subst hl
  constructor
  case wq => exact h.wq.pushStep hw
  case lanes => exact ho
  case turn => exact h.turn
  case producer =>
    intro p'
    change ProducerOk _ wq'.push p' (s.count p') (update s.producer p r p')
    by_cases hpp : p'=p
    · subst hpp
      rw [update_self]
      exact hpr
    · rw [update_of_ne hpp,hpu]
      exact h.other_producer hp hpp (fun sw' hs => hn sw' (hs ▸ hpp)) hh (fun t => hbe p' t hpp) hle
  case pushing =>
    intro c' hb
    change wq'.push c' ≠ .idle at hb
    change ∃p' sw',update s.producer p r p'=.pushing c' sw'
    by_cases hcc : c'=c
    · subst hcc
      obtain ⟨sw',hs'⟩ := hpus hb
      exact ⟨p,sw',by rw [update_self,hs']⟩
    · rw [hpu,update_of_ne hcc] at hb
      obtain ⟨p',sw',hp'⟩ := h.pushing c' hb
      refine ⟨p',sw',?_⟩
      rw [update_of_ne,hp']
      intro hpp
      rw [hpp,hp] at hp'
      injection hp' with hc _
      exact hcc hc.symm
  case known => exact hk
  case queued => exact hq
  case consumer => exact h.consumer.congr rfl rfl rfl ht

omit [DecidableEq C] [DecidableEq P] in
lemma Behind.enter (h : Behind l p t) (hne : p≠sw.owner) : Behind {l with lane:=l.lane++[sw]} p t := by
  intro i x hx ho
  obtain hx | ⟨-,hxs⟩ := Lanes.getElem?_concat_some hx
  · exact h i x hx ho
  · exact absurd (hxs ▸ ho).symm hne

lemma SsInv.push (h : SsInv s) (hst : s.step (.push p)=some s') : SsInv s' := by
  simp only [Ss.step] at hst
  split at hst
  case h_2 => cases hst
  rename_i c sw hp
  obtain ⟨wq',hwq,hs'⟩ := Option.map_eq_some_iff.1 hst
  have hok := h.producer p
  rw [hp] at hok
  obtain ⟨ho,hnu,hpl⟩ := hok
  obtain ⟨hta,-⟩ := pushStep_frame hwq
  have hla : wq'.wins=s.wq.wins → ({s with wq:=wq'} : Ss C P V).lanes=s.lanes := by
    intro hw
    unfold Ss.lanes
    rw [hw,hta]
  -- while the push goes on the producer stays where it is
  have hs : update s.producer p (.pushing c sw)=s.producer := by rw [← hp,update_eq_self]
  cases pushStep_move h.wq rfl hpl hwq with
  | goOn hr hw hp' =>
    have ht := h.pushTo (r := .pushing c sw) s.queued hp hwq (hla hw) h.lanes ⟨ho,hnu,hp'⟩
      (fun _ => ⟨sw,rfl⟩) (fun _ _ hn => hn) (fun _ hh => hh) (fun _ _ _ hb => hb) le_rfl h.known h.queued
    rw [hs] at ht
    rw [← hs',hr]
    exact ht
  | win hr hw hnew head hp' =>
    have hl : ({s with wq:=wq'} : Ss C P V).lanes={s.lanes with lane:=s.lanes.lane++[sw]} := by
      unfold Ss.lanes
      rw [hw,hta,map_append]
      rfl
    have hse : Lanes.Has {s.lanes with lane:=s.lanes.lane++[sw]} sw :=
      .inl (.lane s.lanes.lane.length h.lanes.le getElem?_concat_length)
    have ht := h.pushTo (r := .pushing c sw) s.queued hp hwq hl (h.lanes.enter hnew)
      ⟨ho,hnu,by rw [hp']; exact ⟨rfl,hse⟩⟩ (fun _ => ⟨sw,rfl⟩)
      (fun sw' hne hn => hn.enter fun heq => absurd (heq.symm.trans ho) hne)
      (fun _ hh => hh.enter) (fun p' t hne hb => hb.enter (ho ▸ hne))
      (by rw [length_append]; exact le_add_right _ _) (h.known.enter (by rw [ho]; omega))
      (fun x hx => (h.queued x hx).enter)
    rw [hs] at ht
    rw [← hs',hr]
    exact ht
  | done hr hw hha hi =>
    have ht := h.pushTo (r := .idle) (s.queued++[sw]) hp hwq (hla hw) h.lanes trivial
      (fun hbu => absurd hi hbu) (fun _ _ hn => hn) (fun _ hh => hh) (fun _ _ _ hb => hb) le_rfl
      h.known (forall_mem_append.2 ⟨h.queued,forall_mem_singleton.2 hha⟩)
    rw [← hs',hr]
    exact ht
  | full ticket hr hw hnew hbe hle hi =>
    have ht := h.pushTo (r := .full (ticket+1) sw) s.queued hp hwq (hla hw) h.lanes
      ⟨ho,hnu,hnew,ho ▸ hbe,hle⟩ (fun hbu => absurd hi hbu) (fun _ _ hn => hn)
      (fun _ hh => hh) (fun _ _ _ hb => hb) le_rfl h.known h.queued
    rw [← hs',hr]
    exact ht

lemma SsInv.setProducer (h : SsInv s) (hp : ∀c sw,s.producer p ≠ .pushing c sw) : SsInv (s.setProducer p .idle) where
  wq := h.wq
  lanes := h.lanes
  turn := h.turn
  producer p' := by
    change ProducerOk s.lanes s.wq.push p' (s.count p') (update s.producer p .idle p')
    by_cases hpp : p'=p
    · rw [hpp,update_self]
      trivial
    · rw [update_of_ne hpp]
      exact h.producer p'
  pushing c hb := by
    obtain ⟨p',sw,hp'⟩ := h.pushing c hb
    refine ⟨p',sw,(update_of_ne ?_ _ _).trans hp'⟩
    intro hpp
    exact hp c sw (hpp ▸ hp')
  known := h.known
  queued := h.queued
  consumer := h.consumer.congr rfl rfl rfl rfl

lemma SsInv.queue (h : SsInv s) {data : WqItem V} (hst : s.step (.queue p c data)=some s') : SsInv s' := by
  simp only [Ss.step] at hst
  split at hst
  case h_2 => cases hst
  rename_i hp
  obtain ⟨wq',hw,hs'⟩ := Option.map_eq_some_iff.1 hst
  have hi := h.wq.step hw
  simp only [Wq.step] at hw
  split at hw
  case h_2 => cases hw
  rename_i hil
  split_ifs at hw
  cases hw
  subst hs'
  -- no other producer pushes on this CPU
  have hf : ∀p' sw,s.producer p' ≠ .pushing c sw := by
    intro p' sw hp'
    have hok := h.producer p'
    rw [hp'] at hok
    have hpl := hok.2.2
    rw [hil] at hpl
    exact hpl
  have hco : ∀ {p'},s.count p'≤update s.count p (s.count p+1) p' := by
    intro p'
    by_cases hpp : p'=p
    · rw [hpp,update_self]
      exact le_succ _
    · rw [update_of_ne hpp]
  constructor
  case wq => exact hi
  case lanes => exact h.lanes
  case turn => exact h.turn
  case producer =>
    intro p'
    change ProducerOk s.lanes (update s.wq.push c _) p' (update s.count p _ p')
      (update s.producer p _ p')
    by_cases hpp : p'=p
    · subst hpp
      rw [update_self,update_self]
      refine ⟨rfl,rfl,?_⟩
      rw [update_self]
      have hne : ∀x : SsWork P V,x.num<s.count x.owner →
          Lanes.Before SsWork.owner SsWork.num x (SsWork.mark data p' (s.count p')) := by
        intro x hx hon
        rw [SsWork.owner_mark] at hon
        rw [SsWork.num_mark,← hon]
        exact hx
      exact ⟨rfl,fun x hx => hne x (h.known.lane x hx),fun n hn => hne n.2 (h.known.aside n hn),
        fun o ho => hne o.2 (h.known.out o ho)⟩
    · rw [update_of_ne hpp,update_of_ne hpp]
      refine (h.producer p').mono ?_ (fun _ _ hn => hn) (fun _ hh => hh) (fun _ hb => hb) le_rfl
      intro c' sw' hp'
      refine update_of_ne (fun hc => ?_) _ _
      subst hc
      exact hf p' sw' hp'
  case pushing =>
    intro c' hbu
    change update s.wq.push c _ c' ≠ .idle at hbu
    change ∃p' sw',update s.producer p _ p'=.pushing c' sw'
    by_cases hc : c'=c
    · exact ⟨p,_,by rw [update_self,hc]⟩
    · rw [update_of_ne hc] at hbu
      obtain ⟨p',sw',hp'⟩ := h.pushing c' hbu
      refine ⟨p',sw',?_⟩
      rw [update_of_ne,hp']
      intro hpp
      rw [hpp,hp] at hp'
      cases hp'
  case known =>
    exact ⟨fun x hx => (h.known.lane x hx).trans_le hco,fun n hn => (h.known.aside n hn).trans_le hco,
      fun o ho => (h.known.out o ho).trans_le hco⟩
  case queued => exact h.queued
  case consumer => exact h.consumer.congr rfl rfl rfl rfl

omit [DecidableEq P] in
lemma SsInv.turn_le (h : SsInv s) (ht : s.turn=some t) : ∀n∈s.backlog,t≤n.1 := by
  have ha : s.backlog.Pairwise fun n m => n.1 ≤ m.1 ∧ Lanes.Before SsWork.owner SsWork.num n.2 m.2 := h.lanes.aside
  have htu := h.turn
  rw [ht,updateTurn] at htu
  cases hb : s.backlog with
  | nil => nofun
  | cons m rest =>
    rw [hb] at ha htu
    cases htu
    refine forall_mem_cons.2 ⟨le_rfl,?_⟩
    exact fun n hn => ((pairwise_cons.1 ha).1 n hn).1

lemma SsInv.turnstile (h : SsInv s) (hs : s.inTurn (.turnstile p)=true)
    (hst : s.step (.turnstile p)=some s') : SsInv s' := by
  simp only [Ss.step] at hst
  split at hst
  case h_2 => cases hst
  rename_i ticket sw hp
  cases hst
  simp only [Ss.inTurn,hp,all_eq_true,decide_eq_true_eq] at hs
  have hok := h.producer p
  rw [hp] at hok
  obtain ⟨ho,hnu,hne,hbe,hle⟩ := hok
  -- the new ticket is not below the others, so it is the turn only when there is no other
  have htu : (if turnAbove s.turn ticket then some ticket else s.turn)=updateTurn (s.backlog++[(ticket,sw)]) := by
    rw [h.turn]
    cases hb : s.backlog with
    | nil => rfl
    | cons n rest =>
      have hn := hs n (hb ▸ (.head _))
      exact if_neg (by simpa [turnAbove,updateTurn] using hn)
  constructor
  case wq => exact h.wq
  case lanes => exact h.lanes.setAside hne hle hs (fun i y hy hyx => hbe i y hy (hyx.trans ho))
  case turn => exact htu
  case producer =>
    intro p'
    change ProducerOk {s.lanes with aside:=s.backlog++[(ticket,sw)]} s.wq.push p' (s.count p')
      (update s.producer p .idle p')
    by_cases hpp : p'=p
    · rw [hpp,update_self]
      trivial
    · rw [update_of_ne hpp]
      refine (h.producer p').mono (fun _ _ _ => rfl) ?_ (fun _ hh => hh.setAside) (fun _ hb => hb) le_rfl
      intro sw' ho' hn
      exact hn.setAside fun heq => absurd (ho'.symm.trans (heq.symm.trans ho)) hpp
  case pushing =>
    intro c hbu
    obtain ⟨p',sw',hp'⟩ := h.pushing c hbu
    refine ⟨p',sw',(update_of_ne ?_ _ _).trans hp'⟩
    intro hpp
    rw [hpp,hp] at hp'
    cases hp'
  case known => exact h.known.setAside (by rw [ho]; omega)
  case queued =>
    refine forall_mem_append.2 ⟨fun x hx => (h.queued x hx).setAside,forall_mem_singleton.2 ?_⟩
    exact .inl (.aside ticket (mem_append_right _ (.head _)))
  case consumer =>
    refine ⟨h.consumer.ticket,fun hl => ?_⟩
    obtain ⟨t,ht,hle⟩ := h.consumer.lock hl
    refine ⟨t,htu.trans ?_,hle⟩
    rw [h.turn] at ht
    unfold updateTurn at ht ⊢
    cases hb : s.backlog with
    | nil =>
      rw [hb] at ht
      cases ht
    | cons n rest =>
      rw [hb] at ht
      exact ht

inductive PopMove {W : Type*} (wq wq' : Wq C W) : Prop where
  | goOn (hpop : wq'.pop ≠ .idle) (htail : wq'.q.tail=wq.q.tail)
  | busy (hpop : wq'.pop=.idle) (hpops : wq'.pops=wq.pops++[(none,wq.q.tail)])
    (htail : wq'.q.tail=wq.q.tail)
  | took (buf : WqItem W) (hset : wq.pop=.setTail buf wq.q.tail) (hpop : wq'.pop=.idle)
    (hpops : wq'.pops=wq.pops++[(some buf,wq.q.tail)]) (htail : wq'.q.tail=wq.q.tail+1)
    (hwin : (wq.wins.map Prod.snd)[wq.q.tail]?=some buf)

lemma popStep_move {wq wq' : Wq C W} (h : WqInv wq) (hst : wq.popStep=some wq') :
    PopMove wq wq' ∧ wq'.push=wq.push ∧ wq'.wins=wq.wins := by
  have hok := h.pop
  unfold Wq.popStep at hst
  cases hp : wq.pop with
  | idle =>
    rw [hp] at hst
    cases hst
  | readTail buf =>
    simp only [hp] at hst
    split_ifs at hst <;> cases hst <;> exact ⟨.goOn nofun rfl,rfl,rfl⟩
  | readHead buf tail =>
    simp only [hp,Option.some.injEq] at hst
    subst hst
    exact ⟨.goOn nofun rfl,rfl,rfl⟩
  | scan buf tail cpus =>
    rw [hp] at hok
    subst hok
    cases cpus with
    | nil =>
      simp only [hp] at hst
      split_ifs at hst <;> cases hst
      · exact ⟨.busy rfl rfl rfl,rfl,rfl⟩
      · exact ⟨.goOn nofun rfl,rfl,rfl⟩
    | cons c cpus =>
      simp only [hp,Option.some.injEq] at hst
      subst hst
      exact ⟨.goOn nofun rfl,rfl,rfl⟩
  | memcpy buf tail k =>
    simp only [hp] at hst
    split_ifs at hst <;> cases hst <;> exact ⟨.goOn nofun rfl,rfl,rfl⟩
  | setTail buf tail =>
    rw [hp] at hok
    obtain ⟨ht,-,c,hw⟩ := hok
    subst ht
    simp only [hp,Option.some.injEq] at hst
    subst hst
    exact ⟨.took buf hp rfl rfl rfl (by rw [getElem?_map,hw]; rfl),rfl,rfl⟩

omit [DecidableEq P] in
lemma SsInv.consume (h : SsInv s) (hw : WqInv s'.wq) (hpu : s'.wq.push=s.wq.push)
    (ho : s'.lanes.Ordered SsWork.owner SsWork.num) (ht : s'.turn=updateTurn s'.backlog)
    (hp : s'.producer=s.producer) (hc : s'.count=s.count) (hq : s'.queued=s.queued)
    (hl : s'.lanes.lane=s.lanes.lane) (ha : ∀q,s.lanes.All q → s'.lanes.All q)
    (hh : ∀sw,s.lanes.Has sw → s'.lanes.Has sw) (hcon : ConsumerOk s') : SsInv s' where
  wq := hw
  lanes := ho
  turn := ht
  producer p := by
    rw [hp,hc,hpu]
    refine (h.producer p).mono (fun _ _ _ => rfl) (fun _ _ hn => ha _ hn) hh ?_ (by rw [hl])
    intro t hb i sw hs
    rw [hl] at hs
    exact hb i sw hs
  pushing c hbu := by
    rw [hpu] at hbu
    rw [hp]
    exact h.pushing c hbu
  known := by
    rw [hc]
    exact ha _ h.known
  queued sw hs := by
    rw [hq] at hs
    exact hh sw (h.queued sw hs)
  consumer := hcon

omit [DecidableEq P] in
lemma SsInv.wait (h : SsInv s) (hw : WqInv s'.wq) (hpu : s'.wq.push=s.wq.push)
    (hl : s'.lanes=s.lanes) (ht : s'.turn=s.turn) (hp : s'.producer=s.producer)
    (hco : s'.count=s.count) (hqu : s'.queued=s.queued) (hc : ConsumerOk s') : SsInv s' := by
  have hb : s'.backlog=s.backlog := congrArg Lanes.aside hl
  refine h.consume hw hpu (hl ▸ h.lanes) ?_ hp hco hqu (by rw [hl]) (fun q hq => hl ▸ hq)
    (fun sw hs => hl ▸ hs) hc
  rw [ht,hb,h.turn]

omit [DecidableEq P] in
lemma SsInv.callPop (h : SsInv s) {next : Consumer} {b : Nat} (hn : next=.first ∨ next=.last)
    (hst : ({s with budget:=b} : Ss C P V).callPop next=some s') : SsInv s' := by
  obtain ⟨wq',hw,hs'⟩ := Option.map_eq_some_iff.1 hst
  have hi := h.wq.step hw
  simp only [Wq.step] at hw
  split at hw
  case h_2 => cases hw
  cases hw
  subst hs'
  refine h.wait hi rfl rfl rfl rfl rfl rfl ⟨?_,?_⟩ <;> rcases hn with rfl | rfl <;> (intro hc; simp at hc)

omit [DecidableEq P] in
lemma SsInv.inPop (h : SsInv s) {busy : Consumer} (hcn : s.consumer=.first ∨ s.consumer=.last)
    (hbu : busy=.test ∨ busy=.away) (hsa : ∀buf,s.wq.pop=.setTail buf s.wq.q.tail → turnAbove s.turn s.wq.q.tail=true)
    (hst : s.inPop busy=some s') : SsInv s' := by
  obtain ⟨wq',hwq,hs'⟩ := Option.map_eq_some_iff.1 hst
  have hi := h.wq.popStep hwq
  obtain ⟨hm,hpu,hwi⟩ := popStep_move h.wq hwq
  cases hm with
  | goOn hp ht =>
    split at hs'
    · rename_i hil _
      exact absurd hil hp
    · subst hs'
      refine h.wait hi hpu ?_ rfl rfl rfl rfl ⟨?_,?_⟩
      · unfold Ss.lanes
        rw [hwi,ht]
      · intro hc
        change s.consumer=.test ∨ s.consumer=.lock ∨ s.consumer=.loop ∧ s.ticket≠0 at hc
        rcases hcn with hco | hco <;> rw [hco] at hc <;> simp at hc
      · intro hc
        change s.consumer=.lock at hc
        rcases hcn with hco | hco <;> rw [hco] at hc <;> cases hc
  | busy hp hpo ht =>
    rw [hp,hpo,getLast?_concat] at hs'
    subst hs'
    refine h.wait hi hpu ?_ rfl rfl rfl rfl ⟨fun _ => .inl ht,?_⟩
    · change Lanes.mk (wq'.wins.map Prod.snd) wq'.q.tail s.backlog s.out=s.lanes
      rw [hwi,ht]
      rfl
    · intro hc
      change busy=.lock at hc
      rcases hbu with hb | hb <;> rw [hb] at hc <;> cases hc
  | took buf hs hp hpo ht hw =>
    rw [hp,hpo,getLast?_concat] at hs'
    subst hs'
    have hl : ({s with wq:=wq'}.popRet busy (some buf,s.wq.q.tail)).lanes =
        {s.lanes with taken:=s.lanes.taken+1, out:=s.lanes.out++[(none,buf)]} := by
      change Lanes.mk (wq'.wins.map Prod.snd) wq'.q.tail s.backlog (s.out++[(none,buf)])=_
      rw [hwi,ht]
      rfl
    have hf : ∀n∈s.lanes.aside,s.lanes.taken<n.1 := by
      intro n hn
      have ha := hsa buf hs
      cases htu : s.turn with
      | none =>
        have hni := h.turn
        rw [htu,updateTurn] at hni
        rw [show s.lanes.aside=[] from head?_eq_none_iff.1 (Option.map_eq_none_iff.1 hni.symm)] at hn
        cases hn
      | some t =>
        rw [htu] at ha
        exact (of_decide_eq_true ha).trans_le (h.turn_le htu n hn)
    refine h.consume hi hpu ?_ h.turn rfl rfl rfl ?_ ?_ ?_ ⟨fun _ => .inr ht,nofun⟩
    · rw [hl]
      exact h.lanes.takeLane hw hf
    · rw [hl]
    · intro q hq
      rw [hl]
      exact hq.takeLane hw
    · intro sw hsw
      rw [hl]
      exact hsw.takeLane hw

omit [DecidableEq P] in
lemma SsInv.unlock (h : SsInv s) {ticket : Nat} {backlog : List (Nat×SsWork P V)}
    (hl : s.consumer=.lock) (hb : s.backlog=(ticket,sw)::backlog) : SsInv {s with
      backlog:=backlog
      turn:=updateTurn backlog
      sw:=sw
      consumer:=.loop
      out:=s.out++[(some ticket,sw)]} := by
  obtain ⟨t,ht,hle⟩ := h.consumer.lock hl
  have hti : t=ticket := by
    have htu := h.turn
    rw [ht,hb] at htu
    cases htu
    rfl
  subst hti
  refine h.consume h.wq rfl (h.lanes.takeAside hb hle) rfl rfl rfl rfl rfl (fun q hq => hq.takeAside hb)
    (fun x hx => hx.takeAside hb) ⟨fun _ => h.consumer.ticket (.inr (.inl hl)),nofun⟩

omit [DecidableEq P] in
lemma SsInv.popStep (h : SsInv s) (hs : s.inTurn .pop=true) (hst : s.popStep=some s') : SsInv s' := by
  unfold Ss.popStep at hst
  have hse : s.consumer=.first ∨ s.consumer=.last → ∀buf,s.wq.pop=.setTail buf s.wq.q.tail →
      turnAbove s.turn s.wq.q.tail=true := by
    intro hc buf hp
    simp only [Ss.inTurn] at hs
    rcases hc with hc | hc <;> simpa only [hc,hp] using hs
  cases hc : s.consumer with
  | away =>
    rw [hc] at hst
    cases hst
  | loop =>
    rw [hc] at hst
    cases hst
  | first =>
    simp only [hc] at hst
    exact h.inPop (.inl hc) (.inl rfl) (hse (.inl hc)) hst
  | last =>
    simp only [hc] at hst
    exact h.inPop (.inr hc) (.inr rfl) (hse (.inr hc)) hst
  | test =>
    simp only [hc] at hst
    split_ifs at hst with ha
    · exact h.callPop (b := s.budget) (.inr rfl) hst
    · cases hst
      have hti := h.consumer.ticket (.inl hc)
      refine h.wait h.wq rfl rfl rfl rfl rfl rfl ⟨fun _ => hti,fun _ => ?_⟩
      simp only [Ss.inTurn,hc] at hs
      cases ht : s.turn with
      | none =>
        rw [ht] at ha
        exact absurd rfl ha
      | some t =>
        -- the position that the ticket of a failed pop names is not taken yet
        refine ⟨t,rfl,?_⟩
        simp only [ht,turnAbove,decide_eq_true_eq,Bool.not_eq_true',Bool.and_eq_false_iff,
          decide_eq_false_iff_not,Option.some.injEq] at ha hs
        change t ≤ s.wq.q.tail
        omega
  | lock =>
    simp only [hc] at hst
    split at hst
    · exact h.callPop (b := s.budget) (.inr rfl) hst
    · rename_i ticket sw backlog hb
      cases hst
      exact h.unlock hc hb

lemma SsInv.step (h : SsInv s) {e : SsEvent C P V} (hs : s.inTurn e=true) (hst : s.step e=some s') : SsInv s' := by
  cases e with
  | queue p c data => exact h.queue hst
  | push p => exact h.push hst
  | giveUp p =>
    simp only [Ss.step] at hst
    split at hst
    case h_2 => cases hst
    rename_i ticket sw hp
    cases hst
    exact h.setProducer (by rw [hp]; nofun)
  | turnstile p => exact h.turnstile hs hst
  | action sw budget =>
    simp only [Ss.step] at hst
    split_ifs at hst with hc
    cases hst
    refine h.wait h.wq rfl rfl rfl rfl rfl rfl ⟨?_,nofun⟩
    rintro (hc | hc | hc)
    · cases hc
    · cases hc
    · exact absurd rfl hc.2
  | call =>
    simp only [Ss.step] at hst
    split_ifs at hst with hc ht
    · exact h.callPop (.inl rfl) hst
    · cases hst
      exact h.wait h.wq rfl rfl rfl rfl rfl rfl ⟨fun _ => h.consumer.ticket (.inr (.inr ⟨hc,ht⟩)),nofun⟩
  | pop => exact h.popStep hs hst
  | leave =>
    simp only [Ss.step] at hst
    split_ifs at hst with hc
    cases hst
    refine h.wait h.wq rfl rfl rfl rfl rfl rfl ⟨?_,nofun⟩
    rintro (hc | hc | hc)
    · cases hc
    · cases hc
    · cases hc.1

/-- In every interleaving whose steps are in turn, a work from the backlog is returned after the works of the queue at
all positions below its ticket. -/
theorem works_popped_in_turn {cpus : List C} {k : Nat} {mem : Nat → SsWork P V} {sw : SsWork P V}
    {es : List (SsEvent C P V)} (hrun : run Ss.step (ssInit cpus (2^k) mem sw) es=some s)
    (hturn : along Ss.step Ss.inTurn (ssInit cpus (2^k) mem sw) es=true) :
    (∀pre ticket x post,s.out=pre++(some ticket,x)::post →
        (s.wq.wins.map Prod.snd).take ticket <+: Lanes.laneWorks pre) ∧
      ∀x∈s.queued,∀pre o y post,s.out=pre++(o,y)::post → x.owner=y.owner → x.num<y.num → x∈pre.map Prod.snd := by
  have h : SsInv s := run_invariant_along Ss.step (P := SsInv) (fun _ _ _ h hs hst => h.step hs hst)
    (ssInv_init cpus k mem sw) hturn hrun
  refine ⟨?_,?_⟩
  · intro pre ticket x post ho
    exact h.lanes.take_ticket ho
  · intro x hx pre o y post ho hon hn
    exact h.lanes.leaves_after (h.queued x hx) ho hon hn

def noData : WqItem Unit := fun _ => ()

def oneSlot : Ss Bool Bool Unit :=
  ssInit [true,false] (2^0) (fun _ => SsWork.mark noData true 0) (SsWork.mark noData true 0)

def pushes (p : Bool) : List (SsEvent Bool Bool Unit) := .queue p p noData::List.replicate 10 (.push p)
def pushesFull (p : Bool) : List (SsEvent Bool Bool Unit) := .queue p p noData::List.replicate 22 (.push p)

/-- `ss_wq_pop()` and its first `n` steps -/
def pops (n : Nat) : List (SsEvent Bool Bool Unit) := .call::List.replicate n .pop

def txAction : SsEvent Bool Bool Unit := .action (SsWork.mark noData true 0) 0
def Ss.returned (s : Ss C P V) : List (Option Nat×P×Nat) := s.out.map fun o => (o.1,o.2.owner,o.2.num)

def inTurnEvents : List (SsEvent Bool Bool Unit) :=
  pushes true++pushesFull true++[.turnstile true,txAction]++pops 11++pops 7

theorem works_popped_in_turn_one_slot : ∃s,run Ss.step oneSlot inTurnEvents=some s ∧
      s.returned=[(none,true,0),(some 1,true,1)] ∧ ∀pre ticket x post,s.out=pre++(some ticket,x)::post →
        (s.wq.wins.map Prod.snd).take ticket <+: Lanes.laneWorks pre := by
  have ho : (run Ss.step oneSlot inTurnEvents).map Ss.returned=some [(none,true,0),(some 1,true,1)] := by decide +kernel
  obtain ⟨s,hr,hs⟩ := Option.map_eq_some_iff.1 ho
  exact ⟨s,hr,hs,(works_popped_in_turn hr (by decide +kernel)).1⟩
end VetWaf.Sock
