import VetWaf.Skb.Stream

namespace VetWaf.Skb
open SkBuff List Option Outcome Nat
variable {buf : Nat → Nat×Nat} {fresh fresh' page p len i : Nat} {s s' : SkBuff} {after after' : List SkBuff}
  {c : Cursor}

/-- Room for `len` bytes before position `p` of the data of `s` and `after` -/
structure Roomed (s : SkBuff) (after : List SkBuff) (p len : Nat) (s' : SkBuff) (after' : List SkBuff) (it : It) :
    Prop where
  ok : ∀x∈s'::after',x.Ok
  stream : ∃room front back,it.data=some room ∧ s.stream++streamOf after=front++back ∧
    back.head? = some p ∧ s'.stream++streamOf after'=front++(range' room len++back) ∧
    ∃x∈s'::after',x.ptr=it.skb ∧ (range' room len).IsInfix x.stream

lemma range'_head {a n : Nat} (hn : 0<n) (l : List Nat) : (range' a n++l).head? = some a := by
  cases n with
  | zero => cases hn
  | succ n => rfl

lemma fragData_head {f : Frag} (hf : 0<f.size) (l : List Frag) (rest : List Nat) :
    (fragData (f::l)++rest).head? = some f.addr := by
  rw [fragData_cons,append_assoc]
  exact range'_head hf _

lemma Relaid.roomed {i : Nat} (h : Relaid buf fresh s after
      (s.fragList.take i++⟨page,len⟩::s.fragList.drop i) s' after' fresh')
    (hok : s.Ok) (ha : ∀x∈after,x.Ok) (hi : i<s.nrFrags) (hsi : 0<(s.frags i).size) (fragn : Option Int) :
    Roomed s after (s.frags i).addr len s' after' ⟨s'.ptr,some page,fragn⟩ := by
  have hm : maxSkbFrags=17 := rfl
  have hle := hok.nrFrags_le
  have hl : s.fragList.length=s.nrFrags := length_slots ..
  have ht : (s.fragList.take i).length=i := by
    rw [length_take]
    omega
  obtain ⟨hs,ho⟩ := h.stream_after ha (by
    rw [length_append,length_cons,length_drop,ht]
    omega)
  refine ⟨?_,page,s.linear++fragData (s.fragList.take i),fragData (s.fragList.drop i)++streamOf after,rfl,?_,
    ?_,?_,s',.head _,rfl,?_⟩
  · intro x hx
    obtain rfl | hx := mem_cons.1 hx
    · exact h.ok hok
    · exact ho x hx
  · rw [stream,append_assoc,append_assoc,← append_assoc (fragData _),← fragData_append,take_append_drop]
  · rw [drop_fragList hi]
    exact fragData_head hsi _ _
  · rw [stream,append_assoc,hs,linear_eq h.lin,fragData_append,fragData_cons]
    simp only [append_assoc,Frag.addrs]
  · refine addrs_infix (f := ⟨page,len⟩) (mem_take_fragList h.fragList ?_ (show i < maxSkbFrags by omega))
    rw [getElem?_append_right (by omega),ht,Nat.sub_self]
    rfl

lemma Relaid.roomed_linear (h : Relaid buf fresh s after (⟨page,len⟩::⟨p,s.tail-p⟩::s.fragList) s' after' fresh')
    (hok : s.Ok) (haf : ∀x∈after,x.Ok) (hd : s.data≤p) (ht : p<s.tail) {n : Int} (hn : n=s'.len-(s.tail-p : Nat)) :
    Roomed s after p len {s' with tail:=s'.tail-(s.tail-p), len:=n, tailLock:=true}
      after' ⟨s'.ptr,some page,some 0⟩ := by
  subst hn
  have hm : maxSkbFrags=17 := rfl
  have hle := hok.nrFrags_le
  have hlen : s.fragList.length=s.nrFrags := length_slots ..
  have hd' := lin_data h.lin
  have ht' := lin_tail h.lin
  obtain ⟨hs,ho⟩ := h.stream_after haf (by
    rw [length_cons,length_cons]
    omega)
  have hl : s.linear=range' s.data (p-s.data)++range' p (s.tail-p) := by
    have ha := range'_append_1 (s := s.data) (m := p-s.data) (n := s.tail-p)
    rw [add_sub_of_le hd] at ha
    rw [ha,linear,show s.tail-s.data=p-s.data+(s.tail-p) by omega]
  have hl' : range' s'.data (s'.tail-(s.tail-p)-s'.data)=range' s.data (p-s.data) := by
    rw [hd',ht',show s.tail-(s.tail-p)-s.data=p-s.data by omega]
  refine ⟨?_,page,range' s.data (p-s.data),range' p (s.tail-p)++(fragData s.fragList++streamOf after),
    rfl,?_,range'_head (by omega) _,?_,_,.head _,rfl,?_⟩
  · intro x hx
    obtain rfl | hx := mem_cons.1 hx
    · exact (h.ok hok).cutTail (by omega) true
    · exact ho x hx
  · rw [stream,hl]
    simp only [append_assoc]
  · change range' s'.data (s'.tail-(s.tail-p)-s'.data)++fragData s'.fragList++streamOf after'=_
    rw [hl',append_assoc,hs,fragData_cons,fragData_cons]
    simp only [append_assoc,Frag.addrs]
  · exact addrs_infix (f := ⟨page,len⟩) (mem_take_fragList h.fragList (j := 0) rfl (by omega))

lemma Relaid.roomed_split {i off : Nat} (h : Relaid buf fresh s after (s.fragList.take i ++
      ⟨(s.frags i).addr,off⟩::⟨page,len⟩::⟨(s.frags i).addr+off,(s.frags i).size-off⟩ ::
      s.fragList.drop (i+1)) s' after' fresh')
    (hok : s.Ok) (ha : ∀x∈after,x.Ok) (hi : i<s.nrFrags) (ho : off<(s.frags i).size) (fragn : Option Int) :
    ∀x∈s'::after',⟨page,len⟩∈x.fragList →
      Roomed s after ((s.frags i).addr+off) len s' after' ⟨x.ptr,some page,fragn⟩ := by
  intro x hx hm
  have hma : maxSkbFrags=17 := rfl
  have hle := hok.nrFrags_le
  have hl : s.fragList.length=s.nrFrags := length_slots ..
  obtain ⟨hs,hoks⟩ := h.stream_after ha (by
    rw [length_append,length_cons,length_cons,length_cons,length_drop,length_take]
    omega)
  refine ⟨?_,page,s.linear++(fragData (s.fragList.take i)++range' (s.frags i).addr off),
    range' ((s.frags i).addr+off) ((s.frags i).size-off)++(fragData (s.fragList.drop (i+1)) ++
      streamOf after),rfl,?_,range'_head (by omega) _,?_,x,hx,rfl, addrs_infix hm⟩
  · intro y hy
    obtain rfl | hy := mem_cons.1 hy
    · exact h.ok hok
    · exact hoks y hy
  · conv_lhs => rw [stream,fragList_split hi,fragData_append,fragData_cons,addrs_split (le_of_lt ho)]
    simp only [append_assoc,Frag.addrs]
  · rw [stream,append_assoc,hs,linear_eq h.lin,fragData_append,fragData_cons,fragData_cons,fragData_cons]
    simp only [append_assoc,Frag.addrs]

lemma splitLinearData_roomed (buf : Nat → Nat×Nat) (fresh page : Nat) (hok : ∀x∈c.skb::c.after,x.Ok) (hd : c.skb.data≤p)
    (hta : p<c.skb.tail) (hp : 0<len) :
    ∃s' after' fresh' it,splitLinearData buf fresh page c p len=.ok (⟨c.before,s',after'⟩,it,fresh') ∧
      Roomed c.skb c.after p len s' after' it := by
  have hs := hok c.skb (.head _)
  have haf : ∀x∈c.after,x.Ok := fun x hx => hok x (.tail _ hx)
  obtain ⟨s1,after',fresh',hn,hl⟩ :=
    newPgfrag_laid (n := 2) buf fresh page len c.after hs zero_le (by decide) (by decide)
  have hfr : ((gap c.skb.frags c.skb.nrFrags 0 2).set 0 (some ⟨page,len⟩))[1]?=some none := by
    rw [getElem?_set_ne (by decide),getElem?_gap (by omega)]
    rfl
  have hf := hl.refill hfr ⟨p,c.skb.tail-p⟩
  rw [gap_two zero_le,take_zero,nil_append,drop_zero,← fragList,elim_none,Int.natCast_zero,Int.sub_zero] at hf
  have ht : (c.skb.tail : Int)-p=(c.skb.tail-p : Nat) := by omega
  have hnw : s1.frags 0=⟨page,len⟩ := by
    refine hl.slot 0 _ (getElem?_set_self ?_)
    rw [length_gap]
    omega
  have ha : (((({s1 with tail:=s1.tail-(c.skb.tail-p), dataLen:=s1.dataLen+(c.skb.tail-p : Nat)} :
      SkBuff).fillPageDesc 1 ⟨p,c.skb.tail-p⟩).frags 0).addr)=page := by
    simp [fillPageDesc,hnw]
  unfold splitLinearData
  simp only [Int.toNat_natCast,if_pos (show (0 : Int)<len by omega),hn,ok_bind,
    if_neg (show ¬((c.skb.tail : Int)-p≤0 ∨ (c.skb.tail : Int)-p < -len) by omega),
    if_neg (show ¬((len : Int)<0 ∧ (c.skb.tail : Int)-p = -len) by omega),if_neg (show ¬(len : Int)<0 by omega)]
  simp only [ht,Int.toNat_natCast,ha]
  exact ⟨_,_,_,_,rfl,hf.relaid.roomed_linear hs haf hd hta (Int.add_sub_cancel ..).symm⟩

lemma newPgfrag_roomed (buf : Nat → Nat×Nat) (fresh page len : Nat) (hok : ∀x∈s::after,x.Ok)
    (hi : i<s.nrFrags) (hsi : 0<(s.frags i).size) :
    ∃s' after' fresh',newPgfrag buf fresh page s after len i 1=.ok (s',after',fresh') ∧
      s'.frags i=⟨page,len⟩ ∧ i<s'.nrFrags ∧
      ∀fragn,Roomed s after (s.frags i).addr len s' after' ⟨s'.ptr,some page,fragn⟩ := by
  have hs := hok s (.head _)
  have ha : ∀x∈after,x.Ok := fun x hx => hok x (.tail _ hx)
  have hle := hs.nrFrags_le
  obtain ⟨s',after',fresh',hn,hl⟩ :=
    newPgfrag_laid (n := 1) buf fresh page len after hs (le_of_lt hi) (by decide) (by decide)
  have hf : s'.frags i=⟨page,len⟩ := by
    have hsl := hl.slot i ⟨page,len⟩ (getElem?_set_self (by rw [length_gap]; omega))
    rwa [slotAt_of_lt (by omega)] at hsl
  have hnr := hl.nrFrags
  rw [length_set,length_gap] at hnr
  rw [gap_one (le_of_lt hi)] at hl
  exact ⟨s',after',fresh',hn,hf,by omega,hl.relaid.roomed hs ha hi hsi⟩

lemma gap_split {frags : Nat → Frag} {nr : Nat} (hi : i<nr) (f g h : Frag) :
    (((gap frags nr (i+1) 2).set (i+1) (some g)).set i (some f)).set (i+2) (some h) =
      ((slots frags nr).take i++f::g::h::(slots frags nr).drop (i+1)).map some := by
  have hl : (((slots frags nr).take i).map some).length=i := by
    rw [length_map,length_take,length_slots]
    omega
  rw [set_comm _ _ (show i≠i+2 by omega),gap_two hi,take_add_one,getElem?_slots hi]
  rw [toList_some,append_assoc,singleton_append,map_append,map_append,
    set_append_right _ _ (le_of_eq hl),hl,Nat.sub_self]
  rfl

lemma splitPgfragAdd_refill (tailLen : Nat) {off : Nat} {s1 : SkBuff} {after1 : List SkBuff}
    {r1 r2 : SkBuff×List SkBuff} (ho : 0<off) (hi : i < maxSkbFrags)
    (hn : newPgfrag buf fresh page c.skb c.after len (i+1) 2=.ok (s1,after1,fresh'))
    (ht : off+tailLen=(s1.frags i).size) (hnx : maxSkbFrags ≤ i+2 → after1≠[])
    (hr1 : r1=refill s1 after1 i ⟨(s1.frags i).addr,off⟩ (-tailLen))
    (hr2 : r2=refill r1.1 r1.2 (i+2) ⟨(s1.frags i).addr+off,tailLen⟩ tailLen) :
    splitPgfragAdd buf fresh page c i off len=.ok (⟨c.before,r2.1,r2.2⟩,
      ⟨(slotSkb r2.1 r2.2 (i+1)).ptr,some (slotAt r2.1 r2.2 (i+1)).addr,some ↑((i+1)%maxSkbFrags)⟩,fresh') := by
  have hm : maxSkbFrags=17 := rfl
  unfold refill at hr1 hr2
  rw [if_pos hi] at hr1
  subst hr1
  unfold splitPgfragAdd
  simp only [if_neg (show ¬off=0 by omega),hn,ok_bind,show 1+1=2 from rfl,
    show (s1.frags i).size-off=tailLen by omega,show (s1.frags i).size-tailLen=off by omega]
  by_cases hl : i < maxSkbFrags-2
  · rw [if_pos (by omega)] at hr2
    subst hr2
    rw [if_pos hl,Nat.mod_eq_of_lt (show i+2 < maxSkbFrags by omega),
      Nat.mod_eq_of_lt (show i+1 < maxSkbFrags by omega),slotAt_of_lt (by omega),slotSkb,if_pos (by omega)]
    simp [fillPageDesc,adjustDataLen]
  · rw [if_neg (by omega)] at hr2
    obtain ⟨nskb,rest,rfl⟩ := exists_cons_of_ne_nil (hnx (by omega))
    subst hr2
    rw [if_neg hl,Nat.mod_eq_sub_mod (show maxSkbFrags ≤ i+2 by omega),
      Nat.mod_eq_of_lt (show i+2-maxSkbFrags < maxSkbFrags by omega)]
    by_cases hmi : i < maxSkbFrags-1
    · simp only [if_pos hmi]
      rw [Nat.mod_eq_of_lt (show i+1 < maxSkbFrags by omega),slotAt_of_lt (by omega),slotSkb,if_pos (by omega)]
    · simp only [if_neg hmi]
      rw [slotAt_of_ge (by omega),slotSkb,if_neg (by omega),show i+1=maxSkbFrags by omega,Nat.mod_self,Nat.sub_self]
      rfl

lemma splitPgfragAdd_roomed (buf : Nat → Nat×Nat) (fresh page len : Nat) {off : Nat}
    (hok : ∀x∈c.skb::c.after,x.Ok) (hi : i<c.skb.nrFrags) (ho : off<(c.skb.frags i).size) :
    ∃s' after' fresh' it,splitPgfragAdd buf fresh page c i off len=.ok (⟨c.before,s',after'⟩,it,fresh') ∧
      Roomed c.skb c.after ((c.skb.frags i).addr+off) len s' after' it := by
  have hma : maxSkbFrags=17 := rfl
  have hs := hok c.skb (.head _)
  have ha : ∀x∈c.after,x.Ok := fun x hx => hok x (.tail _ hx)
  have hle := hs.nrFrags_le
  by_cases h0 : off=0
  · subst h0
    obtain ⟨s',after',fresh',hn,hfr,-,hrm⟩ := newPgfrag_roomed buf fresh page len hok hi ho
    unfold splitPgfragAdd
    simp only [if_pos,add_zero,hn,ok_bind,hfr]
    exact ⟨_,_,_,_,rfl,hrm _⟩
  · obtain ⟨s1,after1,fresh',hn,hla⟩ :=
      newPgfrag_laid (n := 2) buf fresh page len c.after hs (show i+1≤c.skb.nrFrags from hi) (by decide) (by decide)
    have hl := length_gap c.skb.frags c.skb.nrFrags (i+1) 2
    have hold : ((gap c.skb.frags c.skb.nrFrags (i+1) 2).set (i+1) (some ⟨page,len⟩))[i]? =
        some (some (c.skb.frags i)) := by
      rw [getElem?_set_ne (by omega),getElem?_gap (by omega),if_pos (by omega)]
    have hsl := hla.slot i _ hold
    rw [slotAt_of_lt (by omega)] at hsl
    have htr := hla.refill hold ⟨(c.skb.frags i).addr,off⟩
    have hfe : (((gap c.skb.frags c.skb.nrFrags (i+1) 2).set (i+1) (some ⟨page,len⟩)).set i
        (some ⟨(c.skb.frags i).addr,off⟩))[i+2]?=some none := by
      rw [getElem?_set_ne (by omega),getElem?_set_ne (by omega),getElem?_gap (by omega),
        if_neg (by omega),if_pos (by omega)]
    have hf := htr.refill hfe ⟨(c.skb.frags i).addr+off,(c.skb.frags i).size-off⟩
    rw [gap_split hi,elim_none,elim_some,Int.natCast_zero,Int.sub_zero] at hf
    have hd : (off : Int)-(c.skb.frags i).size = -((c.skb.frags i).size-off : Nat) := by omega
    rw [hd] at hf
    have hnx : maxSkbFrags ≤ i+2 → after1≠[] := by
      intro he
      obtain ⟨-,base,rest,nskb,rfl,-⟩ := hla.after.resolve_left (by rw [length_set]; omega)
      exact cons_ne_nil _ _
    have hc := splitPgfragAdd_refill ((c.skb.frags i).size-off) (Nat.pos_of_ne_zero h0) (by omega) hn
      (by rw [hsl]; omega) hnx rfl rfl
    rw [hsl] at hc
    have ht : (c.skb.fragList.take i).length=i := by
      rw [length_take,fragList,length_slots]
      omega
    have hnw : (c.skb.fragList.take i++⟨(c.skb.frags i).addr,off⟩::⟨page,len⟩ ::
        ⟨(c.skb.frags i).addr+off,(c.skb.frags i).size-off⟩::c.skb.fragList.drop (i+1))[i+1]?=some ⟨page,len⟩ := by
      rw [getElem?_append_right (by omega),ht,Nat.add_sub_cancel_left]
      rfl
    have hr := hf.slot (i+1) ⟨page,len⟩ (by rw [getElem?_map,← fragList,hnw]; rfl)
    rw [hr] at hc
    obtain ⟨hm,hfr⟩ := hf.relaid.slot_mem hnw
    exact ⟨_,_,_,_,hc,hf.relaid.roomed_split hs ha hi ho _ _ hm hfr⟩

lemma put_roomed (hok : ∀x∈s::after,x.Ok) (hf : 0<s.nrFrags) (hsi : 0<(s.frags 0).size)
    (fragn : Option Int) : Roomed s after (s.frags 0).addr len (s.put len) after ⟨s.ptr,some s.tail,fragn⟩ := by
  have hs := hok s (.head _)
  have hle := hs.lin_le
  have hh := hs.headlen
  unfold headlen at hh
  have hp : (s.put len).tail=s.tail+len := by
    change ((s.tail : Int)+len).toNat=_
    omega
  have hl : (s.put len).linear=s.linear++range' s.tail len := by
    have ha := range'_append_1 (s := s.data) (m := s.tail-s.data) (n := len)
    rw [Nat.add_sub_of_le hle] at ha
    rw [linear,linear,hp,ha]
    change range' s.data (s.tail+len-s.data)=_
    rw [show s.tail+len-s.data=s.tail-s.data+len by omega]
  have hst : (s.put len).stream=s.linear++(range' s.tail len++fragData s.fragList) := by
    rw [stream,hl,append_assoc]
    rfl
  refine ⟨?_,s.tail,s.linear,fragData s.fragList++streamOf after,rfl,?_,?_,?_,s.put len,.head _,rfl,?_⟩
  · intro x hx
    obtain rfl | hx := mem_cons.1 hx
    · refine ⟨?_,hs.nrFrags_le,hs.dataLen,?_⟩
      · rw [hp]
        exact le_trans hle (Nat.le_add_right ..)
      · rw [hp]
        change s.len+len-s.dataLen=((s.tail+len : Nat) : Int)-s.data
        omega
    · exact hok x (.tail _ hx)
  · rw [stream,append_assoc]
  · have hd := drop_fragList hf
    rw [drop_zero] at hd
    rw [hd]
    exact fragData_head hsi _ _
  · rw [hst]
    simp only [append_assoc]
  · rw [hst]
    exact ⟨s.linear,fragData s.fragList,by simp only [append_assoc]⟩

lemma splitSkb_roomed (buf : Nat → Nat×Nat) (fresh page : Nat) (hok : ∀x∈c.skb::c.after,x.Ok)
    (hse : c.skb.segs.Pairwise Apart) (hp : p∈c.skb.stream) (hpo : 0<len) :
    ∃s' after' fresh' it,splitSkb buf fresh page c p len=.ok (⟨c.before,s',after'⟩,it,fresh',len) ∧
      Roomed c.skb c.after p len s' after' it := by
  have hs := hok c.skb (.head _)
  have hle := hs.lin_le
  have hh := hs.headlen
  unfold splitSkb
  obtain ⟨hd,ht⟩ | ⟨i,hi,hin⟩ := mem_stream hp
  · obtain ⟨s',after',fresh',it,hsp,hr⟩ := splitLinearData_roomed buf fresh page hok hd ht hpo
    have hm : max (len : Int) ((p : Int)-c.skb.data-c.skb.headlen)=len := by omega
    simp only [if_pos (show 0≤(p : Int)-c.skb.data ∧ (p : Int)-c.skb.data<c.skb.headlen by omega),hm,hsp,ok_bind]
    exact ⟨_,_,_,_,rfl,hr⟩
  · have hl := within_iff.1 hin
    -- the position is neither in the linear part nor at its end
    have hno : ∀h : c.skb.data<c.skb.tail,p<c.skb.data ∨ c.skb.tail<p := fun h => by
      rcases segs_linear hse h hi with hgt | hlt <;> omega
    simp only [if_neg (show ¬(0≤(p : Int)-c.skb.data ∧ (p : Int)-c.skb.data<c.skb.headlen) by omega)]
    by_cases hf : p=(c.skb.frags 0).addr
    · have h0 : i=0 := by
        by_contra hne
        have hap := segs_frags hse (pos_of_ne_zero hne) hi
        unfold Apart at hap
        omega
      subst h0
      have hsi : 0<(c.skb.frags 0).size := by omega
      rw [if_pos ⟨by omega,.inr hf⟩]
      by_cases hro : (len : Int)≤c.skb.tailroomLocked
      · rw [if_pos hro,hf]
        exact ⟨_,_,_,_,rfl,put_roomed hok hi hsi _⟩
      · obtain ⟨s',after',fresh',hn,hfr,hnr,hr⟩ := newPgfrag_roomed buf fresh page len hok hi hsi
        have hit : (⟨c.before,s',after'⟩ : Cursor).itNextData 0=⟨s'.ptr,some page,some 0⟩ := by
          unfold Cursor.itNextData
          rw [if_pos hnr,hfr]
          rfl
        rw [if_neg hro,Int.toNat_natCast,hn,ok_bind,hf]
        exact ⟨_,_,_,_,rfl,hit ▸ hr _⟩
    · rw [if_neg (show ¬(0<(len : Int) ∧ _) from fun h => h.2.elim (fun h => by omega) hf)]
      unfold splitFrags
      have hm : max (len : Int) (((p-(c.skb.frags i).addr : Nat) : Int)-(c.skb.frags i).size)=len := by omega
      obtain ⟨s',after',fresh',it,hsp,hr⟩ := splitPgfragAdd_roomed buf fresh page len hok hi
        (show p-(c.skb.frags i).addr<(c.skb.frags i).size by omega)
      rw [add_sub_of_le hl.1] at hr
      simp only [find_within hse hi hin,hm,splitPgfrag,if_pos (show (0 : Int)<len by omega),
        Int.toNat_natCast,hsp,ok_bind]
      exact ⟨_,_,_,_,rfl,hr⟩

/-- Room for `len` bytes at any position of the data of a list. -/
theorem getRoomWFrag_inserts (buf : Nat → Nat×Nat) (fresh page : Nat) (c : Cursor) (p len : Nat)
    (hok : ∀x∈c.list,x.Ok) (hsep : Separate c.list) (hp : p∈c.skb.stream) (hpos : 1≤len) (hlen : len≤pageSize) :
    ∃c' it fresh' room front back,getRoomWFrag buf fresh page c p len=.ok (c',it,fresh') ∧
      streamOf c.list=front++back ∧ back.head? = some p ∧
      streamOf c'.list=front++(range' room len++back) ∧ it.data=some room ∧
      (∃x∈c'.list,x.ptr=it.skb ∧ (range' room len).IsInfix x.stream) ∧ ∀x∈c'.list,x.Ok := by
  have hs : c.skb∈c.list := mem_append_right _ (.head _)
  obtain ⟨s',after',fresh',it,hsp,ho,room,front,back,hd,hold,hh,hn,x,hx,hit⟩ :=
    splitSkb_roomed buf fresh page (fun x hx => hok x (mem_append_right _ hx)) (hsep.skb hs) hp hpos
  refine ⟨⟨c.before,s',after'⟩,it,fresh',room,streamOf c.before++front,back,?_,?_,hh,?_,hd,
    ⟨x,mem_append_right _ hx,hit⟩,?_⟩
  · unfold getRoomWFrag skbFragment
    rw [Int.natAbs_natCast,if_neg (by omega),if_neg (by omega),hsp]
    simp only [ok_bind,hd,if_neg (show ¬(some room=none ∧ 0≤(len : Int)) from fun h => nomatch h.1),
      Int.natAbs_natCast,if_true]
  · rw [c.streamOf_list,hold,append_assoc]
  · rw [Cursor.streamOf_list,hn,append_assoc]
  · intro y hy
    obtain hy | hy := mem_append.1 hy
    · exact hok y (mem_append_left _ hy)
    · exact ho y hy

def fullSkb : SkBuff :=
  { ptr:=1, data:=8, tail:=8, bufEnd:=8, tailLock:=false, len:=170, dataLen:=170, nrFrags:=maxSkbFrags,
    frags:=fun i => ⟨1000+100*i,10⟩}

instance : DecidableRel Apart := fun _ _ => inferInstanceAs (Decidable (_ ∨ _))
instance (l : List SkBuff) : Decidable (Separate l) := inferInstanceAs (Decidable (List.Pairwise ..))

theorem getRoomWFrag_inserts_fullSkb :
    ∃c' it fresh' room front back,getRoomWFrag (fun n => (n,n)) 2 9000 ⟨[],fullSkb,[]⟩ 2605 100=.ok (c',it,fresh') ∧
      streamOf [fullSkb]=front++back ∧ back.head? = some 2605 ∧
      streamOf c'.list=front++(range' room 100++back) ∧ it.data=some room ∧
      (∃x∈c'.list,x.ptr=it.skb ∧ (range' room 100).IsInfix x.stream) ∧ ∀x∈c'.list,x.Ok := by
  refine getRoomWFrag_inserts (fun n => (n,n)) 2 9000 ⟨[],fullSkb,[]⟩ 2605 100 ?_ (by decide +kernel)
    (by decide +kernel) (by decide) (by decide)
  intro x hx
  rw [mem_singleton.1 hx]
  exact ⟨by decide,by decide,by decide +kernel,by decide⟩
end VetWaf.Skb
