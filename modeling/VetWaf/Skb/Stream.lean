import VetWaf.Skb.Layout

namespace VetWaf.Skb
open List

def Frag.addrs (f : Frag) : List Nat := List.range' f.addr f.size
def fragData (l : List Frag) : List Nat := l.flatMap Frag.addrs
def SkBuff.linear (s : SkBuff) : List Nat := List.range' s.data (s.tail-s.data)
def SkBuff.stream (s : SkBuff) : List Nat := s.linear++fragData s.fragList
def streamOf (l : List SkBuff) : List Nat := l.flatMap SkBuff.stream
lemma fragData_append (l l' : List Frag) : fragData (l++l')=fragData l++fragData l' := flatMap_append
lemma fragData_cons (f : Frag) (l : List Frag) : fragData (f::l)=f.addrs++fragData l := flatMap_cons
lemma streamOf_append (l l' : List SkBuff) : streamOf (l++l')=streamOf l++streamOf l' := flatMap_append
lemma streamOf_cons (s : SkBuff) (l : List SkBuff) : streamOf (s::l)=s.stream++streamOf l := flatMap_cons

lemma Cursor.streamOf_list (c : Cursor) : streamOf c.list=streamOf c.before++(c.skb.stream++streamOf c.after) := by
  rw [Cursor.list,streamOf_append,streamOf_cons]

variable {f : Frag} {s : SkBuff} {j : Nat}
lemma addrs_split {off : Nat} (ho : off≤f.size) :
    f.addrs=(⟨f.addr,off⟩ : Frag).addrs++(⟨f.addr+off,f.size-off⟩ : Frag).addrs := by
  unfold Frag.addrs
  rw [range'_append_1,Nat.add_sub_of_le ho]

lemma addrs_infix (hf : f∈s.fragList) : f.addrs.IsInfix s.stream := by
  obtain ⟨l,l',hl⟩ := append_of_mem hf
  refine ⟨s.linear++fragData l,fragData l',?_⟩
  rw [SkBuff.stream,hl,fragData_append,fragData_cons,append_assoc,append_assoc]

lemma drop_fragList {i : Nat} (hi : i<s.nrFrags) : s.fragList.drop i=s.frags i::s.fragList.drop (i+1) := by
  have hlt : i<s.fragList.length := by
    rw [SkBuff.fragList,length_slots]
    exact hi
  have hg : s.fragList[i]?=some (s.frags i) := getElem?_slots hi
  rw [getElem?_eq_getElem hlt] at hg
  rw [drop_eq_getElem_cons hlt,Option.some.inj hg]

lemma fragList_split {i : Nat} (hi : i<s.nrFrags) : s.fragList=s.fragList.take i++s.frags i::s.fragList.drop (i+1) := by
  rw [← drop_fragList hi,take_append_drop]

variable {buf : Nat → Nat×Nat} {fresh fresh' : Nat} {s s' : SkBuff} {after after' : List SkBuff} {l : List Frag}
section
variable (h : s'.lin=s.lin)
include h
lemma lin_data : s'.data=s.data := congrArg (·.2.1) h
lemma lin_tail : s'.tail=s.tail := congrArg (·.2.2.1) h
lemma linear_eq : s'.linear=s.linear := by rw [SkBuff.linear,lin_data h,lin_tail h,SkBuff.linear]

end

lemma skbAlloc_ok (buf : Nat → Nat×Nat) (ptr : Nat) : (skbAlloc buf ptr 0).Ok :=
  ⟨le_rfl,zero_le,rfl,(sub_self (((buf ptr).1 : Nat) : Int)).symm⟩

lemma Spill.base_ok {nExcess : Nat} {base : SkBuff} {rest : List SkBuff}
    (h : Spill buf fresh nExcess after base rest fresh') (ha : ∀x∈after,x.Ok) (hle : nExcess ≤ maxSkbFrags) :
    base.Ok ∧ base.linear=[] ∧ base.nrFrags+nExcess ≤ maxSkbFrags ∧ (∀x∈rest,x.Ok) ∧
      fragData base.fragList++streamOf rest=streamOf after := by
  cases h with
  | next heq hl hr =>
    subst heq
    have hok := ha base (.head _)
    have hn : base.linear=[] := by
      have hh := hok.headlen
      have hle := hok.lin_le
      rw [SkBuff.linear,show base.tail-base.data=0 by omega,range'_zero]
    refine ⟨hok,hn,hr,fun x hx => ha x (.tail _ hx),?_⟩
    rw [streamOf_cons,SkBuff.stream,hn,nil_append]
  | new =>
    refine ⟨skbAlloc_ok buf fresh,?_,by change 0+nExcess≤_; omega,ha,rfl⟩
    rw [SkBuff.linear]
    exact range'_eq_nil_iff.2 (Nat.sub_self _)

lemma Relaid.stream_after (h : Relaid buf fresh s after l s' after' fresh') (ha : ∀x∈after,x.Ok)
    (hle : l.length ≤ maxSkbFrags+2) :
    fragData s'.fragList++streamOf after'=fragData l++streamOf after ∧ ∀x∈after',x.Ok := by
  have hm : maxSkbFrags=17 := rfl
  rw [h.fragList]
  obtain ⟨hfi,rfl,-⟩ | ⟨he,base,rest,nskb,rfl,hsp,hl,hh,hf,hd⟩ := h.after
  · rw [take_of_length_le hfi]
    exact ⟨rfl,ha⟩
  · obtain ⟨hb,hn,hro,hr,hs⟩ := hsp.base_ok ha (by omega)
    constructor
    · rw [streamOf_cons,SkBuff.stream,linear_eq hl,hn,nil_append,hf,fragData_append,
        append_assoc,hs,← append_assoc,← fragData_append,take_append_drop]
    · intro x hx
      obtain rfl | hx := mem_cons.1 hx
      · have hnr : x.nrFrags=(l.length-maxSkbFrags)+base.nrFrags := by
          have hln := congrArg List.length hf
          rwa [SkBuff.fragList,length_slots,length_append,length_drop,SkBuff.fragList,length_slots] at hln
        refine ⟨?_,by omega,?_,?_⟩
        · rw [lin_data hl,lin_tail hl]
          exact hb.lin_le
        · rw [hf,map_append,sizes_append,hd,hb.dataLen,add_comm]
        · rw [hh,hb.headlen,lin_data hl,lin_tail hl]
      · exact hr x hx

lemma Relaid.ok (h : Relaid buf fresh s after l s' after' fresh') (hok : s.Ok) : s'.Ok := by
  have hn : s'.nrFrags=(l.take maxSkbFrags).length := by rw [← h.fragList,SkBuff.fragList,length_slots]
  rw [length_take] at hn
  refine ⟨?_,by omega,h.dataLen,?_⟩
  · rw [lin_data h.lin,lin_tail h.lin]
    exact hok.lin_le
  · rw [h.headlen,hok.headlen,lin_data h.lin,lin_tail h.lin]

lemma mem_take_fragList {l : List Frag} (h : s.fragList=l.take maxSkbFrags)
    (hf : l[j]?=some f) (hj : j < maxSkbFrags) : f∈s.fragList := by
  rw [h]
  exact mem_of_getElem? ((getElem?_take_of_lt hj).trans hf)

/-- The buffer with slot `j` of the row -/
def slotSkb (s : SkBuff) (after : List SkBuff) (j : Nat) : SkBuff := if j < maxSkbFrags then s else after.headD s

lemma Relaid.slot_mem {l : List Frag} (h : Relaid buf fresh s after l s' after' fresh')
    (hf : l[j]?=some f) : slotSkb s' after' j∈s'::after' ∧ f∈(slotSkb s' after' j).fragList := by
  unfold slotSkb
  by_cases hj : j < maxSkbFrags
  · rw [if_pos hj]
    exact ⟨.head _,mem_take_fragList h.fragList hf hj⟩
  · have hlt := (List.getElem?_eq_some_iff.1 hf).1
    obtain ⟨-,base,rest,nskb,rfl,-,-,-,hfr,-⟩ := h.after.resolve_left (by omega)
    rw [if_neg hj,headD_cons,hfr]
    have hd : (l.drop maxSkbFrags)[j-maxSkbFrags]?=some f := by
      rw [getElem?_drop,Nat.add_sub_of_le (by omega)]
      exact hf
    exact ⟨.tail _ (.head _),mem_append_left _ (mem_of_getElem? hd)⟩

lemma SkBuff.Ok.cutTail (hok : s.Ok) {k : Nat} (hk : k ≤ s.tail-s.data) (lock : Bool) :
    ({s with tail:=s.tail-k, len:=s.len-k, tailLock:=lock} : SkBuff).Ok := by
  have hle := hok.lin_le
  have hh := hok.headlen
  unfold SkBuff.headlen at hh
  refine ⟨?_,hok.nrFrags_le,hok.dataLen,?_⟩
  · change s.data ≤ s.tail-k
    omega
  · change s.len-k-s.dataLen=((s.tail-k : Nat) : Int)-s.data
    omega

def SkBuff.segs (s : SkBuff) : List Frag := (if s.data<s.tail then [⟨s.data,s.tail-s.data⟩] else [])++s.fragList
def Apart (f g : Frag) : Prop := f.addr+f.size<g.addr ∨ g.addr+g.size<f.addr
def Separate (l : List SkBuff) : Prop := (l.flatMap SkBuff.segs).Pairwise Apart

lemma Separate.skb {bufs : List SkBuff} (h : Separate bufs) (hs : s∈bufs) : s.segs.Pairwise Apart := by
  obtain ⟨l1,l2,rfl⟩ := append_of_mem hs
  unfold Separate at h
  rw [flatMap_append,flatMap_cons] at h
  exact (pairwise_append.1 (pairwise_append.1 h).2.1).1

variable {f g : Frag} {p i : Nat}
lemma within_iff : f.within p=true ↔ f.addr≤p ∧ p<f.addr+f.size := by simp [Frag.within]
lemma mem_addrs : p∈f.addrs ↔ f.within p=true := by rw [within_iff,Frag.addrs,mem_range'_1]

lemma Apart.not_within (h : Apart f g) (hf : f.within p=true) : g.within p=false := by
  rw [within_iff] at hf
  refine Bool.eq_false_iff.2 fun hg => ?_
  rw [within_iff] at hg
  rcases h with h | h <;> omega

lemma mem_stream (hp : p∈s.stream) : s.data≤p ∧ p<s.tail ∨ ∃i,i<s.nrFrags ∧ (s.frags i).within p=true := by
  obtain hp | hp := mem_append.1 hp
  · rw [SkBuff.linear,mem_range'_1] at hp
    exact .inl (by omega)
  · obtain ⟨f,hf,hp⟩ := mem_flatMap.1 hp
    obtain ⟨i,hi,rfl⟩ := mem_map.1 hf
    exact .inr ⟨i,mem_range.1 hi,mem_addrs.1 hp⟩

variable (h : s.segs.Pairwise Apart)
include h
lemma segs_frags (hi : i<j) (hj : j<s.nrFrags) : Apart (s.frags i) (s.frags j) := by
  have hf := (pairwise_append.1 h).2.1
  have hp := pairwise_iff_getElem.1 hf i j (by rw [SkBuff.fragList,length_slots]; omega)
    (by rw [SkBuff.fragList,length_slots]; exact hj) hi
  simpa [SkBuff.fragList,slots] using hp

lemma segs_linear (hl : s.data<s.tail) (hi : i<s.nrFrags) :
    s.tail<(s.frags i).addr ∨ (s.frags i).addr+(s.frags i).size<s.data := by
  unfold SkBuff.segs at h
  rw [if_pos hl,singleton_append,pairwise_cons] at h
  have hm : s.frags i∈s.fragList := mem_map.2 ⟨i,mem_range.2 hi,rfl⟩
  have hp : s.data+(s.tail-s.data)<(s.frags i).addr ∨ (s.frags i).addr+(s.frags i).size<s.data := h.1 _ hm
  omega

lemma find_within (hi : i<s.nrFrags) (hp : (s.frags i).within p=true) :
    (List.range s.nrFrags).find? (fun k => (s.frags k).within p)=some i := by
  refine find?_range_eq_some.2 ⟨hp,mem_range.2 hi,fun k hk => ?_⟩
  cases hw : (s.frags k).within p with
  | false => rfl
  | true =>
    rw [(segs_frags h hk hi).not_within hw] at hp
    cases hp
end VetWaf.Skb
