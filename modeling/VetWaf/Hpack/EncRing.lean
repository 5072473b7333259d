import VetWaf.Hpack.EncTable

namespace VetWaf.Hpack
open Function List Word

/-- The bytes of the ring buffer and of the table that a node takes -/
def len (rbuf : Nat → HPackNode) (n : Nat) : Nat := nodeLen (rbuf n).hdrLen
def cost (rbuf : Nat → HPackNode) (n : Nat) : Nat := 32+(rbuf n).hdrLen

/-- The nodes stand one after the other from `a` up to `b`. -/
def Contig (rbuf : Nat → HPackNode) : Nat → List Nat → Nat → Prop
  | a, [], b => a=b
  | a, n::ns, b => n=a ∧ Contig rbuf (a+len rbuf a) ns b

section
variable {rbuf : Nat → HPackNode} {a b n : Nat} {ns : List Nat}
lemma nodeLen_bounds {hdrLen : Nat} (h : hdrLen+32≤4096) : 24≤nodeLen hdrLen ∧ nodeLen hdrLen≤hdrLen+32 := by
  unfold nodeLen
  omega

lemma Contig.sum (h : Contig rbuf a ns b) : b=a+(ns.map (len rbuf)).sum := by
  induction ns generalizing a with
  | nil => exact Eq.symm h
  | cons n ns ih =>
    obtain ⟨rfl,h⟩ := h
    rw [map_cons,sum_cons,ih h,Nat.add_assoc]

lemma Contig.mem (h : Contig rbuf a ns b) (hn : n∈ns) : a≤n ∧ n+len rbuf n≤b := by
  induction ns generalizing a with
  | nil => simp at hn
  | cons m ns ih =>
    obtain ⟨rfl,h⟩ := h
    obtain rfl | hn := mem_cons.1 hn
    · have hs := h.sum
      omega
    · have hi := ih h hn
      omega

lemma Contig.concat (h : Contig rbuf a ns b) : Contig rbuf a (ns++[b]) (b+len rbuf b) := by
  induction ns generalizing a with
  | nil =>
    obtain rfl := h
    exact ⟨rfl,rfl⟩
  | cons n ns ih => exact ⟨h.1,ih h.2⟩

lemma Contig.update (node : HPackNode) (h : Contig rbuf a ns b) (hn : n∉ns) : Contig (update rbuf n node) a ns b := by
  induction ns generalizing a with
  | nil => exact h
  | cons m ns ih =>
    obtain ⟨rfl,h⟩ := h
    rw [mem_cons,not_or] at hn
    refine ⟨rfl,?_⟩
    rw [len,update_of_ne (Ne.symm hn.1)]
    exact ih h hn.2

lemma Contig.not_mem (h : Contig rbuf a ns b) (hlen : ∀m∈ns,24≤len rbuf m) : b∉ns := fun hb => by
  have h₁ := h.mem hb
  have h₂ := hlen b hb
  omega

lemma len_update {node : HPackNode} : len (Function.update rbuf n node) n=nodeLen node.hdrLen := by rw [len,update_self]

lemma Contig.concat_update {node : HPackNode} (h : Contig rbuf a ns b) (hb : b∉ns) :
    Contig (Function.update rbuf b node) a (ns++[b]) (b+nodeLen node.hdrLen) := by
  have hc := (h.update node hb).concat
  rwa [len_update] at hc
end

/-- The nodes `A` from `first` up to `e` and then the nodes `B` from the begin of the buffer make up the sizes; the last
of them is `last`. -/
structure Walk (rbuf : Nat → HPackNode) (last first tot rbLen rbSize : Nat) (A B : List Nat) (e : Nat) : Prop where
  contig : Contig rbuf first A e
  total : tot=((A++B).map (cost rbuf)).sum
  used : rbLen=((A++B).map (len rbuf)).sum
  fits : tot≤hpackEncTableMaxSize
  inside : e≤hpackEncTableMaxSize
  shape : B=[] ∧ rbSize=hpackEncTableMaxSize ∧ (A≠[] → last∈A ∧ e=last+len rbuf last) ∨
    A≠[] ∧ B≠[] ∧ rbSize=e ∧ Contig rbuf 0 B (last+len rbuf last) ∧ last∈B ∧ last+len rbuf last≤first

section
variable {rbuf : Nat → HPackNode} {last first tot rbLen rbSize e n : Nat} {A B : List Nat}
lemma Walk.mem (h : Walk rbuf last first tot rbLen rbSize A B e) (hn : n∈A++B) :
    cost rbuf n≤tot ∧ 24≤len rbuf n := by
  have hc : cost rbuf n≤tot := by
    rw [h.total]
    exact single_le_sum (fun _ _ => Nat.zero_le _) _ (mem_map_of_mem hn)
  have hf := h.fits
  unfold hpackEncTableMaxSize at hf
  exact ⟨hc,(nodeLen_bounds (by unfold cost at hc; omega)).1⟩

/-- The nodes take no more of the buffer than of the table. -/
lemma Walk.le (h : Walk rbuf last first tot rbLen rbSize A B e) : rbLen≤tot := by
  rw [h.used,h.total]
  refine sum_le_sum fun n hn => ?_
  have hm := (h.mem hn).1
  have hf := h.fits
  unfold hpackEncTableMaxSize at hf
  unfold cost at hm ⊢
  have hb := (nodeLen_bounds (show (rbuf n).hdrLen+32≤4096 by omega)).2
  unfold len
  omega

lemma Walk.length_le (h : Walk rbuf last first tot rbLen rbSize A B e) : (A++B).length≤tot := by
  rw [h.total,← length_map (cost rbuf)]
  refine length_le_sum_of_one_le _ fun k hk => ?_
  obtain ⟨n,-,rfl⟩ := mem_map.1 hk
  unfold cost
  omega

/-- What one turn of the walk leaves: the begin of the buffer comes after the last node of `A`. -/
lemma Walk.step {wrap : Prop} [Decidable wrap] (h : Walk rbuf last first tot rbLen rbSize (n::A) B e)
    (hwrap : wrap ↔ last<first ∧ (rbLen : Int)-len rbuf first=last+len rbuf last) :
    ∃A' B' e',A'++B'=A++B ∧ Walk rbuf last (if wrap then 0 else first+len rbuf first) (sub 16 tot (cost rbuf first))
      (sub 16 rbLen (len rbuf first)) (if wrap then hpackEncTableMaxSize else rbSize) A' B' e' := by
  obtain ⟨rfl,hc⟩ := h.contig
  have hle := h.le
  have hf := h.fits
  have hin := h.inside
  have hm := h.mem (n := n) (by simp)
  have ht : tot=cost rbuf n+((A++B).map (cost rbuf)).sum := h.total
  have hu : rbLen=len rbuf n+((A++B).map (len rbuf)).sum := h.used
  have hs : sub 16 tot (cost rbuf n)=((A++B).map (cost rbuf)).sum := by
    unfold hpackEncTableMaxSize at hf
    rw [sub_of_le (by omega) hm.1]
    omega
  have hr : sub 16 rbLen (len rbuf n)=((A++B).map (len rbuf)).sum := by
    unfold hpackEncTableMaxSize at hf
    rw [sub_of_le (by omega) (by omega)]
    omega
  rw [hs,hr]
  obtain ⟨rfl,rfl,hl⟩ | ⟨-,hB,rfl,hz,hl,hfree⟩ := h.shape
  · obtain ⟨hmem,he⟩ := hl (by simp)
    have hge := (h.contig.mem hmem).1
    rw [if_neg (mt hwrap.1 (by omega)),if_neg (mt hwrap.1 (by omega))]
    refine ⟨A,[],e,rfl,hc,rfl,rfl,by omega,hin,.inl ⟨rfl,rfl,fun hA => ⟨(mem_cons.1 hmem).resolve_left ?_,he⟩⟩⟩
    rintro rfl
    obtain ⟨m,hm'⟩ := exists_mem_of_ne_nil A hA
    have h₁ := hc.mem hm'
    have h₂ := (h.mem (n := m) (by simp [hm'])).2
    omega
  · have hll := (h.mem (n := last) (by simp [hl])).2
    have hsum : ((A++B).map (len rbuf)).sum=(A.map (len rbuf)).sum+(last+len rbuf last) := by
      rw [map_append,sum_append,hz.sum,Nat.zero_add]
    cases A with
    | nil =>
      have hw : wrap := hwrap.2 ⟨by omega,by simp only [map_nil,sum_nil] at hsum; omega⟩
      have hen := hc.sum
      simp only [map_nil,sum_nil] at hen
      rw [if_pos hw,if_pos hw]
      exact ⟨B,[],_,append_nil B,hz,by simp,by simp,by omega,by omega,.inl ⟨rfl,rfl,fun _ => ⟨hl,rfl⟩⟩⟩
    | cons m A =>
      have hml := (h.mem (n := m) (by simp)).2
      have hw : ¬wrap := mt hwrap.1 (by rw [map_cons,sum_cons] at hsum; omega)
      rw [if_neg hw,if_neg hw]
      exact ⟨m::A,B,_,rfl,hc,rfl,rfl,by omega,hin,.inr ⟨by simp,hB,rfl,hz,hl,by omega⟩⟩

lemma Walk.nil (h : Walk rbuf last first tot rbLen rbSize [] B e) : tot=0 ∧ rbSize=hpackEncTableMaxSize := by
  obtain ⟨rfl,hr,-⟩ | ⟨hA,-⟩ := h.shape
  · exact ⟨h.total,hr⟩
  · exact absurd rfl hA
end

section
variable {τ π : Type} {tree : NodeTree τ π} {rbuf : Nat → HPackNode} {last newSize fuel : Nat} {del : Bool}
/-- The walk over a ring ends, and leaves a ring. -/
lemma rbufCalcLoop_walk (tree : NodeTree τ π) (newSize fuel : Nat) (del : Bool) {c : RbufCalc τ}
    {A B : List Nat} {e : Nat} (h : Walk rbuf last c.first c.size c.rbLen c.rbSize A B e) (hfuel : (A++B).length<fuel) :
    ∃ok c',rbufCalcLoop tree rbuf last newSize del fuel c=some (ok,c') ∧ (del=false → ok=true) ∧
      (ok=true → c'.size≤newSize) ∧ ∃A B e,Walk rbuf last c'.first c'.size c'.rbLen c'.rbSize A B e := by
  induction fuel generalizing c A B e with
  | zero => omega
  | succ fuel ih =>
    rw [rbufCalcLoop]
    by_cases hd : hpackMaxEncEviction≤c.delList.length ∧ del
    · rw [if_pos hd]
      exact ⟨false,c,rfl,fun hf => by simp [hf] at hd,fun hf => absurd hf Bool.false_ne_true,A,B,e,h⟩
    rw [if_neg hd]
    by_cases h0 : c.size=0
    · rw [if_pos h0]
      exact ⟨true,c,rfl,fun _ => rfl,fun _ => by omega,A,B,e,h⟩
    rw [if_neg h0]
    cases A with
    | nil => exact absurd h.nil.1 h0
    | cons n A =>
      obtain ⟨A',B',e',happ,hw⟩ := h.step Iff.rfl
      have hlen : (A'++B').length<fuel := by
        rw [happ]
        simpa using hfuel
      simp only
      by_cases hn : newSize<sub 16 c.size (32+(rbuf c.first).hdrLen)
      · rw [if_pos hn]
        exact ih hw hlen
      · rw [if_neg hn]
        exact ⟨true,_,rfl,fun _ => rfl,fun _ => Nat.le_of_not_lt hn,A',B',e',hw⟩

/-- The ring buffer is empty, or the nodes from the first one on make it up. -/
def Ring (rbuf : Nat → HPackNode) (it : ETblIter) : Prop :=
  it={} ∨ ∃first last A B e,it.first=some first ∧ it.last=some last ∧ A≠[] ∧
    Walk rbuf last first it.size it.rbLen it.rbSize A B e

lemma rbufCalc_ring (tree : NodeTree τ π) (root : τ) (newSize : Nat) (del : Bool) {it : ETblIter}
    (h : Ring rbuf it) (hne : it.size≠0) : ∃ok it' dl root',
      rbufCalc tree rbuf root newSize del it=some (ok,it',dl,root') ∧ (del=false → ok=true) ∧
      (ok=true → it'.size≤newSize ∧ Ring rbuf it') := by
  obtain rfl | ⟨first,last,A,B,e,hf,hl,hA,hw⟩ := h
  · exact absurd rfl hne
  obtain ⟨ok,c,hc,hok,hle,A',B',e',hw'⟩ := rbufCalcLoop_walk tree newSize (it.size+6) del
    (c := {first:=first, size:=it.size, rbLen:=it.rbLen, rbSize:=it.rbSize, root:=root}) hw
    (hw.length_le.trans_lt (by omega))
  refine ⟨ok,_,c.delList,c.root,by rw [rbufCalc,hf,hl,Option.getD_some,Option.getD_some,hc]; rfl,hok,fun h => ?_⟩
  subst h
  simp only [Bool.not_true,Bool.false_eq_true,if_false]
  split_ifs with hz
  · refine ⟨hle rfl,.inr ⟨c.first,last,A',B',e',rfl,rfl,?_,hw'⟩⟩
    rintro rfl
    exact hz hw'.nil.1
  · obtain rfl : A'=[] := by
      by_contra hA'
      obtain ⟨n,hn⟩ := exists_mem_of_ne_nil A' hA'
      have hm := (hw'.mem (mem_append_left B' hn)).1
      unfold cost at hm
      omega
    exact ⟨Nat.zero_le _,.inl (by rw [hw'.nil.2])⟩

lemma sum_update {f : Nat → Nat} {ns : List Nat} {n : Nat} {node : HPackNode} (hn : n∉ns) :
    ((ns++[n]).map fun m => f (update rbuf n node m).hdrLen).sum=
      (ns.map fun m => f (rbuf m).hdrLen).sum+f node.hdrLen := by
  have hm : (ns.map fun m => f (update rbuf n node m).hdrLen)=ns.map fun m => f (rbuf m).hdrLen :=
    map_congr_left fun m hm => by rw [update_of_ne (ne_of_mem_of_not_mem hm hn)]
  simp [hm]

/-- A new last node at `n` -/
lemma Walk.add {first tot rbLen rbSize e n e' rbSize' : Nat} {A B A' B' : List Nat} {node : HPackNode}
    (h : Walk rbuf last first tot rbLen rbSize A B e) (hfits : tot+node.hdrLen+32≤hpackEncTableMaxSize) (hn : n∉A++B)
    (happ : A'++B'=A++B++[n]) (hc : Contig (update rbuf n node) first A' e') (he : e'≤hpackEncTableMaxSize)
    (hs : B'=[] ∧ rbSize'=hpackEncTableMaxSize ∧ n∈A' ∧ e'=n+nodeLen node.hdrLen ∨
      A'≠[] ∧ B'≠[] ∧ rbSize'=e' ∧ Contig (update rbuf n node) 0 B' (n+nodeLen node.hdrLen) ∧ n∈B' ∧
        n+nodeLen node.hdrLen≤first) :
    Walk (update rbuf n node) n first ((tot+node.hdrLen+32)%2^16) ((rbLen+nodeLen node.hdrLen)%2^16) rbSize' A' B'
      e' := by
  have hle := h.le
  unfold hpackEncTableMaxSize at hfits
  have hnode := nodeLen_bounds (show node.hdrLen+32≤4096 by omega)
  rw [Nat.mod_eq_of_lt (by omega),Nat.mod_eq_of_lt (by omega)]
  refine ⟨hc,?_,?_,hfits,he,?_⟩
  · rw [happ,show cost (update rbuf n node)=fun m => 32+(update rbuf n node m).hdrLen from rfl,
      sum_update (f := fun h => 32+h) hn,h.total]
    unfold cost
    omega
  · rw [happ,show len (update rbuf n node)=fun m => nodeLen (update rbuf n node m).hdrLen from rfl,sum_update hn,h.used]
    rfl
  · rw [len_update]
    exact hs.imp_left fun ⟨h₁,h₂,h₃,h₄⟩ => ⟨h₁,h₂,fun _ => ⟨h₃,h₄⟩⟩

/-- A node that finds a place becomes the last one of the ring. -/
lemma nodePlace_ring {it it' : ETblIter} (node : HPackNode) (h : Ring rbuf it)
    (hfits : it.size+node.hdrLen+32≤hpackEncTableMaxSize) (hp : nodePlace rbuf it (nodeLen node.hdrLen)=some it') :
    it'.size=it.size ∧ Ring (update rbuf (it'.last.getD 0) node)
      {it' with size:=(it'.size+node.hdrLen+32)%2^16, rbLen:=(it'.rbLen+nodeLen node.hdrLen)%2^16} := by
  have hmax : hpackEncTableMaxSize=4096 := rfl
  have hnode := nodeLen_bounds (show node.hdrLen+32≤4096 by omega)
  have hc : Contig (update rbuf 0 node) 0 [0] (nodeLen node.hdrLen) := ⟨rfl,by rw [Contig,len_update,Nat.zero_add]⟩
  obtain rfl | ⟨first,last,A,B,e,hf,hl,hA,hw⟩ := h
  · simp only [nodePlace,Nat.zero_add] at hp hfits
    rw [if_neg (by omega),if_pos trivial] at hp
    cases hp
    have hw : Walk rbuf 0 0 0 0 hpackEncTableMaxSize [] [] 0 :=
      ⟨rfl,rfl,rfl,Nat.zero_le _,Nat.zero_le _,.inl ⟨rfl,rfl,fun h => absurd rfl h⟩⟩
    refine ⟨rfl,.inr ⟨0,0,[0],[],nodeLen node.hdrLen,rfl,rfl,by simp,?_⟩⟩
    exact hw.add (n := 0) (by omega) (by simp) rfl hc (by omega) (.inl ⟨rfl,rfl,by simp,(Nat.zero_add _).symm⟩)
  · have hin := hw.inside
    have hsum := hw.contig.sum
    have hu := hw.used
    have hlen {m : Nat} (hm : m∈A++B) : 24≤len rbuf m := (hw.mem hm).2
    rw [map_append,sum_append] at hu
    rw [nodePlace,hf,hl,Option.getD_some,Option.getD_some] at hp
    simp only [reduceCtorEq,if_false,show nodeLen (rbuf last).hdrLen=len rbuf last from rfl] at hp
    obtain ⟨rfl,hrs,hs⟩ | ⟨-,hB,hrs,hz,hlb,hfree⟩ := hw.shape
    · obtain ⟨hla,rfl⟩ := hs hA
      have hge := (hw.contig.mem hla).1
      have hll := hlen (mem_append_left [] hla)
      rw [map_nil,sum_nil] at hu
      rw [sub_of_le (by decide) hin] at hp
      split_ifs at hp with h₁ h₂ h₃ <;> cases hp
      · -- There is no room behind the last node, but before the first one.
        have h0 : 0∉A := fun h0 => by
          have hm := hw.contig.mem h0
          omega
        refine ⟨rfl,.inr ⟨first,0,A,[0],last+len rbuf last,rfl,rfl,hA,?_⟩⟩
        exact hw.add (n := 0) hfits (by simpa using h0) (by simp) (hw.contig.update _ h0) hin
          (.inr ⟨hA,by simp,by simp only; omega,by rwa [Nat.zero_add],by simp,by omega⟩)
      · have he := hw.contig.not_mem fun m hm => hlen (mem_append_left [] hm)
        refine ⟨rfl,.inr ⟨first,_,A++[last+len rbuf last],[],last+len rbuf last+nodeLen node.hdrLen,rfl,rfl,by simp,?_⟩⟩
        exact hw.add hfits (by simpa using he) (by simp) (hw.contig.concat_update he) (by omega)
          (.inl ⟨rfl,hrs,by simp,rfl⟩)
    · have hll := hlen (mem_append_right A hlb)
      have hbz := hz.sum
      have he := hz.not_mem fun m hm => hlen (mem_append_right A hm)
      split_ifs at hp with h₁ h₂ h₃ <;> cases hp
      · omega
      · refine ⟨rfl,.inr ⟨first,_,A,B++[last+len rbuf last],e,rfl,rfl,hA,?_⟩⟩
        have hnA : last+len rbuf last∉A := fun hm => by
          have h₄ := hw.contig.mem hm
          omega
        exact hw.add (n := last+len rbuf last) hfits (by simp [hnA,he]) (by simp) (hw.contig.update _ hnA) hin
          (.inr ⟨hA,by simp,hrs,hz.concat_update he,by simp,by omega⟩)

/-- What a table is like between two calls. -/
structure ETbl.Valid (tbl : ETbl τ) : Prop where
  ring : Ring tbl.rbuf tbl.toETblIter
  fits : tbl.size ≤ tbl.window
  capped : tbl.window≤hpackEncTableMaxSize

lemma commitNode_valid {tbl : ETbl τ} {name val : Bytes} {delList : List Nat} {place : π} {it it' : ETblIter}
    (h : tbl.Valid) (hr : Ring tbl.rbuf it) (hs : it.size+(name.length+val.length)+32 ≤ tbl.window)
    (hp : nodePlace tbl.rbuf it (nodeLen (name.length+val.length))=some it') :
    (commitNode tree tbl name val delList place it').Valid := by
  have hmax : hpackEncTableMaxSize=4096 := rfl
  have hcap := h.capped
  have hplace (node : HPackNode) (hn : node.hdrLen=name.length+val.length) := nodePlace_ring node hr
    (by rw [hn]; omega) (by rwa [hn])
  refine ⟨?_,?_,hcap⟩
  · simp only [commitNode,rbufCommit,update_idem]
    exact (hplace _ rfl).2
  · have hsz := (hplace ⟨0,0,name.length+val.length,[]⟩ rfl).1
    simp only [commitNode,rbufCommit]
    omega

lemma addNode_valid (tree : NodeTree τ π) {tbl : ETbl τ} (h : tbl.Valid) (name val : Bytes) (place : π) :
    ∃ok tbl',addNode tree tbl name val place=some (ok,tbl') ∧ tbl'.Valid := by
  have hmax : hpackEncTableMaxSize=4096 := rfl
  have hcap := h.capped
  have hfit := h.fits
  simp only [addNode]
  by_cases hbig : tbl.window<name.length+val.length+32
  · rw [if_pos hbig]
    exact ⟨_,_,rfl,h⟩
  rw [if_neg hbig]
  obtain ⟨ok,it,dl,root',hc,hok⟩ : ∃ok it dl root',(if tbl.window<(tbl.size+(name.length+val.length)+32)%2^16 then
        rbufCalc tree tbl.rbuf tbl.root (tbl.window-(name.length+val.length+32)) true tbl.toETblIter
      else some (true,tbl.toETblIter,[],tbl.root))=some (ok,it,dl,root') ∧
      (ok=true → it.size+(name.length+val.length)+32 ≤ tbl.window ∧ Ring tbl.rbuf it) := by
    split_ifs with hfull
    · obtain ⟨ok,it,dl,root',hc,-,hok⟩ := rbufCalc_ring tree tbl.root
        (tbl.window-(name.length+val.length+32)) true h.ring (by omega)
      exact ⟨ok,it,dl,root',hc,fun h => ⟨by have hle := (hok h).1; omega,(hok h).2⟩⟩
    · exact ⟨_,_,_,_,rfl,fun _ => ⟨by omega,h.ring⟩⟩
  rw [hc,Option.map_some]
  have hroot : ({tbl with root:=root'} : ETbl τ).Valid := ⟨h.ring,hfit,hcap⟩
  cases ok with
  | false => exact ⟨_,_,rfl,hroot⟩
  | true =>
    obtain ⟨hle,hr⟩ := hok rfl
    simp only [Bool.not_true,Bool.false_eq_true,if_false]
    cases hp : nodePlace tbl.rbuf it (nodeLen (name.length+val.length)) with
    | none => exact ⟨_,_,rfl,hroot⟩
    | some it' => exact ⟨_,_,rfl,commitNode_valid hroot hr hle hp⟩

/-- What a request for the size `v` makes of the window and its flag -/
def noteSize (s : Nat×Bool) (v : Nat) : Nat×Bool :=
  if s.1≠v ∧ (s.2=false ∨ s.1=0 ∨ v<s.1) then (v,true) else s

lemma applyTableSize_valid (tree : NodeTree τ π) {tbl : ETbl τ} (h : tbl.Valid) (val : Nat) :
    ∃tbl',applyTableSize tree tbl val=some tbl' ∧ tbl'.Valid ∧
      (tbl'.window,tbl'.wndChanged)=noteSize (tbl.window,tbl.wndChanged) (capped val) := by
  have hcap : capped val≤hpackEncTableMaxSize := min_le_right ..
  simp only [applyTableSize,setRbufSize,min_eq_left hcap,Bool.not_eq_true',noteSize]
  split_ifs with hch hfull
  · obtain ⟨ok,it,dl,root',hc,hok,hr⟩ := rbufCalc_ring tree tbl.root (capped val)
      false h.ring (by omega)
    rw [hc,Option.map_some]
    exact ⟨_,rfl,⟨(hr (hok rfl)).2,(hr (hok rfl)).1,hcap⟩,rfl⟩
  · exact ⟨_,rfl,⟨h.ring,Nat.le_of_not_lt hfull,hcap⟩,rfl⟩
  · exact ⟨_,rfl,h,rfl⟩

/-- The calls that change a table. -/
inductive EncOp (π : Type) where
  | add (name val : Bytes) (place : π)
  | settings (val : Nat)
  | writeSz

variable (tree) in
def encStep (tbl : ETbl τ) : EncOp π → Option (ETbl τ)
  | .add name val place => (addNode tree tbl name val place).map Prod.snd
  | .settings val => applyTableSize tree tbl val
  | .writeSz => some (encTblWriteSz tbl).2

lemma encStep_valid (tree : NodeTree τ π) {tbl : ETbl τ} (h : tbl.Valid) (op : EncOp π) :
    ∃tbl',encStep tree tbl op=some tbl' ∧ tbl'.Valid := by
  cases op with
  | add name val place =>
    obtain ⟨ok,tbl',hadd,hv⟩ := addNode_valid tree h name val place
    exact ⟨tbl',by rw [encStep,hadd]; rfl,hv⟩
  | settings val =>
    obtain ⟨tbl',hset,hv,-⟩ := applyTableSize_valid tree h val
    exact ⟨tbl',hset,hv⟩
  | writeSz =>
    refine ⟨_,rfl,?_⟩
    rw [encTblWriteSz]
    split_ifs
    · exact ⟨h.ring,h.fits,h.capped⟩
    · exact h

/-- Every run of the calls succeeds and keeps the table valid. -/
lemma run_encStep_valid (tree : NodeTree τ π) {tbl : ETbl τ} (h : tbl.Valid) (ops : List (EncOp π)) :
    ∃tbl',Run.run (encStep tree) tbl ops=some tbl' ∧ tbl'.Valid := by
  induction ops generalizing tbl with
  | nil => exact ⟨tbl,rfl,h⟩
  | cons op ops ih =>
    obtain ⟨mid,hs,hm⟩ := encStep_valid tree h op
    obtain ⟨tbl',hr,hv⟩ := ih hm
    exact ⟨tbl',(Run.run_cons_eq_some _).2 ⟨mid,hs,hr⟩,hv⟩

lemma run_applyTableSize_valid (tree : NodeTree τ π) {tbl : ETbl τ} (h : tbl.Valid) (vals : List Nat) :
    ∃tbl',Run.run (applyTableSize tree) tbl vals=some tbl' ∧ tbl'.Valid ∧
      (tbl'.window,tbl'.wndChanged)=(vals.map capped).foldl noteSize (tbl.window,tbl.wndChanged) := by
  induction vals generalizing tbl with
  | nil => exact ⟨tbl,rfl,h,rfl⟩
  | cons val vals ih =>
    obtain ⟨mid,hs,hm,hn⟩ := applyTableSize_valid tree h val
    obtain ⟨tbl',hr,hv,hf⟩ := ih hm
    refine ⟨tbl',(Run.run_cons_eq_some _).2 ⟨mid,hs,hr⟩,hv,?_⟩
    rw [hf,hn,map_cons,foldl_cons]
end

section
variable {w x m : Nat} {vs : List Nat}
/-- The window after a request, once it was changed -/
def merge (w v : Nat) : Nat := if w=0 then v else min w v

lemma foldl_noteSize_true : vs.foldl noteSize (w,true)=(vs.foldl merge w,true) := by
  induction vs generalizing w with
  | nil => rfl
  | cons v vs ih =>
    have hs : noteSize (w,true) v=(merge w v,true) := by
      unfold noteSize merge
      grind
    rw [foldl_cons,foldl_cons,hs,ih]

lemma foldl_noteSize_false : vs.foldl noteSize (w,false)=
    match vs.dropWhile (· = w) with
    | [] => (w,false)
    | x::rest => (rest.foldl merge x,true) := by
  induction vs with
  | nil => rfl
  | cons v vs ih =>
    rw [foldl_cons]
    by_cases hv : v=w
    · rw [dropWhile_cons_of_pos (by simpa using hv),← ih]
      simp [noteSize,hv]
    · rw [dropWhile_cons_of_neg (by simpa using hv),show noteSize (w,false) v=(v,true) by simp [noteSize,Ne.symm hv]]
      exact foldl_noteSize_true

lemma merge_eq_zero {v : Nat} : merge w v=0 ↔ v=0 := by
  unfold merge
  split_ifs <;> omega

/-- The requests merge to the least one, unless others followed one for 0. -/
lemma foldl_merge_least : vs.foldl merge x∈x::vs ∧
    ((∀v∈x::vs,vs.foldl merge x≤v) ↔ 0∉x::vs ∨ (x::vs).getLast?=some 0) := by
  induction vs using reverseRecOn with
  | nil =>
    simp only [mem_singleton,forall_eq,getLast?_singleton,Option.some_inj,foldl_nil,le_refl,true_and,true_iff]
    omega
  | append_singleton vs v ih =>
    obtain ⟨hmem,hleast⟩ := ih
    have hm : (vs++[v]).foldl merge x=merge (vs.foldl merge x) v := by rw [foldl_append,foldl_cons,foldl_nil]
    have hl : (x::(vs++[v])).getLast?=some v := by rw [← cons_append,getLast?_concat]
    have hz := @merge_eq_zero (vs.foldl merge x) v
    rw [hm,hl,← cons_append]
    generalize vs.foldl merge x=m at *
    generalize x::vs=l at *
    constructor
    · unfold merge
      split_ifs
      · simp
      · obtain h | h := min_choice m v
        · rw [h]
          exact mem_append_left _ hmem
        · simp [h]
    · by_cases hv : v=0
      · exact iff_of_true (fun u _ => by rw [hz.2 hv]; exact Nat.zero_le u) (.inr (by rw [hv]))
      · have hz' : merge m v≠0 := mt hz.1 hv
        by_cases h0 : 0∈l
        · refine iff_of_false (fun h => hz' (Nat.le_zero.1 (h 0 (mem_append_left _ h0)))) ?_
          simp [h0,hv]
        · have hm0 : m≠0 := fun h => h0 (h ▸ hmem)
          refine iff_of_true (fun u hu => ?_) (.inl (by simp [h0,Ne.symm hv]))
          rw [merge,if_neg hm0]
          obtain hu | hu := mem_append.1 hu
          · exact (min_le_left ..).trans (hleast.2 (.inl h0) u hu)
          · rw [mem_singleton.1 hu]
            exact min_le_right ..

/-- The size update that is due, if any -/
def announced {τ : Type} (tbl : ETbl τ) : Option Nat := if tbl.wndChanged then some tbl.window else none

/-- An announced size is the least one that was requested, and without one all were for the window of before. -/
def Least (w : Nat) (vs : List Nat) : Option Nat → Prop
  | some m => m∈vs ∧ ∀v∈vs,m≤v
  | none => ∀v∈vs,v=w

/-- No request other than 0 follows one for 0, and one that is not above the window `w` follows a change of it if the
first request was for `w`. -/
def SizesOk (w : Nat) (vs : List Nat) : Prop :=
  (∀v∈vs,v=w) ∨ (0∉vs ∨ vs.getLast?=some 0) ∧ (vs.head?≠some w ∨ ∃v∈vs.dropWhile (· = w),v≤w)

lemma least_iff {s : Nat×Bool} (h : s=vs.foldl noteSize (w,false)) :
    Least w vs (if s.2 then some s.1 else none) ↔ SizesOk w vs := by
  rw [h,foldl_noteSize_false]
  have hsplit := takeWhile_append_dropWhile (p := (· = w)) (l := vs)
  cases hd : vs.dropWhile (· = w) with
  | nil =>
    have hall : ∀v∈vs,v=w := by simpa using dropWhile_eq_nil_iff.1 hd
    exact iff_of_true hall (.inl hall)
  | cons x rest =>
    obtain ⟨hmem,hleast⟩ := @foldl_merge_least x rest
    rw [hd] at hsplit
    have hx : x≠w := by simpa [hd] using head_dropWhile_not (· = w) (l := vs) (by simp [hd])
    have hpre : ∀v∈vs.takeWhile (· = w),v=w := fun v hv => by simpa using mem_takeWhile_imp hv
    simp only [if_true,Least,SizesOk,hd]
    generalize rest.foldl merge x=m at *
    generalize vs.takeWhile (· = w)=p at *
    subst hsplit
    rw [or_iff_right fun h => hx (h x (by simp))]
    have hlast : (p++x::rest).getLast?=(x::rest).getLast? := by rw [getLast?_append_of_ne_nil _ (by simp)]
    cases p with
    | nil => simpa [hx,hmem] using hleast
    | cons v p =>
      obtain rfl : v=w := hpre v mem_cons_self
      have hall : (∀u∈v::p++x::rest,m≤u) ↔ m≤v ∧ ∀u∈x::rest,m≤u := by
        rw [forall_mem_append]
        exact and_congr_left' ⟨fun h => h v mem_cons_self,fun h u hu => h.trans_eq (hpre u hu).symm⟩
      rw [hlast,hall,hleast,and_iff_right (mem_append_right _ hmem)]
      simp only [cons_append,head?_cons,ne_eq,not_true_eq_false,false_or]
      constructor
      · rintro ⟨hle,ho⟩
        refine ⟨ho.imp_left fun h0 hz => ?_,m,hmem,hle⟩
        obtain hz | hz := mem_append.1 (cons_append ▸ hz : 0∈v::p++x::rest)
        · exact h0 ((Nat.le_zero.1 (hle.trans_eq (hpre 0 hz).symm)) ▸ hmem)
        · exact h0 hz
      · rintro ⟨ho,u,hu,huv⟩
        have ho' := ho.imp_left fun h0 hz => h0 (mem_cons_of_mem v (mem_append_right p hz))
        exact ⟨(hleast.2 ho' u hu).trans huv,ho'⟩

/-- After any calls and a size update, whatever sizes are requested until the next header block: the least of them is
announced exactly if they are `SizesOk`, and the table is never larger than announced. -/
theorem table_size_announced {τ π : Type} (tree : NodeTree τ π) (root : τ) (ops : List (EncOp π)) :
    ∃tbl,Run.run (encStep tree) {root:=root} ops=some tbl ∧ (tbl.wndChanged=false → ∀vals,
      ∃tbl',Run.run (applyTableSize tree) tbl vals=some tbl' ∧
        (encTblWriteSz tbl').1=(announced tbl').map (writeInt · 0x1F 0x20) ∧
        (encTblWriteSz tbl').2.size≤(announced tbl').getD tbl.window ∧
        (Least tbl.window (vals.map capped) (announced tbl') ↔ SizesOk tbl.window (vals.map capped))) := by
  obtain ⟨tbl,hr,hv⟩ := @run_encStep_valid τ π tree {root:=root}
    ⟨.inl rfl,Nat.zero_le _,le_rfl⟩ ops
  refine ⟨tbl,hr,fun hch vals => ?_⟩
  obtain ⟨tbl',hr',hv',hn⟩ := run_applyTableSize_valid tree hv vals
  rw [hch] at hn
  refine ⟨tbl',hr',?_,?_,least_iff hn⟩
  · rw [encTblWriteSz,announced]
    split_ifs <;> rfl
  · have hfit := hv'.fits
    rw [encTblWriteSz,announced]
    split_ifs with hc
    · exact hfit
    · have hw : tbl'.window=tbl.window := by
        rw [foldl_noteSize_false] at hn
        split at hn
        · exact congrArg Prod.fst hn
        · exact absurd (congrArg Prod.snd hn) hc
      exact hfit.trans_eq hw

/-- Two headers in the table and the window 100: another request for 100 is no change, then 40 is the least one. -/
theorem table_size_announced_smaller : ∃tbl tbl',
    Run.run (encStep noTree) {root:=()} [.add [97] [] (),.add [98] [] (),.settings 100,.writeSz]=some tbl ∧
      Run.run (applyTableSize noTree) tbl [100,5000,40,60]=some tbl' ∧
        Least 100 [100,4096,40,60] (announced tbl') := by
  obtain ⟨tbl,hr,h⟩ := table_size_announced noTree () [.add [97] [] (),.add [98] [] (),.settings 100,.writeSz]
  have hw : (Run.run (encStep noTree) {root:=()} [.add [97] [] (),.add [98] [] (),.settings 100,.writeSz]).map
      (fun tbl => (tbl.wndChanged,tbl.window))=some (false,100) := rfl
  rw [hr,Option.map_some,Option.some_inj,Prod.mk.injEq] at hw
  obtain ⟨tbl',hr',-,-,hl⟩ := h hw.1 [100,5000,40,60]
  rw [hw.2] at hl
  exact ⟨tbl,tbl',hr,hr',hl.2 (.inr ⟨.inl (by decide),.inr ⟨40,by decide,by decide⟩⟩)⟩
end
end VetWaf.Hpack
