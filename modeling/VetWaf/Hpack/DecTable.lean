import VetWaf.Lib.Mem
import VetWaf.Lib.Ring
import VetWaf.Lib.Word
import VetWaf.Hpack.StaticTable
import VetWaf.Rfc7541.DynTable

namespace VetWaf.Hpack
open Rfc7541 Function List Word Mem VetWaf.Ring

/-- `TfwHPackDTbl`, without its pools. -/
structure TfwHPackDTbl (κ : Type) where
  entries : Nat → TfwHPackEntry κ
  n : Nat
  curr : Nat
  length : Nat
  size : Nat
  window : Nat
  wndUpdate : Bool

/-- The members of `TfwMsgParseIter` that a table entry is made from. -/
structure TfwMsgParseIter where
  parsedHdr : TfwStr
  nmLen : Nat
  nmNum : Nat
  tag : TfwHPackTag
  deriving DecidableEq

/-- What a successful pool allocation hands out. -/
structure PoolGrant (κ : Type) where
  inPlace : Bool
  fresh : Nat → TfwHPackEntry κ

section
variable {κ : Type}

/-- The do-while loops that drop the eldest entries while `size` is above `limit`. -/
def dropEldest (entries : Nat → TfwHPackEntry κ) (length limit : Nat) : (count early size : Nat) → Option (Nat×Nat)
  | 0, _, _ => none
  | count+1, early, size =>
    let size := sub 32 size (entryOverhead+(entries early).hdr.len)
    if limit<size then dropEldest entries length limit count (next length early) size
    else some (count,size)

def earlySlot (curr count length : Nat) : Nat := if count≤curr then curr-count else curr+(length-count)

/-- The reallocation branch of `tfw_hpack_add_index`. -/
def growEntries (tbl : TfwHPackDTbl κ) (grant : PoolGrant κ) : TfwHPackDTbl κ×Nat :=
  if tbl.length=0 then ({tbl with entries:=grant.fresh, length:=32},tbl.curr)
  else
    let length := trunc 32 (tbl.length*2)
    let tail := tbl.length-tbl.curr
    if grant.inPlace then
      let mem := copy grant.fresh 0 tbl.entries 0 tbl.length
      if tbl.curr=0 then ({tbl with entries:=mem, length:=length},tbl.n)
      else
        ({tbl with
            entries:=copy mem (tbl.length*2-tail) mem tbl.curr tail, length:=length},
          tbl.curr)
    else
      let mem := copy grant.fresh 0 tbl.entries tbl.curr tail
      ({tbl with entries:=copy mem tail tbl.entries 0 tbl.curr, length:=length},tbl.n)

/-- The entry that `tfw_hpack_set_entry` fills. -/
def mkEntry (it : TfwMsgParseIter) (cstate : κ) : TfwHPackEntry κ := ⟨it.parsedHdr,it.nmLen,it.nmNum,it.tag,cstate⟩

/-- The end of `tfw_hpack_add_index`. -/
def storeEntry (tbl : TfwHPackDTbl κ) (curr count newSize : Nat) (it : TfwMsgParseIter)
    (cstate : κ) : Rc×TfwHPackDTbl κ :=
  if it.parsedHdr.plain then
    (.compression,{tbl with
      entries:=update tbl.entries curr {tbl.entries curr with cstate:=cstate}})
  else
    (.ok,{tbl with
      entries:=update tbl.entries curr (mkEntry it cstate)
      curr:=next tbl.length curr
      n:=count+1
      size:=newSize})

/-- `tfw_hpack_add_index`, with the pool granting every request. -/
def tfwHpackAddIndex (tbl : TfwHPackDTbl κ) (it : TfwMsgParseIter) (cstate : κ)
    (grant : PoolGrant κ) : Option (Rc×TfwHPackDTbl κ) :=
  let hdrLen := it.parsedHdr.len
  let delta := add 32 entryOverhead hdrLen
  if delta<hdrLen then some (.compression,tbl)
  else
    let newSize := add 32 tbl.size delta
    if tbl.window<newSize ∨ newSize<delta then
      if delta≤tbl.window then
        match dropEldest tbl.entries tbl.length (tbl.window-delta) tbl.n
            (earlySlot tbl.curr tbl.n tbl.length) tbl.size with
        | none => none
        | some (count,size) => some (storeEntry tbl tbl.curr count (add 32 size delta) it cstate)
      else if tbl.n=0 then some (.ok,tbl)
      else some (.ok,{tbl with n:=0, curr:=0, size:=0})
    else if tbl.n=tbl.length then
      let (grown,curr) := growEntries tbl grant
      some (storeEntry grown curr tbl.n newSize it cstate)
    else some (storeEntry tbl tbl.curr tbl.n newSize it cstate)

def tfwHpackEntryTagValid : TfwHPackTag → Bool
  | .h2Status => false
  | _ => true

def tfwHpackFindIndex [Inhabited κ] (tbl : TfwHPackDTbl κ) (index : Nat) : Option (TfwHPackEntry κ) :=
  let entry :=
    if index ≤ staticEntries then (if index=0 then none else staticTable[index-1]?)
    else
      let index := index-staticEntries
      if index≤tbl.n then
        some (tbl.entries (if index≤tbl.curr then tbl.curr-index else tbl.curr+(tbl.length-index)))
      else none
  entry.filter fun e => tfwHpackEntryTagValid e.tag

def tfwHpackSetLength (tbl : TfwHPackDTbl κ) (maxWindow newSize : Nat) : Option (Rc×TfwHPackDTbl κ) :=
  if maxWindow<newSize then some (.compression,tbl)
  else if newSize<tbl.size then
    match dropEldest tbl.entries tbl.length newSize tbl.n
        (earlySlot tbl.curr tbl.n tbl.length) tbl.size with
    | none => none
    | some (count,size) => some (.ok,{tbl with n:=count, size:=size, window:=newSize})
  else some (.ok,{tbl with window:=newSize})

end

section
variable {κ : Type}
def entryCost (e : TfwHPackEntry κ) : Nat := entryOverhead+e.hdr.len

/-- The ring `tbl` holds exactly the live entries of the abstract table `t`. -/
structure Represents (tbl : TfwHPackDTbl κ) (t : DynTable (TfwHPackEntry κ) entryCost) : Prop where
  n_le : tbl.n≤tbl.length
  curr_lt : 0<tbl.length → tbl.curr<tbl.length
  curr_zero : tbl.length=0 → tbl.curr=0
  window_eq : tbl.window=t.limit
  window_lt : tbl.window<2^32
  live : Ring.window tbl.entries tbl.length tbl.curr tbl.n=t.entries
  size_eq : tbl.size=tableSize entryCost t.entries

variable {tbl : TfwHPackDTbl κ} {t : DynTable (TfwHPackEntry κ) entryCost}
lemma earlySlot_eq (curr count length : Nat) : earlySlot curr count length=slot length curr count := rfl

lemma dropEldest_spec (entries : Nat → TfwHPackEntry κ) {length curr : Nat} (limit n : Nat)
    (hn : n≤length) (hc : curr<length) (hs : tableSize entryCost (Ring.window entries length curr n)<2^32)
    (hl : limit<tableSize entryCost (Ring.window entries length curr n)) :
    ∃m,dropEldest entries length limit n (slot length curr n)
        (tableSize entryCost (Ring.window entries length curr n)) =
          some (m,tableSize entryCost (Ring.window entries length curr m)) ∧ m<n ∧ Ring.window entries length curr m =
        evict entryCost limit (Ring.window entries length curr n) := by
  induction n with
  | zero => simp at hl
  | succ n ih =>
    have hr : sub 32 (tableSize entryCost (Ring.window entries length curr (n+1)))
        (entryOverhead+(entries (slot length curr (n+1))).hdr.len) =
        tableSize entryCost (Ring.window entries length curr n) := by
      rw [window_succ,tableSize_append] at hs ⊢
      simp only [tableSize_cons,tableSize_nil,entryCost] at hs ⊢
      rw [sub_of_le (by omega) (by omega)]
      omega
    have he : evict entryCost limit (Ring.window entries length curr (n+1)) =
        evict entryCost limit (Ring.window entries length curr n) := by
      rw [window_succ] at hl ⊢
      exact evict_concat_of_lt entryCost hl
    rw [dropEldest,hr,he]
    by_cases hg : limit<tableSize entryCost (Ring.window entries length curr n)
    · have hp : 0<n := by
        by_contra h
        simp [show n=0 by omega] at hg
      have hlt : tableSize entryCost (Ring.window entries length curr n)<2^32 := by
        rw [window_succ,tableSize_append] at hs
        omega
      obtain ⟨m,hm,hmn,hw⟩ := ih (by omega) hlt hg
      refine ⟨m,?_,by omega,hw⟩
      rw [if_pos hg,next_slot_succ hp (by omega) hc]
      exact hm
    · exact ⟨n,if_neg hg,by omega,(evict_of_le entryCost (by omega)).symm⟩

/-- What `tfw_hpack_decode` promises of a header it inserts. -/
structure ParsedByDecoder (it : TfwMsgParseIter) : Prop where
  compound : it.parsedHdr.plain=false
  len_lt : entryOverhead+it.parsedHdr.len<2^32
  tag_valid : tfwHpackEntryTagValid it.tag=true

lemma represents_size_le (h : Represents tbl t) : tbl.size≤tbl.window := by
  rw [h.size_eq,h.window_eq]
  exact t.fits

lemma storeEntry_spec (curr count newSize : Nat) (it : TfwMsgParseIter) (cstate : κ)
    (u : DynTable (TfwHPackEntry κ) entryCost) (hp : it.parsedHdr.plain=false)
    (hc : count<tbl.length) (hcu : curr<tbl.length) (hw : tbl.window=u.limit) (hlt : tbl.window<2^32)
    (hl : mkEntry it cstate::Ring.window tbl.entries tbl.length curr count=u.entries)
    (hs : newSize=tableSize entryCost u.entries) : (storeEntry tbl curr count newSize it cstate).1=.ok ∧
      Represents (storeEntry tbl curr count newSize it cstate).2 u := by
  rw [storeEntry,if_neg (by simp [hp])]
  refine ⟨rfl,?_⟩
  constructor
  · exact hc
  · intro _
    exact next_lt hcu
  · intro h0
    change tbl.length=0 at h0
    omega
  · exact hw
  · exact hlt
  · rw [← hl]
    exact window_push tbl.entries (mkEntry it cstate) hc
  · exact hs

lemma growEntries_spec (h : Represents tbl t) (grant : PoolGrant κ) (hf : tbl.n=tbl.length)
    (hr : tbl.length*2<2^32) : (growEntries tbl grant).1.window=tbl.window ∧ tbl.n<(growEntries tbl grant).1.length ∧
      (growEntries tbl grant).2<(growEntries tbl grant).1.length ∧
      Ring.window (growEntries tbl grant).1.entries (growEntries tbl grant).1.length
        (growEntries tbl grant).2 tbl.n=t.entries := by
  have hl := h.live
  have ht : trunc 32 (tbl.length*2)=tbl.length*2 := trunc_of_lt hr
  unfold growEntries
  by_cases h0 : tbl.length=0
  · rw [if_pos h0]
    have hc := h.curr_zero h0
    have hn : tbl.n=0 := by omega
    rw [hn,window_zero] at hl
    refine ⟨rfl,by simp [hn],by simp [hc],?_⟩
    rw [hn,window_zero]
    exact hl
  rw [if_neg h0]
  have hc := h.curr_lt (by omega)
  simp only [ht]
  have hold : ∀i,i<tbl.length → copy grant.fresh 0 tbl.entries 0 tbl.length i=tbl.entries i := by
    intro i hi
    rw [copy_start _ _ hi,zero_add]
  split_ifs with hin hc0 <;> dsimp only <;> refine ⟨rfl,by omega,by omega,?_⟩ <;> rw [← hl,hf]
  · -- the block grew in place and is already unrolled
    refine window_unroll le_rfl hc ?_ (by omega)
    intro i hi
    rw [hold i (by omega),hc0,zero_add]
  · -- the block grew in place: the part from `curr` on moves to its new end
    refine window_shift_tail le_rfl (by omega) ?_ ?_
    · intro i hi
      rw [copy_below _ _ (by omega),hold i (by omega)]
    · intro i hi hil
      have e : tbl.length*2-tbl.length+i=tbl.length*2-(tbl.length-tbl.curr)+(i-tbl.curr) := by omega
      rw [e,copy_inside _ _ (by omega),hold _ (by omega),Nat.add_sub_cancel' hi]
  · -- the block moved: its two segments are copied in order
    refine window_unroll le_rfl hc ?_ ?_
    · intro i hi
      rw [copy_below _ _ hi,copy_start _ _ hi]
    · intro i hi
      rw [copy_inside _ _ hi,zero_add]

lemma dropEldest_represents (h : Represents tbl t) (limit : Nat) (hlim : limit<tbl.size) :
    ∃m,dropEldest tbl.entries tbl.length limit tbl.n (earlySlot tbl.curr tbl.n tbl.length)
        tbl.size=some (m,tableSize entryCost (evict entryCost limit t.entries)) ∧ m<tbl.n ∧ tbl.curr<tbl.length ∧
      Ring.window tbl.entries tbl.length tbl.curr m=evict entryCost limit t.entries := by
  have hn : 0<tbl.n := by
    by_contra h0
    have hl := h.live
    rw [show tbl.n=0 by omega,window_zero] at hl
    rw [h.size_eq,← hl,tableSize_nil] at hlim
    omega
  have hle := h.n_le
  have hc := h.curr_lt (by omega)
  have hs := represents_size_le h
  have hwl := h.window_lt
  obtain ⟨m,hm,hmn,hw⟩ := dropEldest_spec tbl.entries limit tbl.n hle hc
    (by rw [h.live,← h.size_eq]; omega) (by rwa [h.live,← h.size_eq])
  rw [h.live,← h.size_eq] at hm
  rw [h.live] at hw
  refine ⟨m,?_,hmn,hc,hw⟩
  rw [earlySlot_eq,hm,hw]

variable {it : TfwMsgParseIter} (h : Represents tbl t)
include h
section
variable (hit : ParsedByDecoder it)
include hit

/-- The branches of `tfw_hpack_add_index` for a header of the decoder, over unbounded sums. -/
lemma tfwHpackAddIndex_eq (cstate : κ) (grant : PoolGrant κ) : tfwHpackAddIndex tbl it cstate grant =
      if tbl.window<tbl.size+entryCost (mkEntry it cstate) then
        if entryCost (mkEntry it cstate)≤tbl.window then
          match dropEldest tbl.entries tbl.length (tbl.window-entryCost (mkEntry it cstate)) tbl.n
              (earlySlot tbl.curr tbl.n tbl.length) tbl.size with
          | none => none
          | some (count,size) => some (storeEntry tbl tbl.curr count
              (add 32 size (entryCost (mkEntry it cstate))) it cstate) else if tbl.n=0 then some (.ok,tbl)
        else some (.ok,{tbl with n:=0, curr:=0, size:=0}) else if tbl.n=tbl.length then
        some (storeEntry (growEntries tbl grant).1 (growEntries tbl grant).2 tbl.n
          (tbl.size+entryCost (mkEntry it cstate)) it cstate)
      else some (storeEntry tbl tbl.curr tbl.n (tbl.size+entryCost (mkEntry it cstate)) it cstate) := by
  have hd : add 32 entryOverhead it.parsedHdr.len=entryCost (mkEntry it cstate) := add_of_lt hit.len_lt
  have hl : entryCost (mkEntry it cstate)<2^32 := hit.len_lt
  have hlo : ¬ entryCost (mkEntry it cstate) < it.parsedHdr.len :=
    Nat.not_lt.2 (Nat.le_add_left it.parsedHdr.len entryOverhead)
  have hs := represents_size_le h
  have hwl := h.window_lt
  rw [tfwHpackAddIndex]
  simp only [hd]
  rw [if_neg hlo]
  generalize entryCost (mkEntry it cstate)=delta at hl ⊢
  by_cases ho : tbl.window<tbl.size+delta
  · rw [if_pos ho,if_pos]
    by_cases hw : tbl.size+delta<2^32
    · exact Or.inl (by rwa [add_of_lt hw])
    · exact Or.inr (by rw [add_of_ge (by omega) hl (by omega)]; omega)
  · have hn : add 32 tbl.size delta=tbl.size+delta := add_of_lt (by omega)
    rw [if_neg ho,hn,if_neg (by omega)]

lemma addIndex_room (cstate : κ) (grant : PoolGrant κ) (hfi : tbl.size+entryCost (mkEntry it cstate)≤tbl.window) :
    ∃tbl',tfwHpackAddIndex tbl it cstate grant=some (.ok,tbl') ∧ Represents tbl' (t.insert (mkEntry it cstate)) := by
  have hwe := h.window_eq
  have hwl := h.window_lt
  have hi : (t.insert (mkEntry it cstate)).entries=mkEntry it cstate::t.entries := by
    rw [DynTable.insert_entries_of_le (by omega),evict_of_le]
    rw [← h.size_eq]
    omega
  have hs : tbl.size+entryCost (mkEntry it cstate)=tableSize entryCost (t.insert (mkEntry it cstate)).entries := by
    rw [hi,tableSize_cons,← h.size_eq,add_comm]
  rw [tfwHpackAddIndex_eq h hit,if_neg (by omega)]
  by_cases hf : tbl.n=tbl.length
  · have hlo : tbl.length*2<2^32 := by
      have hm := length_mul_le_tableSize entryCost (c := 32)
        (fun e : TfwHPackEntry κ => Nat.le_add_right entryOverhead e.hdr.len) t.entries
      rw [← h.live,Ring.window_length,h.live,← h.size_eq] at hm
      omega
    obtain ⟨hw,hn,hc,hl⟩ := growEntries_spec h grant hf hlo
    obtain ⟨hr,hre⟩ := storeEntry_spec (growEntries tbl grant).2 tbl.n
      (tbl.size+entryCost (mkEntry it cstate)) it cstate (t.insert (mkEntry it cstate))
      hit.compound hn hc (by rw [hw,hwe,DynTable.insert_limit]) (by rw [hw]; exact hwl) (by rw [hl,hi]) hs
    rw [if_pos hf]
    exact ⟨_,by rw [← hr],hre⟩
  · have hn : tbl.n<tbl.length := Nat.lt_of_le_of_ne h.n_le hf
    obtain ⟨hr,hre⟩ := storeEntry_spec tbl.curr tbl.n
      (tbl.size+entryCost (mkEntry it cstate)) it cstate (t.insert (mkEntry it cstate))
      hit.compound hn (h.curr_lt (by omega)) (by rw [hwe,DynTable.insert_limit]) hwl (by rw [h.live,hi]) hs
    rw [if_neg hf]
    exact ⟨_,by rw [← hr],hre⟩

lemma addIndex_evicts (cstate : κ) (grant : PoolGrant κ)
    (ho : tbl.window<tbl.size+entryCost (mkEntry it cstate)) (hf : entryCost (mkEntry it cstate)≤tbl.window) :
    ∃tbl',tfwHpackAddIndex tbl it cstate grant=some (.ok,tbl') ∧ Represents tbl' (t.insert (mkEntry it cstate)) := by
  have hwe := h.window_eq
  have hwl := h.window_lt
  have hn := h.n_le
  have hi := DynTable.insert_entries_of_le (t := t) (a := mkEntry it cstate) (by omega)
  rw [← hwe] at hi
  obtain ⟨m,hm,hmn,hc,hw⟩ := dropEldest_represents h (tbl.window-entryCost (mkEntry it cstate)) (by omega)
  rw [tfwHpackAddIndex_eq h hit,if_pos ho,if_pos hf,hm]
  have hle := evict_size_le entryCost (tbl.window-entryCost (mkEntry it cstate)) t.entries
  dsimp only
  rw [add_of_lt (by omega)]
  obtain ⟨hr,hre⟩ := storeEntry_spec tbl.curr m
    (tableSize entryCost (evict entryCost (tbl.window-entryCost (mkEntry it cstate)) t.entries) +
      entryCost (mkEntry it cstate)) it cstate (t.insert (mkEntry it cstate)) hit.compound
    (by omega) hc (by rw [hwe,DynTable.insert_limit]) hwl (by rw [hw,hi]) (by rw [hi,tableSize_cons,add_comm])
  exact ⟨_,by rw [← hr],hre⟩

lemma addIndex_empties (cstate : κ) (grant : PoolGrant κ) (hb : tbl.window<entryCost (mkEntry it cstate)) :
    ∃tbl',tfwHpackAddIndex tbl it cstate grant=some (.ok,tbl') ∧ Represents tbl' (t.insert (mkEntry it cstate)) := by
  have hw := h.window_eq
  have hi := DynTable.insert_entries_of_lt (t := t) (a := mkEntry it cstate) (by omega)
  have hl : tbl.window=(t.insert (mkEntry it cstate)).limit := by rw [hw,DynTable.insert_limit]
  rw [tfwHpackAddIndex_eq h hit,if_pos (by omega),if_neg (by omega)]
  by_cases h0 : tbl.n=0
  · have hli := h.live
    rw [h0,window_zero] at hli
    rw [if_pos h0]
    refine ⟨_,rfl,⟨h.n_le,h.curr_lt,h.curr_zero,hl,h.window_lt,?_,?_⟩⟩
    · rw [h0,hi,window_zero]
    · rw [h.size_eq,← hli,hi]
  · rw [if_neg h0]
    refine ⟨_,rfl,⟨zero_le,id,fun _ => rfl,hl,h.window_lt,?_,?_⟩⟩
    · rw [hi,window_zero]
    · rw [hi,tableSize_nil]

lemma tfwHpackAddIndex_spec (cstate : κ) (grant : PoolGrant κ) :
    ∃tbl',tfwHpackAddIndex tbl it cstate grant=some (.ok,tbl') ∧ Represents tbl' (t.insert (mkEntry it cstate)) := by
  by_cases hr : tbl.size+entryCost (mkEntry it cstate)≤tbl.window
  · exact addIndex_room h hit cstate grant hr
  by_cases hf : entryCost (mkEntry it cstate)≤tbl.window
  · exact addIndex_evicts h hit cstate grant (by omega) hf
  · exact addIndex_empties h hit cstate grant (by omega)

end

lemma tfwHpackSetLength_spec {maxWindow newSize : Nat} (hma : maxWindow<2^32) (hne : newSize ≤ maxWindow) :
    ∃tbl',tfwHpackSetLength tbl maxWindow newSize=some (.ok,tbl') ∧ Represents tbl' (t.resize newSize) := by
  rw [tfwHpackSetLength,if_neg (by omega)]
  by_cases hs : newSize<tbl.size
  · obtain ⟨m,hm,hmn,hc,hw⟩ := dropEldest_represents h newSize hs
    have hn := h.n_le
    rw [if_pos hs,hm]
    exact ⟨_,rfl,⟨by change m≤tbl.length; omega,h.curr_lt,h.curr_zero,rfl,by change newSize<2^32; omega,hw,rfl⟩⟩
  · have he : evict entryCost newSize t.entries=t.entries := evict_of_le entryCost (by rw [← h.size_eq]; omega)
    rw [if_neg hs]
    refine ⟨_,rfl,⟨h.n_le,h.curr_lt,h.curr_zero,rfl,?_,?_,?_⟩⟩
    · change newSize<2^32
      omega
    · rw [DynTable.resize_entries,he]
      exact h.live
    · rw [DynTable.resize_entries,he]
      exact h.size_eq

lemma tfwHpackFindIndex_spec [Inhabited κ]
    (hv : ∀e∈t.entries,tfwHpackEntryTagValid e.tag=true) {i : Nat} (hi : staticEntries < i) :
    tfwHpackFindIndex tbl i=t.lookup (i-staticEntries) := by
  have hp : i-staticEntries≠0 := by omega
  have hg := window_getElem? tbl.entries tbl.length tbl.curr tbl.n (i-staticEntries-1)
  rw [h.live,show i-staticEntries-1+1=i-staticEntries by omega] at hg
  rw [DynTable.lookup,if_neg hp,tfwHpackFindIndex,if_neg (by omega)]
  dsimp only
  by_cases hn : i-staticEntries≤tbl.n
  · rw [if_pos (by omega)] at hg
    have hm := mem_of_getElem? hg
    rw [if_pos hn,hg]
    exact Option.filter_some_pos (hv _ hm)
  · rw [if_neg (by omega)] at hg
    rw [if_neg hn,hg]
    rfl

end

section
variable {κ : Type}

inductive TblOp (κ : Type) where
  | addIndex (it : TfwMsgParseIter) (cstate : κ) (grant : PoolGrant κ)
  | setLength (newSize : Nat)

/-- The table after `tfw_hpack_init`. -/
def initTbl (window : Nat) (mem : Nat → TfwHPackEntry κ) : TfwHPackDTbl κ := ⟨mem,0,0,0,0,window,false⟩

def stepTbl (maxWindow : Nat) (tbl : TfwHPackDTbl κ) : TblOp κ → Option (Rc×TfwHPackDTbl κ)
  | .addIndex it cstate grant => tfwHpackAddIndex tbl it cstate grant
  | .setLength newSize => tfwHpackSetLength tbl maxWindow newSize

def runTbl (maxWindow : Nat) (tbl : TfwHPackDTbl κ) : List (TblOp κ) → Option (List Rc×TfwHPackDTbl κ)
  | [] => some ([],tbl)
  | op::ops =>
    match stepTbl maxWindow tbl op with
    | none => none
    | some (r,tbl') =>
      match runTbl maxWindow tbl' ops with
      | none => none
      | some (rs,tbl'') => some (r::rs,tbl'')

/-- The same call on the abstract table. -/
def specStep (maxWindow : Nat) (t : DynTable (TfwHPackEntry κ) entryCost) :
    TblOp κ → Rc×DynTable (TfwHPackEntry κ) entryCost
  | .addIndex it cstate _ => (.ok,t.insert (mkEntry it cstate))
  | .setLength newSize => if newSize ≤ maxWindow then (.ok,t.resize newSize) else (.compression,t)

def specRun (maxWindow : Nat) (t : DynTable (TfwHPackEntry κ) entryCost) :
    List (TblOp κ) → List Rc×DynTable (TfwHPackEntry κ) entryCost
  | [] => ([],t)
  | op::ops =>
    let (r,t') := specStep maxWindow t op
    let (rs,t'') := specRun maxWindow t' ops
    (r::rs,t'')

/-- The headers inserted are those `tfw_hpack_decode` hands over. -/
def TblOp.FromDecoder : TblOp κ → Prop
  | .addIndex it _ _ => ParsedByDecoder it
  | .setLength _ => True

lemma represents_init {window : Nat} (hw : window<2^32) (mem : Nat → TfwHPackEntry κ) :
    Represents (initTbl window mem) (DynTable.empty window) := by
  refine ⟨le_refl 0,?_,fun _ => rfl,rfl,hw,rfl,rfl⟩
  intro h
  exact absurd h (lt_irrefl 0)

def TagsValid (t : DynTable (TfwHPackEntry κ) entryCost) : Prop := ∀e∈t.entries,tfwHpackEntryTagValid e.tag=true

variable {maxWindow : Nat} {t : DynTable (TfwHPackEntry κ) entryCost}
lemma specStep_tagsValid {op : TblOp κ} (ht : TagsValid t) (ho : op.FromDecoder) :
    TagsValid (specStep maxWindow t op).2 := by
  cases op with
  | addIndex it cstate grant =>
    intro e he
    change e∈(t.insert (mkEntry it cstate)).entries at he
    by_cases hf : entryCost (mkEntry it cstate)≤t.limit
    · rw [DynTable.insert_entries_of_le hf,mem_cons] at he
      obtain rfl | he := he
      · exact ho.tag_valid
      · exact ht e (evict_subset entryCost _ _ he)
    · rw [DynTable.insert_entries_of_lt (by omega)] at he
      simp at he
  | setLength newSize =>
    rw [specStep]
    split_ifs with h
    · intro e he
      exact ht e (evict_subset entryCost _ _ he)
    · exact ht

lemma stepTbl_spec (hm : maxWindow<2^32) {tbl : TfwHPackDTbl κ} {op : TblOp κ} (h : Represents tbl t)
    (ho : op.FromDecoder) : ∃tbl',stepTbl maxWindow tbl op=some ((specStep maxWindow t op).1,tbl') ∧
      Represents tbl' (specStep maxWindow t op).2 := by
  cases op with
  | addIndex it cstate grant => exact tfwHpackAddIndex_spec h ho cstate grant
  | setLength newSize =>
    by_cases hle : newSize ≤ maxWindow
    · obtain ⟨tbl',hru,hr⟩ := tfwHpackSetLength_spec h hm hle
      rw [specStep,if_pos hle]
      exact ⟨tbl',hru,hr⟩
    · rw [specStep,if_neg hle]
      exact ⟨tbl,if_pos (by omega),h⟩

lemma runTbl_spec (hm : maxWindow<2^32) (ops : List (TblOp κ))
    (hops : ∀op∈ops,op.FromDecoder) {tbl : TfwHPackDTbl κ} (h : Represents tbl t) (ht : TagsValid t) :
    ∃tbl',runTbl maxWindow tbl ops=some ((specRun maxWindow t ops).1,tbl') ∧
      Represents tbl' (specRun maxWindow t ops).2 ∧ TagsValid (specRun maxWindow t ops).2 := by
  induction ops generalizing tbl t with
  | nil => exact ⟨tbl,rfl,h,ht⟩
  | cons op ops ih =>
    have hop := hops op (.head _)
    obtain ⟨tbl1,hst,h1⟩ := stepTbl_spec hm h hop
    obtain ⟨tbl2,hr,h2,ht2⟩ := ih (fun o ho => hops o (mem_cons_of_mem op ho)) h1 (specStep_tagsValid ht hop)
    refine ⟨tbl2,?_,h2,ht2⟩
    rw [runTbl,hst]
    dsimp only
    rw [hr]
    rfl

/-- The ring represents the table of RFC 7541 after every sequence of insertions and size updates. -/
theorem decoderTable_refines_rfc7541 [Inhabited κ] (window : Nat) (hwindow : window<2^32)
    (mem : Nat → TfwHPackEntry κ) (ops : List (TblOp κ)) (hops : ∀op∈ops,op.FromDecoder) :
    ∃tbl,runTbl window (initTbl window mem) ops=some ((specRun window (DynTable.empty window) ops).1,tbl) ∧
      Ring.window tbl.entries tbl.length tbl.curr tbl.n=(specRun window (DynTable.empty window) ops).2.entries ∧
      tbl.window=(specRun window (DynTable.empty window) ops).2.limit ∧
      tbl.size=((specRun window (DynTable.empty window) ops).2.entries.map fun e => entryOverhead+e.hdr.len).sum ∧
      tbl.size≤tbl.window ∧ ∀i,staticEntries < i → (tfwHpackFindIndex tbl i =
          (specRun window (DynTable.empty window) ops).2.entries[i-staticEntries-1]?) ∧
        (tfwHpackFindIndex tbl i=none ↔ tbl.n < i-staticEntries) := by
  obtain ⟨tbl,hru,hr,hv⟩ := runTbl_spec hwindow ops hops (represents_init hwindow mem)
    (fun e he => absurd he (not_mem_nil))
  refine ⟨tbl,hru,hr.live,hr.window_eq,hr.size_eq,represents_size_le hr,?_⟩
  intro i hi
  have hf := tfwHpackFindIndex_spec hr hv hi
  rw [DynTable.lookup,if_neg (by omega)] at hf
  refine ⟨hf,?_⟩
  rw [hf,getElem?_eq_none_iff,← hr.live,Ring.window_length]
  omega

/-- Two insertions into a table of 70 bytes, the second of which evicts the first. -/
theorem decoderTable_refines_rfc7541_two_entries :
    let it := fun v => TfwMsgParseIter.mk ⟨[ofAscii "x-a",ofAscii v]⟩ 3 1 .raw
    let grant : PoolGrant Unit := ⟨false,fun _ => mkEntry (it "") ()⟩
    let ops : List (TblOp Unit) := [.addIndex (it "1") () grant,.addIndex (it "2") () grant]
    (∀op∈ops,op.FromDecoder) ∧ (specRun 70 (DynTable.empty 70) ops).2.entries=[mkEntry (it "2") ()] ∧
      ∃tbl,runTbl 70 (initTbl 70 grant.fresh) ops=some ([.ok,.ok],tbl) ∧
        tfwHpackFindIndex tbl 62=some (mkEntry (it "2") ()) ∧ tfwHpackFindIndex tbl 63=none := by
  intro it grant ops
  have ho : ∀op∈ops,op.FromDecoder := by
    intro op hop
    simp only [ops,mem_cons,not_mem_nil,or_false] at hop
    rcases hop with rfl | rfl <;> exact ⟨rfl,by decide,rfl⟩
  have hs : (specRun 70 (DynTable.empty 70) ops).2.entries=[mkEntry (it "2") ()] := by
    simp [ops,specRun,specStep,DynTable.insert,evict,tableSize,entryCost,entryOverhead,mkEntry,TfwStr.len,it,ofAscii]
  obtain ⟨tbl,hr,_,_,_,_,hf⟩ := decoderTable_refines_rfc7541 70 (by decide) grant.fresh ops ho
  refine ⟨ho,hs,tbl,hr,?_,?_⟩
  · rw [(hf 62 (by decide)).1,hs]
    rfl
  · rw [(hf 63 (by decide)).1,hs]
    rfl
end
end VetWaf.Hpack
