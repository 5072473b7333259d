import VetWaf.Base

namespace VetWaf.Tdb
open Function List

/-- One bit of the CRC-32C of `crc32b` -/
def crcBit (c : BitVec 32) : BitVec 32 := if c.getLsbD 0 then c >>> 1 ^^^ 0x82F63B78#32 else c >>> 1

def crcb (crc : BitVec 32) (b : UInt8) : BitVec 32 := crcBit^[8] (crc ^^^ b.toBitVec.setWidth 32)

/-- `__hash_calc`: the words of eight bytes go to `crc0` and `crc1` in turn, and so does the rest. -/
def hashCalcFrom : Nat → BitVec 32×BitVec 32 → Bytes → BitVec 32×BitVec 32
  | _, crc, [] => crc
  | i, crc, b::data => hashCalcFrom (i+1) (if i/8%2=0 then (crcb crc.1 b,crc.2) else (crc.1,crcb crc.2 b)) data

def hashCalc (data : Bytes) : BitVec 64 :=
  let crc := hashCalcFrom 0 (0,0) data
  crc.2++crc.1

structure TdbMsgRec where
  key : Bytes
  data : Bytes

/-- `sizeof(TdbMsgRec)` -/
def msgRecSize : Nat := 8

def le32 (n : Nat) : Bytes := [UInt8.ofNat n,UInt8.ofNat (n/2^8),UInt8.ofNat (n/2^16),UInt8.ofNat (n/2^24)]

/-- `klen`, `dlen`, the key and the data, as they stand in the message -/
def TdbMsgRec.bytes (r : TdbMsgRec) : Bytes := le32 r.key.length++le32 r.data.length++r.key++r.data

/-- The loop of `tdb_if_insert` with `tdb_entry_add`, when `len` of the `total` bytes are stored. -/
def addChunks (grant : Nat → Nat) (mem : Bytes) (total : Nat) : Nat → Nat → List Bytes
  | 0, _ => []
  | fuel+1, len =>
    if len<total then
      (mem.drop (msgRecSize+len)).take (grant (total-len))::addChunks grant mem total fuel (len+grant (total-len))
    else []

/-- `tdb_if_insert` of one record, behind which `tail` is in memory; `tdb_htrie_insert` stores nothing for the key 0. -/
def tdbIfInsert (grant : Nat → Nat) (r : TdbMsgRec) (tail : Bytes) : Option (List Bytes) :=
  let mem := r.bytes++tail
  let total := r.bytes.length
  if hashCalc r.key=0 then none
  else some (mem.take (grant total)::addChunks grant mem total total (grant total))

/-- The loop of `tdb_if_select` -/
def selectLoop (maxsz : Nat) : List Bytes → Bytes → Bytes×Bool
  | [], reply => (reply,false)
  | chunk::chunks, reply =>
    if maxsz<chunk.length+reply.length then (reply++chunk.take (maxsz-reply.length),true)
    else if chunks=[] then (reply++chunk,false)
    else selectLoop maxsz chunks (reply++chunk)

/-- The record in the reply to `tdb_if_select`, and `TDB_NLF_RESP_TRUNC` -/
def tdbIfSelect (maxsz : Nat) (stored : Option (List Bytes)) : Option (Bytes×Bool) :=
  stored.map fun chunks => selectLoop maxsz chunks (chunks.headD [])

/-- The reply begins with the record, which is truncated only if it is longer than the limit. -/
def RoundTrip (grant : Nat → Nat) (maxsz : Nat) (r : TdbMsgRec) (tail : Bytes) : Prop :=
  ∃out,tdbIfSelect maxsz (tdbIfInsert grant r tail)=some out ∧
    out.1.take (min r.bytes.length maxsz)=r.bytes.take maxsz ∧ (out.2=true → maxsz<r.bytes.length)

lemma crcBit_injective : Injective crcBit := by
  -- the highest bit of the result is the lowest one before the shift
  have hm : ∀c,(crcBit c).getLsbD 31=c.getLsbD 0 := by
    intro c
    unfold crcBit
    split_ifs with h
    · simp [h]
    · simpa using h
  intro c c' he
  have h0 : c.getLsbD 0=c'.getLsbD 0 := by rw [← hm,← hm,he]
  have hs : c >>> 1=c' >>> 1 := by
    unfold crcBit at he
    rw [h0] at he
    split_ifs at he
    · exact (BitVec.xor_left_inj _).1 he
    · exact he
  refine BitVec.eq_of_getLsbD_eq fun i _ => ?_
  cases i with
  | zero => exact h0
  | succ i =>
    have hi := congrArg (BitVec.getLsbD · i) hs
    simpa only [BitVec.getLsbD_ushiftRight,Nat.add_comm 1 i] using hi

lemma crcb_inj {crc crc' : BitVec 32} {b b' : UInt8} (h : crcb crc b=crcb crc' b') :
    (b=b' → crc=crc') ∧ (crc=crc' → b=b') := by
  have hx := crcBit_injective.iterate 8 h
  constructor
  · rintro rfl
    exact (BitVec.xor_left_inj _).1 hx
  · rintro rfl
    have hb := congrArg BitVec.toNat ((BitVec.xor_right_inj _).1 hx)
    simp only [BitVec.toNat_setWidth,UInt8.toNat_toBitVec] at hb
    exact UInt8.toNat_inj.1 (by have := b.toNat_lt; have := b'.toNat_lt; omega)

lemma hashCalcFrom_inj {i : Nat} {crc crc' : BitVec 32×BitVec 32} {data : Bytes}
    (h : hashCalcFrom i crc data=hashCalcFrom i crc' data) : crc=crc' := by
  induction data generalizing i crc crc' with
  | nil => exact h
  | cons b data ih =>
    rw [hashCalcFrom,hashCalcFrom] at h
    have hn := ih h
    split_ifs at hn
    all_goals
      obtain ⟨h1,h2⟩ := Prod.mk.inj hn
    · exact Prod.ext ((crcb_inj h1).1 rfl) h2
    · exact Prod.ext h1 ((crcb_inj h2).1 rfl)

/-- Keys that differ in one byte have different hashes. -/
lemma hashCalcFrom_set {i j : Nat} {crc : BitVec 32×BitVec 32} {data : Bytes} {b b' : UInt8} (hj : j<data.length)
    (h : hashCalcFrom i crc (data.set j b)=hashCalcFrom i crc (data.set j b')) : b=b' := by
  induction data generalizing i j crc with
  | nil => simp at hj
  | cons c data ih =>
    cases j with
    | zero =>
      rw [set_cons_zero,set_cons_zero,hashCalcFrom,hashCalcFrom] at h
      have hn := hashCalcFrom_inj h
      split_ifs at hn
      all_goals
        obtain ⟨h1,h2⟩ := Prod.mk.inj hn
      · exact (crcb_inj h1).2 rfl
      · exact (crcb_inj h2).2 rfl
    | succ j =>
      rw [set_cons_succ,set_cons_succ,hashCalcFrom,hashCalcFrom] at h
      exact ih (by simpa using hj) h

lemma exists_key {klen j : Nat} (hj : j<klen) (b0 : UInt8) :
    ∃key : Bytes,key.length=klen ∧ hashCalc key≠0 ∧ key[j]?≠some b0 := by
  have hz : ∀b b',hashCalc ((replicate klen 0).set j b)=0 → hashCalc ((replicate klen 0).set j b')=0 → b=b' := by
    intro b b' h h'
    have he := congrArg (fun x : BitVec 64 => (x.extractLsb' 32 32,x.extractLsb' 0 32)) (h.trans h'.symm)
    simp only [hashCalc,BitVec.extractLsb'_append_eq_left,BitVec.extractLsb'_append_eq_right,Prod.mk.injEq] at he
    exact hashCalcFrom_set (by simpa using hj) (Prod.ext he.2 he.1)
  have hex : ∃b,b≠b0 ∧ hashCalc ((replicate klen 0).set j b)≠0 := by
    by_contra hn
    simp only [not_exists,not_and,not_not] at hn
    -- of three bytes one is `b0` and at most one has the hash 0
    have h1 := hn 1
    have h2 := hn 2
    have h3 := hn 3
    by_cases e1 : (1 : UInt8)=b0
    · exact absurd (hz _ _ (h2 (by rw [← e1]; decide)) (h3 (by rw [← e1]; decide))) (by decide)
    · by_cases e2 : (2 : UInt8)=b0
      · exact absurd (hz _ _ (h1 e1) (h3 (by rw [← e2]; decide))) (by decide)
      · exact absurd (hz _ _ (h1 e1) (h2 e2)) (by decide)
  obtain ⟨b,hb,hh⟩ := hex
  refine ⟨_,by simp,hh,?_⟩
  simpa [hj] using hb

lemma selectLoop_prefix (maxsz : Nat) (chunks : List Bytes) (reply : Bytes) :
    ∃rest,(selectLoop maxsz chunks reply).1=reply++rest := by
  fun_induction selectLoop maxsz chunks reply with
  | case1 reply => exact ⟨[],(append_nil _).symm⟩
  | case2 chunk chunks reply => exact ⟨_,rfl⟩
  | case3 chunk reply => exact ⟨chunk,rfl⟩
  | case4 chunk chunks reply _ _ ih =>
    obtain ⟨rest,hr⟩ := ih
    exact ⟨chunk++rest,by rw [hr,append_assoc]⟩

variable {grant : Nat → Nat} {maxsz : Nat} {r : TdbMsgRec} {tail : Bytes}
lemma length_bytes (r : TdbMsgRec) : r.bytes.length=msgRecSize+r.key.length+r.data.length := by
  simp only [TdbMsgRec.bytes,length_append]
  rfl

lemma roundTrip_of_one_chunk (hk : hashCalc r.key≠0) (ho : grant r.bytes.length=r.bytes.length)
    (hm : 2*r.bytes.length ≤ maxsz) : RoundTrip grant maxsz r tail := by
  have hc : tdbIfInsert grant r tail=some [r.bytes] := by
    simp only [tdbIfInsert,if_neg hk,ho,take_left]
    cases h : r.bytes with
    | nil => rfl
    | cons b bs => simp [addChunks]
  have hou : tdbIfSelect maxsz (some [r.bytes])=some (r.bytes++r.bytes,false) := by
    rw [tdbIfSelect,Option.map_some,headD_cons,selectLoop,if_neg (by omega),if_pos rfl]
  refine ⟨_,by rw [hc,hou],?_,Bool.false_ne_true.elim⟩
  rw [min_eq_left (by omega),take_left,take_of_length_le (by omega)]

/-- The first chunk is in the reply twice. -/
lemma getElem_of_roundTrip (h : RoundTrip grant maxsz r tail) (hp : 0<grant r.bytes.length)
    (hmo : grant r.bytes.length<r.bytes.length) (hm : 2*grant r.bytes.length ≤ maxsz) :
    r.bytes[grant r.bytes.length]?=r.bytes[0]? := by
  obtain ⟨out,hsel,hs,-⟩ := h
  obtain ⟨k,hk⟩ : ∃k,k=grant r.bytes.length := ⟨_,rfl⟩
  rw [← hk] at hp hmo hm ⊢
  have hf : ((r.bytes++tail).take k)=r.bytes.take k := take_append_of_le_length (by omega)
  have hl : (r.bytes.take k).length=k := by rw [length_take,min_eq_left (by omega)]
  obtain ⟨c,cs,hc⟩ : ∃c cs,tdbIfInsert grant r tail=some (r.bytes.take k::c::cs) := by
    obtain ⟨fuel,hfu⟩ : ∃fuel,r.bytes.length=fuel+1 := ⟨r.bytes.length - 1,by omega⟩
    unfold tdbIfInsert at hsel ⊢
    split_ifs at hsel ⊢
    · cases hsel
    · simp only
      rw [← hk,hf,hfu,addChunks,if_pos (by omega)]
      exact ⟨_,_,rfl⟩
  have ho : tdbIfSelect maxsz (some (r.bytes.take k::c::cs)) =
      some (selectLoop maxsz (c::cs) (r.bytes.take k++r.bytes.take k)) := by
    rw [tdbIfSelect,Option.map_some,headD_cons,selectLoop,if_neg (by omega),if_neg (cons_ne_nil _ _)]
  obtain ⟨rest,hr⟩ := selectLoop_prefix maxsz (c::cs) (r.bytes.take k++r.bytes.take k)
  rw [hc,ho,Option.some.injEq] at hsel
  rw [← hsel,hr] at hs
  have hg := congrArg (·[k]?) hs
  simp only [getElem?_take,show k < min r.bytes.length maxsz by omega,show k < maxsz by omega,if_true] at hg
  rw [← hg,append_assoc,getElem?_append_right (le_of_eq hl),hl,Nat.sub_self,
    getElem?_append_left (by rw [hl]; exact hp),getElem?_take,if_pos hp]

lemma getElem_bytes (r : TdbMsgRec) (i : Nat) :
    r.bytes[0]?=some (UInt8.ofNat r.key.length) ∧ r.bytes[msgRecSize+i]?=(r.key++r.data)[i]? := by
  refine ⟨rfl,?_⟩
  rw [TdbMsgRec.bytes,append_assoc]
  exact (getElem?_append_right (by simp [le32,msgRecSize])).trans (by simp [le32,msgRecSize])

/-- A record whose key has the hash 0 does not come back; the others of a length do exactly when one chunk has room for
them. -/
theorem roundTrip_iff (grant : Nat → Nat) (maxsz klen dlen : Nat) (tail : Bytes)
    (hle : grant (msgRecSize+klen+dlen) ≤ msgRecSize+klen+dlen) (hmin : msgRecSize≤grant (msgRecSize+klen+dlen))
    (hmax : 2*grant (msgRecSize+klen+dlen) ≤ maxsz) :
    (∀r,RoundTrip grant maxsz r tail → hashCalc r.key≠0) ∧
    (0<klen → ((∀r : TdbMsgRec,r.key.length=klen → r.data.length=dlen → hashCalc r.key≠0 →
      RoundTrip grant maxsz r tail) ↔ grant (msgRecSize+klen+dlen)=msgRecSize+klen+dlen)) := by
  have hl : ∀r : TdbMsgRec,r.key.length=klen → r.data.length=dlen → r.bytes.length=msgRecSize+klen+dlen := by
    intro r hk hd
    rw [length_bytes,hk,hd]
  refine ⟨?_,fun hp => ⟨?_,?_⟩⟩
  · rintro r ⟨out,hsel,-⟩ h0
    rw [tdbIfInsert,if_pos h0] at hsel
    cases hsel
  · intro ha
    by_contra hne
    obtain ⟨i,hi⟩ := Nat.exists_eq_add_of_le hmin
    -- a record with another byte than its first one where the first chunk ends
    obtain ⟨r,hk,hd,hh,hb⟩ : ∃r : TdbMsgRec,r.key.length=klen ∧ r.data.length=dlen ∧ hashCalc r.key≠0 ∧
        (r.key++r.data)[i]?≠some (UInt8.ofNat klen) := by
      by_cases hik : i<klen
      · obtain ⟨key,hkl,hh,hb⟩ := exists_key hik (UInt8.ofNat klen)
        exact ⟨⟨key,replicate dlen 0⟩,hkl,length_replicate ..,hh,by rwa [getElem?_append_left (hkl ▸ hik)]⟩
      · obtain ⟨key,hkl,hh,-⟩ := exists_key hp 0
        refine ⟨⟨key,replicate dlen (UInt8.ofNat klen+1)⟩,hkl,length_replicate ..,hh,?_⟩
        simp only
        rw [getElem?_append_right (by omega),getElem?_replicate,if_pos (by omega)]
        simp
    have hg := getElem_of_roundTrip (ha r hk hd hh) (by rw [hl r hk hd,hi]; simp [msgRecSize])
      (by rw [hl r hk hd]; omega) (by rw [hl r hk hd]; exact hmax)
    rw [hl r hk hd,hi,(getElem_bytes r i).2,(getElem_bytes r i).1,hk] at hg
    exact hb hg
  · intro ho r hk hd hh
    refine roundTrip_of_one_chunk hh ?_ ?_
    · rw [hl r hk hd,ho]
    · rw [hl r hk hd,← ho]
      exact hmax

theorem roundTrip_iff_short : RoundTrip (min · 4064) 8144 ⟨[65,66],[67]⟩ [] :=
  ((roundTrip_iff (min · 4064) 8144 2 1 [] (by decide) (by decide) (by decide)).2 (by decide)).2 (by decide)
    ⟨[65,66],[67]⟩ rfl rfl (by decide +kernel)

/-- A record of 5008 bytes, of which a block has room for 4064 -/
theorem roundTrip_two_chunks : ¬RoundTrip (min · 4064) 8144 ⟨[65,65],replicate 4998 65⟩ (replicate 8 0) := by
  intro h
  have hl : (⟨[65,65],replicate 4998 65⟩ : TdbMsgRec).bytes.length=5008 := by
    rw [length_bytes,length_replicate]
    rfl
  have hg := getElem_of_roundTrip h (by rw [hl]; decide) (by rw [hl]; decide) (by rw [hl]; decide)
  rw [hl,show min 5008 4064=msgRecSize+4056 from rfl,(getElem_bytes _ _).2,(getElem_bytes _ 0).1,
    getElem?_append_right (by simp),getElem?_replicate] at hg
  exact absurd hg (by decide)
end VetWaf.Tdb
