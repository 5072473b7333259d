import VetWaf.Hpack.StaticTable
import VetWaf.Http.Htype

namespace VetWaf.Http.HdrLookup
open List Hpack Nat

def colon : UInt8 := 0x3a

/-- `__cstricmpspn`; `fold` is `TFW_LC` or, where case counts, the identity. -/
def cstricmpspn (fold : UInt8 → UInt8) (stop : UInt8) : Nat → Bytes → Bytes → Option Ordering
  | n+1, a::s1, b::s2 =>
    if fold a≠fold b then some (compare (fold a).toNat (fold b).toNat)
    else if fold a=stop then none
    else cstricmpspn fold stop n s1 s2
  | _, _, _ => some .eq

/-- The end of `__tfw_strcmpspn`. -/
def spnOut (stop : UInt8) (len1 len2 : Nat) (c1 c2 : List Bytes) : Ordering :=
  if len1=len2 then .eq
  else if c1.head?.bind head?=some stop ∨ c2.head?.bind head?=some stop then .eq
  else compare len1 len2

/-- The loop of `__tfw_strcmpspn`: every turn ends a chunk. -/
def spnLoop (fold : UInt8 → UInt8) (stop : UInt8) (len1 len2 : Nat) : Nat → Nat → List Bytes → List Bytes → Ordering
  | fuel+1, n+1, c1::s1, c2::s2 =>
    let cn := min c1.length c2.length
    match cstricmpspn fold stop cn c1 c2 with
    | none => .eq
    | some .eq => spnLoop fold stop len1 len2 fuel (n+1-cn) (if cn=c1.length then s1 else c1.drop cn::s1)
        (if cn=c2.length then s2 else c2.drop cn::s2)
    | some r => r
  | _, _, s1, s2 => spnOut stop len1 len2 s1 s2

/-- `__tfw_strcmpspn` for strings shorter than `2^31`: no `int` wraps. -/
def strcmpspn (s1 s2 : TfwStr) (stop : UInt8) (cs : Bool) : Ordering :=
  if s1.len=0 ∨ s2.len=0 then spnOut stop s1.len s2.len [] []
  else spnLoop (cond cs id lc) stop s1.len s2.len (s1.nchunks+s2.nchunks) (min s1.len s2.len) s1.chunks s2.chunks

def stricmpspn (s1 s2 : TfwStr) (stop : UInt8) : Ordering := strcmpspn s1 s2 stop false

/-- The test of a table entry. -/
def hdrCmp (h sh : TfwStr) : Ordering :=
  match compare (tolower (h.data.headD 0)).toNat (sh.data.headD 0).toNat with
  | .eq => stricmpspn h sh colon
  | r => r

/-- The loop of `__tfw_http_msg_find_hdr` and `tfw_hpack_find_hdr_idx`. -/
def search (cmp : Nat → Ordering) : Nat → Nat → Nat → Option Nat
  | 0, _, _ => none
  | fuel+1, start, «end» =>
    if start < «end» then
      let mid := start+(«end»-start)/2
      match cmp mid with
      | .lt => search cmp fuel start mid
      | .gt => search cmp fuel (mid+1) «end»
      | .eq => some mid
    else none

def findHdr (hdr : TfwStr) (array : List TfwStr) (start : Nat) : Option Nat :=
  search (fun i => hdrCmp hdr (array.getD i ⟨[]⟩)) array.length start array.length

inductive HdrId where
  | host | contentLength | contentLocation | contentType | expect | userAgent | server | cookie | referer | ifNoneMatch
  | etag | xTempestaCache | age | connection | setCookie | xForwardedFor | forwarded | keepAlive | transferEncoding
  | contentEncoding | upgrade | raw
  deriving DecidableEq

def respHdrs : List (Bytes×HdrId) := [("age:",.age),("connection:",.connection),("content-encoding:",.contentEncoding),
    ("content-length:",.contentLength),("content-location:",.contentLocation),("content-type:",.contentType),
    ("etag:",.etag),("forwarded:",.forwarded),("host:",.host),("keep-alive:",.keepAlive),("referer:",.referer),
    ("server:",.server),("set-cookie:",.setCookie),("transfer-encoding:",.transferEncoding),
    ("x-forwarded-for:",.xForwardedFor),("x-tempesta-cache:",.xTempestaCache),("upgrade:",.upgrade)].map
    fun e => (ofAscii e.1,e.2)

def reqHdrs : List (Bytes×HdrId) :=
  [("connection:",.connection),("content-encoding:",.contentEncoding),("content-length:",.contentLength),
    ("content-type:",.contentType),("cookie:",.cookie),("expect:",.expect),("forwarded:",.forwarded),("host:",.host),
    ("if-none-match:",.ifNoneMatch),("keep-alive:",.keepAlive),("referer:",.referer),
    ("transfer-encoding:",.transferEncoding),("user-agent:",.userAgent),("x-forwarded-for:",.xForwardedFor),
    ("x-tempesta-cache:",.xTempestaCache),("upgrade:",.upgrade)].map fun e => (ofAscii e.1,e.2)

def specHid (array : List (Bytes×HdrId)) (hdr : TfwStr) : HdrId :=
  ((findHdr hdr (array.map fun e => ⟨[e.1]⟩) 0).bind fun i => array[i]?.map Prod.snd).getD .raw

def respSpecHid (hdr : TfwStr) : HdrId := specHid respHdrs hdr
def reqSpecHid (hdr : TfwStr) : HdrId := specHid reqHdrs hdr
def staticHdrs : List TfwStr := (staticTable (κ := Unit)).map TfwHPackEntry.hdr
def findHdrIdx (hdr : TfwStr) : Nat := ((findHdr hdr staticHdrs 14).map (·+1)).getD 0

/-- `__tfw_strcmpspn` over flat strings, where `see1` and `see2` tell whether the stop character is seen behind the
end of the other string. -/
def spnSee (fold : UInt8 → UInt8) (stop : UInt8) (see1 see2 : Bool) : Bytes → Bytes → Ordering
  | [], [] => .eq
  | a::_, [] => if a=stop ∧ see1 then .eq else .gt
  | [], b::_ => if b=stop ∧ see2 then .eq else .lt
  | a::s, b::t => if fold a≠fold b then compare (fold a).toNat (fold b).toNat else if fold a=stop then .eq
    else spnSee fold stop see1 see2 s t

/-- The chunk that begins at offset `n` is empty. -/
def hidden : List Bytes → Nat → Bool
  | [], _ => false
  | c::cs, n => c=[] ∧ n=0 || c.length≤n && hidden cs (n-c.length)

variable {fold : UInt8 → UInt8} {stop : UInt8} {see1 see2 : Bool} {s t : Bytes}
lemma cstricmpspn_spec {n : Nat} {c1 c2 : Bytes} (h1 : n≤c1.length) (h2 : n≤c2.length) :
    spnSee fold stop see1 see2 (c1++s) (c2++t)=match cstricmpspn fold stop n c1 c2 with
      | none => .eq
      | some .eq => spnSee fold stop see1 see2 (c1.drop n++s) (c2.drop n++t)
      | some r => r := by
  induction n generalizing c1 c2 with
  | zero => simp [cstricmpspn]
  | succ n ih =>
    obtain ⟨a,c1,rfl⟩ := exists_cons_of_length_pos (lt_of_lt_of_le n.succ_pos h1)
    obtain ⟨b,c2,rfl⟩ := exists_cons_of_length_pos (lt_of_lt_of_le n.succ_pos h2)
    rw [cons_append,cons_append,spnSee,cstricmpspn]
    split_ifs with hne hst
    · have : compare (fold a).toNat (fold b).toNat≠.eq := fun h => hne (UInt8.toNat_inj.1 (compare_eq_iff_eq.1 h))
      cases hc : compare (fold a).toNat (fold b).toNat <;> simp_all
    · rfl
    · rw [drop_succ_cons,drop_succ_cons]
      exact ih (le_of_succ_le_succ h1) (le_of_succ_le_succ h2)

lemma head?_flatten (cs : List Bytes) :
    cs.head?.bind head?=some stop ↔ cs.flatten.head?=some stop ∧ hidden cs 0=false := by
  match cs with
  | [] => simp
  | []::cs => simp [hidden]
  | (x::c)::cs => simp [hidden]

lemma spnOut_spec {d : Nat} {s1 s2 : List Bytes} (he : s1.flatten=[] ∨ s2.flatten=[]) :
    spnOut stop (d+s1.flatten.length) (d+s2.flatten.length) s1 s2 =
      spnSee fold stop (!hidden s1 s2.flatten.length) (!hidden s2 s1.flatten.length) s1.flatten s2.flatten := by
  simp only [spnOut,head?_flatten]
  rcases he with h | h <;> rw [h]
  · cases s2.flatten with
    | nil => simp [spnSee]
    | cons b t => simp [spnSee,show compare d (d+(t.length+1))=.lt from Nat.compare_eq_lt.2 (by omega)]
  · cases s1.flatten with
    | nil => simp [spnSee]
    | cons a t => simp [spnSee,show compare (d+(t.length+1)) d=.gt from Nat.compare_eq_gt.2 (by omega)]

lemma hidden_rest (cs : List Bytes) {c : Bytes} {k : Nat} (n : Nat) (hk : k≤c.length) (hkn : k≤n) (hn : 0<n) :
    hidden (if k=c.length then cs else c.drop k::cs) (n-k)=hidden (c::cs) n ∧
      (if k=c.length then cs else c.drop k::cs).flatten=c.drop k++cs.flatten := by
  split_ifs with h
  · simp [hidden,h,hn.ne',h ▸ hkn]
  · have hd : c.drop k≠[] := by simpa using by omega
    simp [hidden,hd,hn.ne',show c.length-k≤n-k ↔ c.length≤n by omega,show n-k-(c.length-k)=n-c.length by omega]

lemma spnLoop_spec {fuel d : Nat} {s1 s2 : List Bytes} (hf : s1.length+s2.length≤fuel) :
    spnLoop fold stop (d+s1.flatten.length) (d+s2.flatten.length) fuel (min s1.flatten.length s2.flatten.length) s1 s2 =
      spnSee fold stop (!hidden s1 s2.flatten.length) (!hidden s2 s1.flatten.length) s1.flatten s2.flatten := by
  induction fuel generalizing d s1 s2 with
  | zero =>
    obtain rfl : s1=[] := length_eq_zero_iff.1 (by omega)
    exact spnOut_spec (.inl rfl)
  | succ fuel ih =>
    cases hn : min s1.flatten.length s2.flatten.length with
    | zero =>
      refine spnOut_spec ?_
      rw [← length_eq_zero_iff,← length_eq_zero_iff]
      omega
    | succ n =>
      cases s1 with
      | nil => simp at hn
      | cons c1 s1 =>
        cases s2 with
        | nil => simp at hn
        | cons c2 s2 =>
          have hl : min c1.length c2.length≤c1.length := min_le_left ..
          have hr : min c1.length c2.length≤c2.length := min_le_right ..
          rw [flatten_cons,flatten_cons,length_append,length_append] at hn
          rw [spnLoop,flatten_cons,flatten_cons,cstricmpspn_spec hl hr]
          cases cstricmpspn fold stop (min c1.length c2.length) c1 c2 with
          | none => rfl
          | some r =>
            cases r with
            | eq =>
              obtain ⟨h1,hf1⟩ := hidden_rest s1 (c2.length+s2.flatten.length) hl (by omega) (by omega)
              obtain ⟨h2,hf2⟩ := hidden_rest s2 (c1.length+s1.flatten.length) hr (by omega) (by omega)
              have hre := @ih (d+min c1.length c2.length)
                (if min c1.length c2.length=c1.length then s1 else c1.drop (min c1.length c2.length)::s1)
                (if min c1.length c2.length=c2.length then s2 else c2.drop (min c1.length c2.length)::s2)
                (by split_ifs <;> simp at hf ⊢ <;> omega)
              rw [hf1,hf2,length_append,length_append,length_drop,length_drop] at hre
              generalize min c1.length c2.length=cn at hl hr h1 h2 hre ⊢
              rw [show c1.length-cn+s1.flatten.length=c1.length+s1.flatten.length-cn by omega,
                show c2.length-cn+s2.flatten.length=c2.length+s2.flatten.length-cn by omega,h1,h2] at hre
              rw [length_append,length_append]
              simp only
              rw [← hre,show d+(c1.length+s1.flatten.length)=d+cn+(c1.length+s1.flatten.length-cn) by omega,
                show d+(c2.length+s2.flatten.length)=d+cn+(c2.length+s2.flatten.length-cn) by omega,
                show n+1-cn=min (c1.length+s1.flatten.length-cn) (c2.length+s2.flatten.length-cn) by omega]
            | lt => rfl
            | gt => rfl

lemma strcmpspn_see {s1 s2 : TfwStr} {cs : Bool} (hne1 : s1.data≠[]) (hne2 : s2.data≠[]) :
    strcmpspn s1 s2 stop cs=spnSee (cond cs id lc) stop (!hidden s1.chunks s2.data.length)
      (!hidden s2.chunks s1.data.length) s1.data s2.data := by
  have hl (s : TfwStr) : s.len=s.chunks.flatten.length := length_flatten.symm
  have hp (s : TfwStr) (h : s.data≠[]) : s.len≠0 := fun h0 => h (length_eq_zero_iff.1 ((hl s).symm.trans h0))
  have hlo := @spnLoop_spec (cond cs id lc) stop _ 0 s1.chunks s2.chunks le_rfl
  rw [zero_add,zero_add,← hl,← hl] at hlo
  rw [strcmpspn,if_neg (not_or.2 ⟨hp s1 hne1,hp s2 hne2⟩)]
  rw [hl,hl] at *
  exact hlo

/-- The part before `stop` and `stop` itself, as numbers -/
def key (fold : UInt8 → UInt8) (stop : UInt8) (s : Bytes) : List Nat :=
  (s.takeWhile (·≠stop)).map (UInt8.toNat ∘ fold)++[stop.toNat]

/-- Where `s` is all of its part and `t` goes on behind it, it is with a greater character, or with a stop character
that is seen. -/
def EndSeen (fold : UInt8 → UInt8) (stop : UInt8) (see : Bool) (s t : Bytes) : Prop :=
  stop∉s → s.map fold <+: t.map fold → ∀c∈t[s.length]?,if c=stop then see=true else stop.toNat<(fold c).toNat

lemma compare_cons {a b : Nat} {k l : List Nat} {o : Ordering} {p : Prop}
    (h : a=b → (((o=.lt ↔ k<l) ∧ (o=.gt ↔ l<k)) ↔ p)) (hne : a≠b → o=compare a b ∧ p) :
    ((o=.lt ↔ a::k<b::l) ∧ (o=.gt ↔ b::l<a::k)) ↔ p := by
  rw [cons_lt_cons_iff,cons_lt_cons_iff]
  by_cases ha : a=b
  · simp [ha,h ha]
  · obtain ⟨rfl,hp⟩ := hne ha
    rw [Nat.compare_eq_lt,Nat.compare_eq_gt]
    simp [ha,Ne.symm ha,hp]

lemma spnSee_key (hf : ∀c,fold c=stop ↔ c=stop) :
    ((spnSee fold stop see1 see2 s t=.lt ↔ key fold stop s<key fold stop t) ∧
      (spnSee fold stop see1 see2 s t=.gt ↔ key fold stop t<key fold stop s)) ↔
    EndSeen fold stop see2 s t ∧ EndSeen fold stop see1 t s := by
  have hfs := (hf stop).2 rfl
  have hc (a : UInt8) (s : Bytes) : key fold stop (a::s)=(fold a).toNat::if a=stop then [] else key fold stop s := by
    by_cases ha : a=stop
    · simp [key,ha,hfs]
    · simp [key,ha]
  have hn : key fold stop []=[stop.toNat] := rfl
  have hne {a : UInt8} (ha : a≠stop) : stop.toNat≠(fold a).toNat := fun h => ha ((hf a).1 (UInt8.toNat_inj.1 h.symm))
  induction s generalizing t with
  | nil =>
    cases t with
    | nil => simp [spnSee,EndSeen]
    | cons b t =>
      rw [hc,hn,spnSee]
      by_cases hb : b=stop
      · cases see2 <;> simp [EndSeen,hb,hfs]
      · simp [EndSeen,hb,hne hb,(hne hb).symm,cons_lt_cons_iff]
        omega
  | cons a s ih =>
    cases t with
    | nil =>
      rw [hc,hn,spnSee]
      by_cases ha : a=stop
      · cases see1 <;> simp [EndSeen,ha,hfs]
      · simp [EndSeen,ha,hne ha,(hne ha).symm,cons_lt_cons_iff]
        omega
    | cons b t =>
      rw [hc,hc,spnSee]
      refine compare_cons (fun hab => ?_) fun hab => ?_
      · have hab := UInt8.toNat_inj.1 hab
        have hi : a=stop ↔ b=stop := by rw [← hf a,hab,hf]
        rw [if_neg (not_not.2 hab)]
        by_cases ha : a=stop
        · simp [EndSeen,ha,hi.1 ha,hfs]
        · rw [if_neg fun h => ha ((hf a).1 h),if_neg ha,if_neg (mt hi.2 ha)]
          refine (ih (t := t)).trans ?_
          simp [EndSeen,hab,Ne.symm ha,Ne.symm (mt hi.2 ha),cons_prefix_cons]
      · have hab : fold a≠fold b := fun h => hab (congrArg UInt8.toNat h)
        simp [hab,EndSeen,cons_prefix_cons,Ne.symm hab]

/-- A capital letter is never found, and a small one is found in place of the capital too. -/
lemma letter_misses : ∀c : UInt8,0x41≤c ∧ c≤0x5a →
    ¬(strcmpspn ⟨[[c,0x31]]⟩ ⟨[[c,0x32]]⟩ c false=.eq ↔
      ((⟨[[c,0x31]]⟩ : TfwStr).data.takeWhile (·≠c)).map lc=((⟨[[c,0x32]]⟩ : TfwStr).data.takeWhile (·≠c)).map lc) ∧
    ¬(strcmpspn ⟨[[c,0x31,lc c]]⟩ ⟨[[c,0x32,lc c]]⟩ (lc c) false=.eq ↔
      ((⟨[[c,0x31,lc c]]⟩ : TfwStr).data.takeWhile (·≠lc c)).map lc =
        ((⟨[[c,0x32,lc c]]⟩ : TfwStr).data.takeWhile (·≠lc c)).map lc) := by
  apply forall_byte
  decide +kernel

lemma lc_eq_colon (c : UInt8) : lc c=colon ↔ c=colon := by
  apply forall_byte (P := fun c => lc c=colon ↔ c=colon)
  decide +kernel

/-- `__tfw_strcmpspn` over flat strings, without empty chunks -/
def spn (fold : UInt8 → UInt8) (stop : UInt8) : Bytes → Bytes → Ordering := spnSee fold stop true true

lemma spn_nil (s : Bytes) : spn fold stop [] s=(match s with | [] => .eq | b::_ => if b=stop then .eq else .lt) ∧
    spn fold stop s []=match s with | [] => .eq | a::_ => if a=stop then .eq else .gt := by
  cases s <;> simp [spn,spnSee]

lemma spn_cons (a b : UInt8) (s t : Bytes) : spn fold stop (a::s) (b::t)=if fold a≠fold b then
    compare (fold a).toNat (fold b).toNat else if fold a=stop then .eq else spn fold stop s t := rfl

lemma hidden_of_not_mem {cs : List Bytes} (h : []∉cs) (n : Nat) : hidden cs n=false := by
  induction cs generalizing n with
  | nil => rfl
  | cons c cs ih =>
    rw [mem_cons,not_or] at h
    simp [hidden,Ne.symm h.1,ih h.2]

lemma strcmpspn_spec {s1 s2 : TfwStr} {cs : Bool} (h1 : []∉s1.chunks) (h2 : []∉s2.chunks) (hne1 : s1.data≠[])
    (hne2 : s2.data≠[]) : strcmpspn s1 s2 stop cs=spn (cond cs id lc) stop s1.data s2.data := by
  rw [strcmpspn_see hne1 hne2,hidden_of_not_mem h1,hidden_of_not_mem h2]
  rfl

/-- The test of an entry over flat strings. -/
def flatCmp (a e : Bytes) : Ordering :=
  match compare (tolower (a.headD 0)).toNat (e.headD 0).toNat with
  | .eq => spn lc colon a e
  | r => r

def flatFind (a : Bytes) (array : List Bytes) (start : Nat) : Option Nat :=
  search (fun i => flatCmp a (array.getD i [])) array.length start array.length

lemma lc_lc (c : UInt8) : lc (lc c)=lc c ∧ tolower (lc c)=tolower c := by
  apply forall_byte (P := fun c => lc (lc c)=lc c ∧ tolower (lc c)=tolower c)
  decide +kernel

lemma spn_map_lc (a e : Bytes) (hst : ∀c,lc c=stop ↔ c=stop) : spn lc stop (a.map lc) e=spn lc stop a e := by
  induction a generalizing e with
  | nil => rfl
  | cons x a ih => cases e <;> simp [spn_nil,spn_cons,lc_lc,hst,ih]

lemma spn_colon (a rest e : Bytes) : spn lc colon (a++colon::rest) e=spn lc colon (a++[colon]) e := by
  induction a generalizing e with
  | nil => cases e <;> simp [spn_nil,spn_cons,lc_eq_colon]
  | cons x a ih => cases e <;> simp [spn_nil,spn_cons,ih]

lemma flatCmp_lc (a e : Bytes) : flatCmp (a.map lc) e=flatCmp a e := by
  rw [flatCmp,flatCmp,spn_map_lc _ _ lc_eq_colon]
  cases a with
  | nil => rfl
  | cons x a => rw [map_cons,headD_cons,headD_cons,(lc_lc x).2]

lemma flatCmp_colon (a rest e : Bytes) : flatCmp (a++colon::rest) e=flatCmp (a++[colon]) e := by
  rw [flatCmp,flatCmp,spn_colon]
  cases a <;> rfl

variable {hdr : TfwStr} {start : Nat} {name : Bytes}
lemma findHdr_flat {array : List TfwStr} (hne : []∉hdr.chunks) (hd : hdr.data≠[])
    (ha : ∀sh∈array,[]∉sh.chunks ∧ sh.data≠[]) :
    findHdr hdr array start=flatFind hdr.data (array.map TfwStr.data) start := by
  have hc (fuel lo hi : Nat) (hh : hi≤array.length) : search (fun i => hdrCmp hdr (array.getD i ⟨[]⟩)) fuel lo hi =
        search (fun i => flatCmp hdr.data ((array.map TfwStr.data).getD i [])) fuel lo hi := by
    induction fuel generalizing lo hi with
    | zero => rfl
    | succ fuel ih =>
      rw [search,search]
      split_ifs with hlt
      · have hm : lo+(hi-lo)/2<array.length := by omega
        have hs := ha _ (getElem_mem hm)
        dsimp only
        rw [getD_eq_getElem _ _ hm,getD_eq_getElem _ _ (by rwa [length_map]),getElem_map,hdrCmp,stricmpspn,
          strcmpspn_spec hne hs.1 hd hs.2,ih _ _ (by omega),ih _ _ hh]
        rfl
      · rfl
  rw [findHdr,flatFind,length_map]
  exact hc _ _ _ le_rfl

lemma search_some {cmp : Nat → Ordering} {fuel lo hi k : Nat} (h : search cmp fuel lo hi=some k) :
    lo≤k ∧ k<hi ∧ cmp k=.eq := by
  induction fuel generalizing lo hi with
  | zero => cases h
  | succ fuel ih =>
    rw [search] at h
    split_ifs at h with hlt
    dsimp only at h
    split at h
    case h_1 =>
      obtain ⟨hl,hh,heq⟩ := ih h
      exact ⟨hl,by omega,heq⟩
    case h_2 =>
      obtain ⟨hl,hh,heq⟩ := ih h
      exact ⟨by omega,hh,heq⟩
    case h_3 heq =>
      cases h
      exact ⟨by omega,by omega,heq⟩

def folded (name : Bytes) (sep : Bool) : Bytes := name.map lc++if sep then [colon] else []

/-- `hdr` is a header with that name, cut in whatever chunks. -/
structure HasName (hdr : TfwStr) (name : Bytes) (sep : Bool) : Prop where
  chunks : []∉hdr.chunks
  data : if sep then ∃rest,hdr.data=name++colon::rest else hdr.data=name ∧ name≠[]
  plain : ∀c∈name.tail,c≠colon

lemma HasName.findHdr {sep : Bool} {array : List TfwStr}
    (h : HasName hdr name sep) (ha : ∀sh∈array,[]∉sh.chunks ∧ sh.data≠[]) :
    findHdr hdr array start=flatFind (folded name sep) (array.map TfwStr.data) start := by
  have hd := h.data
  cases sep with
  | false =>
    rw [findHdr_flat h.chunks (by rw [hd.1]; exact hd.2) ha,hd.1]
    simp [flatFind,folded,flatCmp_lc]
  | true =>
    obtain ⟨rest,hr⟩ := hd
    rw [findHdr_flat h.chunks (by simp [hr]) ha,hr]
    have hc : [colon].map lc=[colon] := by decide
    simp only [flatFind,folded,if_true,flatCmp_colon]
    rw [← hc,← map_append,hc]
    simp only [flatCmp_lc]

/-- Two strings without a colon, each with or without one behind it, are found equal only if they are. -/
lemma eq_of_spn {a b t u : Bytes} (ha : ∀c∈a,lc c=c ∧ c≠colon) (hb : ∀c∈b,lc c=c ∧ c≠colon)
    (ht : t=[] ∨ t=[colon]) (hu : u=[] ∨ u=[colon]) (h : spn lc colon (a++t) (b++u)=.eq) : a=b := by
  have hco : lc colon=colon := by decide
  have hcm {x y : UInt8} (hne : x≠y) : compare x.toNat y.toNat≠.eq :=
    fun h => hne (UInt8.toNat_inj.1 (compare_eq_iff_eq.1 h))
  induction a generalizing b with
  | nil =>
    cases b with
    | nil => rfl
    | cons y b =>
      obtain ⟨hy,hyc⟩ := hb y (.head _)
      rcases ht with rfl | rfl <;> simp [spn_nil,spn_cons,hy,hco,hyc,Ne.symm hyc,hcm] at h
  | cons x a ih =>
    obtain ⟨hx,hxc⟩ := ha x (.head _)
    cases b with
    | nil => rcases hu with rfl | rfl <;> simp [spn_nil,spn_cons,hx,hco,hxc,hcm] at h
    | cons y b =>
      obtain ⟨hy,-⟩ := hb y (.head _)
      rw [cons_append,cons_append,spn_cons,hx,hy,if_neg hxc] at h
      split_ifs at h with hxy
      · exact absurd h (hcm hxy)
      · rw [not_not.1 hxy,ih (fun c hc => ha c (mem_cons_of_mem _ hc)) (fun c hc => hb c (mem_cons_of_mem _ hc)) h]

/-- An entry of a table begins with no colon. -/
def Entry (u e : Bytes) : Prop :=
  e.headD 0≠colon ∧ e.take (e.length-u.length)++u=e ∧ ∀c∈e.take (e.length-u.length),lc c=c ∧ c≠colon

lemma HasName.eq_of_find {u : Bytes} {sep : Bool} {array : List Bytes} {k : Nat}
    (h : HasName hdr name sep) (ha : ∀e∈array.drop start,Entry u e) (hu : u=[] ∨ u=[colon])
    (hk : flatFind (folded name sep) array start=some k) : array[k]?=some (name.map lc++u) := by
  obtain ⟨hl,hlt,hcm⟩ := search_some hk
  rw [getElem?_eq_getElem hlt]
  rw [getD_eq_getElem _ _ hlt] at hcm
  obtain ⟨hh,he,hb⟩ := ha array[k] (mem_drop_iff_getElem.2 ⟨k-start,by omega,by congr 1; omega⟩)
  generalize array[k]=e at hcm hh he hb
  generalize e.take (e.length-u.length)=b at he hb
  rw [← he] at hcm hh
  have hf : (tolower ((folded name sep).headD 0)).toNat=((b++u).headD 0).toNat := by
    by_contra hne
    rw [flatCmp] at hcm
    split at hcm
    case h_1 heq => exact hne (compare_eq_iff_eq.1 heq)
    case h_2 heq => exact heq hcm
  rw [flatCmp,hf,compare_eq_iff_eq.2 rfl] at hcm
  have hn : ∀c∈name.map lc,lc c=c ∧ c≠colon := by
    intro c hc
    obtain ⟨x,hx,rfl⟩ := mem_map.1 hc
    refine ⟨(lc_lc x).1,fun hco => ?_⟩
    cases name with
    | nil => cases hx
    | cons y name =>
      obtain rfl | hx := mem_cons.1 hx
      · refine hh ?_
        rw [folded,map_cons,cons_append,headD_cons,hco] at hf
        exact (UInt8.toNat_inj.1 hf).symm
      · exact h.plain x hx ((lc_eq_colon x).1 hco)
  rw [← he,eq_of_spn hn hb (by cases sep <;> simp) hu hcm]

/-- The id of the entry of that name, or `TFW_HTTP_HDR_RAW`. -/
def tableId (array : List (Bytes×HdrId)) (f : Bytes) : HdrId := ((array.find? (·.1=f)).map Prod.snd).getD .raw

instance (u e : Bytes) : Decidable (Entry u e) := inferInstanceAs (Decidable (_ ∧ _ ∧ _))

lemma HasName.specHid (array : List (Bytes×HdrId)) (h : HasName hdr name true)
    (ha : ∀e∈array.map Prod.fst,Entry [colon] e) {P : Bytes → Prop}
    (hf : ∀f∈array.map Prod.fst,(((flatFind f (array.map Prod.fst) 0).bind fun i => array[i]?.map Prod.snd).getD
      .raw=tableId array f ↔ P f)) (ho : ∀f∉array.map Prod.fst,P f) :
    specHid array hdr=tableId array (folded name true) ↔ P (folded name true) := by
  have hfl : (array.map fun e => (⟨[e.1]⟩ : TfwStr)).map TfwStr.data=array.map Prod.fst := by
    simp [TfwStr.data,Function.comp_def]
  rw [HdrLookup.specHid,h.findHdr (by
    intro sh hs
    obtain ⟨e,he,rfl⟩ := mem_map.1 hs
    have hne : e.1≠[] := fun h0 => by
      have hb := (ha _ (mem_map_of_mem he)).2.1
      simp [h0] at hb
    simp [TfwStr.data,hne,Ne.symm hne]),hfl]
  by_cases hm : folded name true∈array.map Prod.fst
  · exact hf _ hm
  · have hn : flatFind (folded name true) (array.map Prod.fst) 0=none := by
      refine Option.eq_none_iff_forall_ne_some.2 fun k hk => hm ?_
      exact mem_of_getElem? (h.eq_of_find (u := [colon]) (by rwa [drop_zero]) (.inr rfl) hk)
    have hfi : array.find? (·.1=folded name true)=none :=
      find?_eq_none.2 fun e he => by simpa using fun h0 : e.1=folded name true => hm (h0 ▸ mem_map_of_mem he)
    rw [hn,tableId,hfi]
    exact iff_of_true rfl (ho _ hm)

/-- The entries of a table, and which of them is not found. -/
def TableFacts (array : List (Bytes×HdrId)) : Prop := (∀e∈array.map Prod.fst,Entry [colon] e) ∧
    ∀f∈array.map Prod.fst,(((flatFind f (array.map Prod.fst) 0).bind fun i => array[i]?.map Prod.snd).getD .raw=
      tableId array f ↔ f≠ofAscii "upgrade:")

instance (array : List (Bytes×HdrId)) : Decidable (TableFacts array) := inferInstanceAs (Decidable (_ ∧ _))

lemma respHdrs_facts : TableFacts respHdrs := by
  simp only [respHdrs,ofAscii,String.reduceToList,map_cons,map_nil,Char.reduceToNat,UInt8.reduceOfNat]
  decide +kernel

lemma reqHdrs_facts : TableFacts reqHdrs := by
  simp only [reqHdrs,ofAscii,String.reduceToList,map_cons,map_nil,Char.reduceToNat,UInt8.reduceOfNat]
  decide +kernel

/-- Both lookups give the id of the entry of that name or the one of raw headers, unless the name is `upgrade`. -/
theorem spec_hid_iff {hdr : TfwStr} {name : Bytes} (h : HasName hdr name true) :
    (respSpecHid hdr=tableId respHdrs (folded name true) ∧ reqSpecHid hdr=tableId reqHdrs (folded name true)) ↔
      folded name true≠ofAscii "upgrade:" := by
  have hre := h.specHid respHdrs (P := (·≠ofAscii "upgrade:")) respHdrs_facts.1 respHdrs_facts.2
    (fun f hf heq => hf (heq ▸ by decide +kernel))
  have hr := h.specHid reqHdrs (P := (·≠ofAscii "upgrade:")) reqHdrs_facts.1 reqHdrs_facts.2
    (fun f hf heq => hf (heq ▸ by decide +kernel))
  rw [respSpecHid,reqSpecHid,hre,hr,and_self]

/-- `Ho`, `sT: x` -/
theorem spec_hid_iff_host :
    respSpecHid ⟨[[0x48,0x6f],[0x73,0x54,0x3a,0x20,0x78]]⟩=tableId respHdrs (folded [0x48,0x6f,0x73,0x54] true) ∧
      reqSpecHid ⟨[[0x48,0x6f],[0x73,0x54,0x3a,0x20,0x78]]⟩=tableId reqHdrs (folded [0x48,0x6f,0x73,0x54] true) :=
  (spec_hid_iff ⟨by decide,⟨[0x20,0x78],rfl⟩,by decide +kernel⟩).2 (by decide +kernel)

theorem upgrade_not_found : respSpecHid ⟨[ofAscii "upgrade:"]⟩=.raw ∧ (ofAscii "upgrade:",.upgrade)∈respHdrs ∧
      reqSpecHid ⟨[ofAscii "upgrade:"]⟩=.raw ∧ (ofAscii "upgrade:",.upgrade)∈reqHdrs := by
  decide +kernel

def staticNames : List Bytes := staticHdrs.map fun h => h.chunks.headD []

/-- `k` is the index of an entry with the name `f`, or 0 if there is none. -/
def Idx (f : Bytes) (k : Nat) : Prop := (k≠0 ↔ f∈staticNames) ∧ (k≠0 → staticNames[k-1]?=some f)

instance (f : Bytes) (k : Nat) : Decidable (Idx f k) := inferInstanceAs (Decidable (_ ∧ _))

/-- The pseudo-headers, the entry with a value. -/
def missed (sep : Bool) : List Bytes :=
  ([":authority",":method",":path",":scheme",":status","accept-encoding","accept-encodinggzip, deflate",
    "accept-ranges"]++if sep then [] else ["accept"]).map ofAscii

def flatIdx (f : Bytes) (sep : Bool) : Nat :=
  ((flatFind (f++if sep then [colon] else []) (staticHdrs.map TfwStr.data) 14).map (·+1)).getD 0

lemma staticHdrs_facts :
    ((∀sep,∀i<61,(∃f∈missed sep,staticNames[i]?=some f) ∨ flatIdx (staticNames.getD i []) sep=i+1) ∧
      ∀sep,∀f∈missed sep,¬Idx f (flatIdx f sep)) ∧ (∀sh∈staticHdrs,[]∉sh.chunks ∧ sh.data≠[]) ∧
    (∀i<61,14 ≤ i → (staticHdrs.map TfwStr.data)[i]?=staticNames[i]? ∨
      (staticHdrs.map TfwStr.data)[i]?=some (ofAscii "accept-encodinggzip, deflate")) ∧
    ∀e∈(staticHdrs.map TfwStr.data).drop 14,Entry [] e := by
  simp only [Idx,flatIdx,missed,staticNames,staticHdrs,staticTable,hpEntryName,hpEntryFull,TfwStr.data,ofAscii,
    String.reduceToList,map_cons,map_nil,Char.reduceToNat,UInt8.reduceOfNat]
  decide +kernel

/-- The index is that of an entry with the header's name, or 0 if there is none, unless the name is one of those that
the binary search misses. -/
theorem find_hdr_idx_iff {hdr : TfwStr} {name : Bytes} {sep : Bool} (h : HasName hdr name sep) :
    Idx (name.map lc) (findHdrIdx hdr) ↔ name.map lc∉missed sep := by
  obtain ⟨⟨hfd,hmis⟩,hc,hn,he⟩ := staticHdrs_facts
  rw [findHdrIdx,h.findHdr hc]
  change Idx (name.map lc) (flatIdx (name.map lc) sep) ↔ _
  refine ⟨fun hidx hf => hmis sep _ hf hidx,fun hf => ?_⟩
  have hl : staticNames.length=61 := rfl
  by_cases hm : name.map lc∈staticNames
  · obtain ⟨i,hi,heq⟩ := getElem_of_mem hm
    have hg := getElem?_eq_getElem hi
    obtain ⟨f,hmi,hfi⟩ | hidx := hfd sep i (hl ▸ hi)
    · rw [hg,heq] at hfi
      exact absurd (Option.some.inj hfi ▸ hmi) hf
    · rw [getD_eq_getElem _ _ hi,heq] at hidx
      rw [hidx]
      exact ⟨iff_of_true i.succ_ne_zero hm,fun _ => hg.trans (congrArg some heq)⟩
  · suffices hz : flatFind (folded name sep) (staticHdrs.map TfwStr.data) 14=none by
      rw [show flatIdx (name.map lc) sep=0 from congrArg (fun k : Option Nat => (k.map (·+1)).getD 0) hz]
      exact ⟨iff_of_false (absurd rfl) hm,fun h0 => absurd rfl h0⟩
    refine Option.eq_none_iff_forall_ne_some.2 fun k hk => ?_
    have heq := h.eq_of_find (u := []) he (.inl rfl) hk
    rw [append_nil] at heq
    have hk14 : 14≤k ∧ k<61 := ⟨(search_some hk).1,(search_some hk).2.1⟩
    obtain hnm | hv := hn k hk14.2 hk14.1
    · exact hm (mem_of_getElem? (hnm.symm.trans heq))
    · refine hf (Option.some.inj (heq.symm.trans hv) ▸ ?_)
      cases sep <;> decide +kernel

/-- `Ac`, `cept:` -/
theorem find_hdr_idx_iff_accept :
    Idx ([0x41,0x63,0x63,0x65,0x70,0x74].map lc) (findHdrIdx ⟨[[0x41,0x63],[0x63,0x65,0x70,0x74,0x3a]]⟩) :=
  (@find_hdr_idx_iff _ _ true ⟨by decide,⟨[],rfl⟩,by decide +kernel⟩).2 (by decide +kernel)

theorem accept_ranges_not_found :
    findHdrIdx ⟨[ofAscii "accept-ranges:"]⟩=0 ∧ findHdrIdx ⟨[ofAscii "accept-encoding:"]⟩=0 ∧
      findHdrIdx ⟨[ofAscii "accept"]⟩=0 ∧ ∀n∈["accept-ranges","accept-encoding","accept"],ofAscii n∈staticNames := by
  decide +kernel
end VetWaf.Http.HdrLookup
