import VetWaf.Base

namespace VetWaf.Http.ContentLength
open List

inductive Ret where
  | parsed (n : Nat)
  | neq
  | badlen
  | postpone
  deriving DecidableEq

def isdigit (c : UInt8) : Bool := 0x30≤c ∧ c≤0x39

/-- `whitespace_a` -/
def isWs (c : UInt8) : Bool := c=0x20 ∨ 0x09≤c ∧ c≤0x0d

def digit (c : UInt8) : Nat := c.toNat-0x30

/-- `__parse_ulong` behind the first `n` bytes. -/
def parseUlong (delim : UInt8 → Bool) (limit : Nat) : Nat → Nat → Bytes → Ret×Nat
  | _, acc, [] => (.postpone,acc)
  | n, acc, c::data =>
    if delim c then (.parsed n,acc)
    else if !isdigit c then (.neq,acc)
    else
      let sum := acc*10%2^64+digit c
      if 2^64 ≤ sum ∨ limit<sum%2^64 then (.badlen,sum%2^64)
      else parseUlong delim limit (n+1) sum data

def parseLongWs (acc : Nat) (data : Bytes) : Ret×Nat := parseUlong isWs longMax 0 acc data

/-- `msg->content_length`, and whether the parser is still in `I_ContLenBeg`. -/
structure LenState where
  beg : Bool := true
  contentLength : Nat := 0
  deriving DecidableEq

def parseContentLength (status : Option Nat) (st : LenState) (data : Bytes) : Ret×LenState :=
  if st.beg && !(data.head?.any isdigit) then (.neq,st)
  else
    let r := parseLongWs st.contentLength data
    if status.any (fun s => 100 ≤ s ∧ s<200 ∨ s=204) && decide (0<r.2) then (.neq,⟨false,r.2⟩)
    else (r.1,⟨false,r.2⟩)

/-- The parser is called for one fragment after the other as long as it wants more. -/
def feed (call : LenState → Bytes → Ret×LenState) : LenState → List Bytes → Ret×LenState
  | st, [] => (.postpone,st)
  | st, f::fs =>
    match call st f with
    | (.postpone,st') => feed call st' fs
    | r => r

/-- `__h2_req_parse_content_length`. -/
def h2ParseContentLength (fin : Bool) (acc : Nat) (data : Bytes) : Ret×Nat :=
  match parseLongWs acc data with
  | (.postpone,a) => (if fin then .parsed 0 else .postpone,a)
  | (.parsed _,a) => (.neq,a)
  | r => r

def h2Feed : Nat → List Bytes → Ret×Nat
  | acc, [] => (.postpone,acc)
  | acc, f::fs =>
    match h2ParseContentLength fs.isEmpty acc f with
    | (.postpone,a) => h2Feed a fs
    | r => r

/-- The number that the digits `ds` write after digits of value `acc`. -/
def decimalFrom (acc : Nat) (ds : Bytes) : Nat := ds.foldl (fun a c => a*10+digit c) acc

def decimal (ds : Bytes) : Nat := decimalFrom 0 ds

/-- The value is rejected, or taken as the number it writes. -/
def Settled (ds : Bytes) (r : Ret) (len : Nat) : Prop :=
  r=.neq ∨ r=.badlen ∨ (∃n,r=.parsed n) ∧ len=decimal ds ∧ decimal ds≤longMax

/-- A digit at which the wrapped accumulator is found to be too large. -/
def Noticed (v : Nat) (ds : Bytes) : Prop := ∃p d s,ds=p++d::s ∧ longMax<decimalFrom v p*10%2^64+digit d

variable {v : Nat} {ds rest : Bytes} {c : UInt8} {frags : List Bytes}
lemma digit_le (h : isdigit c=true) : digit c≤9 := by
  have h2 : c≤0x39 := (of_decide_eq_true h).2
  have h3 : c.toNat≤57 := UInt8.le_iff_toNat_le.1 h2
  unfold digit
  omega

lemma not_isWs (h : isdigit c=true) : isWs c=false := by
  obtain ⟨h1,-⟩ := of_decide_eq_true h
  have h2 : 48≤c.toNat := UInt8.le_iff_toNat_le.1 h1
  refine decide_eq_false ?_
  rintro (rfl | ⟨-,h3⟩)
  · exact absurd h2 (by decide)
  · have h4 : c.toNat≤13 := UInt8.le_iff_toNat_le.1 h3
    omega

lemma decimalFrom_append (p q : Bytes) : decimalFrom v (p++q)=decimalFrom (decimalFrom v p) q := foldl_append

lemma noticed_append (p q : Bytes) : Noticed v (p++q) ↔ Noticed v p ∨ Noticed (decimalFrom v p) q := by
  constructor
  · rintro ⟨r,d,s,heq,hlt⟩
    obtain ⟨t,rfl,h⟩ | ⟨t,rfl,h⟩ := append_eq_append_iff.1 heq
    · exact .inr ⟨t,d,s,h,by rwa [← decimalFrom_append]⟩
    · cases t with
      | nil => exact .inr ⟨[],d,s,h.symm,by rw [append_nil]; exact hlt⟩
      | cons x t =>
        obtain ⟨rfl,rfl⟩ := cons.inj h
        exact .inl ⟨r,d,t,rfl,hlt⟩
  · rintro (⟨r,d,s,rfl,hlt⟩ | ⟨r,d,s,rfl,hlt⟩)
    · exact ⟨r,d,s++q,by simp,hlt⟩
    · exact ⟨p++r,d,s,by simp,by rwa [decimalFrom_append]⟩

lemma noticed_singleton (c : UInt8) : Noticed v [c] ↔ longMax<v*10%2^64+digit c := by
  constructor
  · rintro ⟨p,d,s,heq,hlt⟩
    obtain ⟨rfl,rfl,rfl⟩ : p=[] ∧ c=d ∧ s=[] := by cases p <;> simp_all
    exact hlt
  · exact fun hlt => ⟨[],c,[],rfl,hlt⟩

lemma parseUlong_digits (n : Nat) (hd : ∀c∈ds,isdigit c=true) :
    (Noticed v ds ∧ (parseUlong isWs longMax n (v%2^64) (ds++rest)).1=.badlen) ∨
      ¬Noticed v ds ∧ parseUlong isWs longMax n (v%2^64) (ds++rest) =
        parseUlong isWs longMax (n+ds.length) (decimalFrom v ds%2^64) rest := by
  induction ds generalizing v n with
  | nil => exact .inr ⟨fun ⟨p,d,s,h,_⟩ => by simp at h,rfl⟩
  | cons c ds ih =>
    have hc : isdigit c=true := hd c (.head _)
    have h9 := digit_le hc
    rw [cons_append,parseUlong,if_neg (by simp [not_isWs hc]),if_neg (by simp [hc])]
    have hn := @noticed_append v [c] ds
    rw [noticed_singleton,singleton_append,show decimalFrom v [c]=v*10+digit c from rfl] at hn
    unfold longMax at hn
    dsimp only
    split_ifs with hb
    · refine .inl ⟨hn.2 (.inl ?_),rfl⟩
      unfold longMax at hb
      omega
    · have hs : v%2^64*10%2^64+digit c=(v*10+digit c)%2^64 := by omega
      have hr := @ih (v*10+digit c) (n+1) fun x hx => hd x (.tail _ hx)
      have hno : ¬2^63-1<v*10%2^64+digit c := by
        unfold longMax at hb
        omega
      rw [hs,length_cons,show n+(ds.length+1)=n+1+ds.length by omega,hn,or_iff_right hno]
      exact hr

lemma fragment_cases {f s : Bytes} {t : UInt8} (h : f++s=ds++t::rest) :
    (∃ds',ds=f++ds' ∧ s=ds'++t::rest) ∨ ∃r,f=ds++t::r := by
  obtain ⟨u,hu,hs⟩ | ⟨u,hu,hs⟩ := append_eq_append_iff.1 h
  · exact .inl ⟨u,hu,hs⟩
  · cases u with
    | nil => exact .inl ⟨[],by simpa using hu.symm,by simpa using hs.symm⟩
    | cons x u =>
      obtain ⟨rfl,-⟩ := cons.inj hs
      exact .inr ⟨u,hu⟩

lemma feed_spec {t : UInt8} {st : LenState} (ht : isWs t=true) (hd : ∀c∈ds,isdigit c=true)
    (hne : []∉frags) (hfl : frags.flatten=ds++t::rest) (hbe : st.beg=true → ds≠[]) (hst : st.contentLength=v%2^64) :
    (Noticed v ds ∧ (feed (parseContentLength none) st frags).1=.badlen) ∨
      ¬Noticed v ds ∧ ∃n st',feed (parseContentLength none) st frags=(.parsed n,st') ∧
        st'.contentLength=decimalFrom v ds%2^64 := by
  induction frags generalizing ds v st with
  | nil => simp at hfl
  | cons f fs ih =>
    rw [mem_cons,not_or] at hne
    obtain ⟨x,f,rfl⟩ := exists_cons_of_ne_nil (Ne.symm hne.1)
    have hfi : (st.beg && !((x::f).head?.any isdigit))=false := by
      cases hb : st.beg with
      | false => rfl
      | true =>
        obtain ⟨d,ds,rfl⟩ := exists_cons_of_ne_nil (hbe hb)
        obtain ⟨rfl,-⟩ := cons.inj hfl
        simp [hd x mem_cons_self]
    have hca : parseContentLength none st (x::f) =
        ((parseLongWs (v%2^64) (x::f)).1,⟨false,(parseLongWs (v%2^64) (x::f)).2⟩) := by
      rw [parseContentLength,if_neg (by rw [hfi]; decide)]
      simp [hst]
    rw [feed,hca,parseLongWs]
    rw [flatten_cons] at hfl
    obtain ⟨ds',rfl,hs⟩ | ⟨r,hf⟩ := fragment_cases hfl
    · have hru := @parseUlong_digits v (x::f) [] 0 fun c hc => hd c (mem_append_left _ hc)
      rw [append_nil] at hru
      rw [noticed_append,decimalFrom_append]
      obtain ⟨hn,hr⟩ | ⟨hn,hr⟩ := hru
      · rw [hr]
        exact .inl ⟨.inl hn,rfl⟩
      · rw [hr,or_iff_right hn]
        exact ih (fun c hc => hd c (mem_append_right _ hc)) hne.2 hs (fun h => nomatch h) rfl
    · rw [hf]
      obtain ⟨hn,hr⟩ | ⟨hn,hr⟩ := @parseUlong_digits v ds (t::r) 0 hd
      · rw [hr]
        exact .inl ⟨hn,rfl⟩
      · rw [hr,parseUlong,if_pos ht]
        exact .inr ⟨hn,_,_,rfl,rfl⟩

lemma h2Feed_spec (hd : ∀c∈ds,isdigit c=true) (hne : frags≠[]) (hf : frags.flatten=ds) :
    (Noticed v ds ∧ (h2Feed (v%2^64) frags).1=.badlen) ∨
      ¬Noticed v ds ∧ h2Feed (v%2^64) frags=(.parsed 0,decimalFrom v ds%2^64) := by
  induction frags generalizing ds v with
  | nil => exact absurd rfl hne
  | cons f fs ih =>
    subst hf
    rw [flatten_cons] at hd
    have hru := @parseUlong_digits v f [] 0 fun c hc => hd c (mem_append_left _ hc)
    rw [append_nil] at hru
    rw [h2Feed,h2ParseContentLength,parseLongWs,flatten_cons,noticed_append,decimalFrom_append]
    obtain ⟨hn,hr⟩ | ⟨hn,hr⟩ := hru
    · rw [show parseUlong isWs longMax 0 (v%2^64) f=(.badlen,_) from Prod.ext hr rfl]
      exact .inl ⟨.inl hn,rfl⟩
    · rw [hr,or_iff_right hn]
      cases fs with
      | nil => exact .inr ⟨fun ⟨p,d,s,h,_⟩ => by simp at h,rfl⟩
      | cons g gs => exact ih (v := decimalFrom v f) (fun c hc => hd c (mem_append_right _ hc)) (by simp) rfl

lemma feed_status (frags : List Bytes) (status : Option Nat) (st : LenState) :
    (feed (parseContentLength status) st frags).1=.neq ∨
      feed (parseContentLength status) st frags=feed (parseContentLength none) st frags := by
  induction frags generalizing st with
  | nil => exact .inr rfl
  | cons f fs ih =>
    have hc : (parseContentLength status st f).1=.neq ∨
        parseContentLength status st f=parseContentLength none st f := by
      simp only [parseContentLength]
      split_ifs <;> simp_all
    rw [feed,feed]
    obtain hn | heq := hc
    · rw [show parseContentLength status st f=(.neq,_) from Prod.ext hn rfl]
      exact .inl rfl
    · rw [heq]
      rcases hr : parseContentLength none st f with ⟨r,st'⟩
      cases r with
      | postpone => exact ih st'
      | _ => exact .inr rfl

/-- A value is rejected or read exactly, over every connection, with every terminator and in whatever fragments, if
and only if a `long` can hold it or the wrapped accumulator is found to be too large at some digit of it. -/
theorem content_length_exact_iff (hds : ds≠[]) (hd : ∀c∈ds,isdigit c=true) :
    ((∀status t rest frags,isWs t=true → []∉frags → frags.flatten=ds++t::rest →
        Settled ds (feed (parseContentLength status) {} frags).1
          (feed (parseContentLength status) {} frags).2.contentLength) ∧
      ∀frags,[]∉frags → frags.flatten=ds → Settled ds (h2Feed 0 frags).1 (h2Feed 0 frags).2) ↔
      decimal ds≤longMax ∨ Noticed 0 ds := by
  have he (hle : decimal ds≤longMax) : decimal ds%2^64=decimal ds := Nat.mod_eq_of_lt (lt_of_le_of_lt hle (by decide))
  constructor
  · rintro ⟨-,hh2⟩
    by_cases hn : Noticed 0 ds
    · exact .inr hn
    · have hru := hh2 [ds] (by simpa using Ne.symm hds) (by simp)
      obtain ⟨hy,-⟩ | ⟨-,hr⟩ := @h2Feed_spec 0 ds [ds] hd (by simp) (by simp)
      · exact absurd hy hn
      · rw [show h2Feed 0 [ds]=_ from hr] at hru
        obtain h | h | ⟨-,-,hle⟩ := hru
        · cases h
        · cases h
        · exact .inl hle
  · intro hc
    refine ⟨fun status t rest frags ht hne hf => ?_,fun frags hne hf => ?_⟩
    · obtain hr | hr := feed_status frags status {}
      · exact .inl hr
      · rw [hr]
        obtain ⟨-,hr⟩ | ⟨hn,n,st',hr,hl⟩ := @feed_spec 0 ds rest frags t {} ht hd hne hf (fun _ => hds) rfl
        · exact .inr (.inl hr)
        · have hle := hc.resolve_right hn
          rw [hr]
          exact .inr (.inr ⟨⟨n,rfl⟩,hl.trans (he hle),hle⟩)
    · have hfr : frags≠[] := fun h => hds (by rw [← hf,h]; rfl)
      obtain ⟨-,hr⟩ | ⟨hn,hr⟩ := @h2Feed_spec 0 ds frags hd hfr hf
      · exact .inr (.inl hr)
      · have hle := hc.resolve_right hn
        rw [show h2Feed 0 frags=_ from hr]
        exact .inr (.inr ⟨⟨0,rfl⟩,he hle,hle⟩)

/-- `007` -/
theorem content_length_exact_iff_leading_zeros :
    Settled [0x30,0x30,0x37] (feed (parseContentLength none) {} [[0x30],[0x30,0x37,0x0d]]).1
      (feed (parseContentLength none) {} [[0x30],[0x30,0x37,0x0d]]).2.contentLength :=
  ((content_length_exact_iff (by decide) (by decide +kernel)).2 (.inl (by decide +kernel))).1 none 0x0d [] _ (by decide)
    (by decide) rfl

/-- `18446744073709551620`, which is `2^64+4`, is taken as `4`. -/
def overLong : Bytes :=
  [0x31,0x38,0x34,0x34,0x36,0x37,0x34,0x34,0x30,0x37,0x33,0x37,0x30,0x39,0x35,0x35,0x31,0x36,0x32,0x30]

theorem content_length_wraps :
    decimal overLong=2^64+4 ∧ feed (parseContentLength none) {} [overLong++[0x0d]]=(.parsed 20,⟨false,4⟩) ∧
      h2Feed 0 [overLong]=(.parsed 0,4) := by
  decide +kernel
end VetWaf.Http.ContentLength
