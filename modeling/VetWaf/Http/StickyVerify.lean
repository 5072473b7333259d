import VetWaf.Http.SessLearn

namespace VetWaf.Sess
open List Nat

def hexAsc (n : Nat) : UInt8 := .ofNat (if n<10 then 48+n else 87+n)

/-- `hex_to_bin`, converted to `unsigned long` -/
def hexToBin (c : UInt8) : Nat :=
  if 48≤c ∧ c≤57 then c.toNat-48
  else if 97≤c ∧ c≤102 then c.toNat-87
  else if 65≤c ∧ c≤70 then c.toNat-55
  else 2^64-1

def hexByte (b : UInt8) : Bytes := [hexAsc (b.toNat/16),hexAsc (b.toNat%16)]
def bin2hex (data : Bytes) : Bytes := data.flatMap hexByte

/-- The last `n` bytes of a number, in network order -/
def beBytes (ts : Nat) : Nat → Bytes
  | 0 => []
  | n+1 => .ofNat (ts/256^n)::beBytes ts n

def getStep (ts : Nat) (c : UInt8) : Nat := (ts*16+hexToBin c)%2^64

/-- `HEX_STR_TO_BIN_GET` for the timestamp. -/
def hexGet (count ts : Nat) : List Bytes → Nat×List Bytes
  | [] => (ts,[])
  | []::c => hexGet count ts c
  | (b::tr)::c => if count=16 then (ts,(b::tr)::c) else hexGet (count+1) (getStep ts b) (tr::c)
termination_by c => (c.map length).sum+c.length

inductive SessRc where
  | success
  | badCookie
  /-- `BUG_ON`, or a read behind the HMAC -/
  | bug
  deriving DecidableEq

/-- The loop of `HEX_STR_TO_BIN_HMAC` -/
def hexHmac (hmac : Bytes) (i : Nat) (hi : Bool) : List Bytes → SessRc
  | [] => if i=20 then .success else .bug
  | []::c => hexHmac hmac i hi c
  | (b::tr)::c =>
    match hmac[i]? with
    | none => .bug
    | some h =>
      if (if hi then hexAsc (h.toNat/16) else hexAsc (h.toNat%16))=b then
        hexHmac hmac (if hi then i else i+1) (!hi) (tr::c)
      else .badCookie
termination_by c => (c.map length).sum+c.length

/-- What a request has for the cookie -/
structure StickyReq (A : Type) where
  addr : A
  ua : List Bytes
  vhost : TfwVhost

variable {A : Type} (hmacOf : A → Bytes → Nat → {h : Bytes // h.length=20}) (req : StickyReq A)
def stickyCalc (ts : Nat) : Bytes := hmacOf req.addr req.ua.flatten ts

/-- The value that `tfw_http_sticky_add` and `tfw_http_sticky_build_redirect` write -/
def stickyValue (ts : Nat) : Bytes := bin2hex (beBytes ts 8)++bin2hex (stickyCalc hmacOf req ts)

def tfwHttpStickyVerify (hz jiffies : Nat) (value : List Bytes) : SessRc :=
  if req.vhost.learn then .success
  else if value.flatten.length≠56 then .badCookie
  else
    let (ts,c) := hexGet 0 0 value
    let r := if c=[] then .success else hexHmac (stickyCalc hmacOf req ts) 0 true c
    if r ≠ .success then r
    else if expiresAt hz ts req.vhost.sessLifetime<jiffies then .badCookie
    else .success

lemma hexGet_spec (count ts : Nat) (value : List Bytes) (h : count≤16) :
    (hexGet count ts value).1=(value.flatten.take (16-count)).foldl getStep ts ∧
      (hexGet count ts value).2.flatten=value.flatten.drop (16-count) := by
  fun_induction hexGet count ts value with
  | case1 => simp
  | case2 count ts c ih => simpa using ih h
  | case3 => simp
  | case4 count ts b tr c hc ih =>
    obtain ⟨n,hn⟩ : ∃n,16 - count=n+1 := ⟨15 - count,by omega⟩
    have hn' : 16-(count+1)=n := by omega
    rw [hn'] at ih
    rw [hn]
    simpa using ih (by omega)

/-- The digits that are still to be compared -/
def digitsFrom (hmac : Bytes) (i : Nat) (hi : Bool) : Bytes := (bin2hex (hmac.drop i)).drop (!hi).toNat

lemma digitsFrom_cons {hmac : Bytes} {i : Nat} {h : UInt8} (hi : Bool) (hh : hmac[i]?=some h) :
    digitsFrom hmac i hi=(if hi then hexAsc (h.toNat/16) else hexAsc (h.toNat%16)) ::
      digitsFrom hmac (if hi then i else i+1) (!hi) := by
  have hd : hmac.drop i=h::hmac.drop (i+1) := by
    obtain ⟨hlt,rfl⟩ := List.getElem?_eq_some_iff.1 hh
    exact drop_eq_getElem_cons hlt
  cases hi <;> simp [digitsFrom,hd,bin2hex,hexByte]

lemma length_bin2hex (data : Bytes) : (bin2hex data).length=2*data.length := by simp [bin2hex,hexByte,mul_comm]

lemma hexHmac_spec (hmac : Bytes) (i : Nat) (hi : Bool) (c : List Bytes) (hl : hmac.length=20) (hi20 : i≤20)
    (hc : c.flatten.length=(digitsFrom hmac i hi).length) :
    hexHmac hmac i hi c=if c.flatten=digitsFrom hmac i hi then .success else .badCookie := by
  fun_induction hexHmac hmac i hi c with
  | case1 => exact (if_pos (length_eq_zero_iff.1 hc.symm).symm).symm
  | case2 i hi hne =>
    simp only [flatten_nil,length_nil,digitsFrom,length_drop,length_bin2hex,hl] at hc
    cases hi <;> simp at hc <;> omega
  | case3 i hi c ih => exact ih hi20 hc
  | case4 i hi b tr c hn =>
    have hge : 20 ≤ i := hl ▸ getElem?_eq_none_iff.1 hn
    simp [digitsFrom,length_bin2hex,hl,Nat.sub_eq_zero_of_le hge] at hc
  | case5 i hi tr c h hh ih =>
    have hlt : i<20 := hl ▸ (List.getElem?_eq_some_iff.1 hh).1
    simp only [dite_eq_ite] at ih hc ⊢
    rw [digitsFrom_cons hi hh] at hc ⊢
    rw [ih (by split_ifs <;> omega) (Nat.succ.inj hc)]
    simp
  | case6 i hi b tr c h hh hne =>
    rw [digitsFrom_cons hi hh,if_neg]
    intro heq
    exact hne (cons.inj heq).1.symm

lemma foldl_hexByte (ts : Nat) (b : UInt8) : (hexByte b).foldl getStep ts=(ts*256+b.toNat)%2^64 := by
  have hd : ∀n<16,hexToBin (hexAsc n)=n := by decide
  have hb := b.toNat_lt
  simp only [hexByte,foldl_cons,foldl_nil,getStep,hd _ (mod_lt _ (by decide : 0<16)),hd (b.toNat/16) (by omega)]
  omega

lemma foldl_beBytes (ts n : Nat) (ht : ts<2^64) : (bin2hex (beBytes ts n)).foldl getStep (ts/256^n)=ts := by
  induction n with
  | zero => simp [beBytes,bin2hex]
  | succ n ih =>
    have hlt : ts/256^n<2^64 := Nat.lt_of_le_of_lt (Nat.div_le_self _ _) ht
    have hb : (ts/256^(n+1)*256+(UInt8.ofNat (ts/256^n)).toNat)%2^64=ts/256^n := by
      rw [Nat.pow_succ,← Nat.div_div_eq_div_mul,UInt8.toNat_ofNat']
      omega
    rw [beBytes,bin2hex,flatMap_cons,foldl_append,foldl_hexByte,hb]
    exact ih

/-- The timestamp in the first 16 characters -/
def stickyTs (text : Bytes) : Nat := (text.take 16).foldl getStep 0

/-- The value is one of 56 characters with the right HMAC. -/
def StickyValid (hz jiffies : Nat) (text : Bytes) : Prop :=
  text.length=56 ∧ text.drop 16=bin2hex (stickyCalc hmacOf req (stickyTs text)) ∧
    jiffies≤expiresAt hz (stickyTs text) req.vhost.sessLifetime

instance (hz jiffies : Nat) (text : Bytes) : Decidable (StickyValid hmacOf req hz jiffies text) := by
  unfold StickyValid
  infer_instance

/-- Without learning, the verdict depends on the text of the value only. -/
theorem sticky_verify_exact (hlearn : req.vhost.learn=false) (hz jiffies : Nat) :
    (∀value,tfwHttpStickyVerify hmacOf req hz jiffies value =
        if StickyValid hmacOf req hz jiffies value.flatten then .success else .badCookie) ∧
      ∀ts<2^64,StickyValid hmacOf req hz jiffies (stickyValue hmacOf req ts) ↔
        jiffies≤expiresAt hz ts req.vhost.sessLifetime := by
  have hl (ts : Nat) : (stickyCalc hmacOf req ts).length=20 := (hmacOf _ _ ts).2
  constructor
  · intro value
    simp only [tfwHttpStickyVerify,hlearn,Bool.false_eq_true,if_false]
    obtain ⟨ht,hr⟩ := hexGet_spec 0 0 value (by decide)
    generalize hexGet 0 0 value=got at ht hr
    obtain ⟨ts,c⟩ := got
    obtain rfl : ts=stickyTs value.flatten := ht
    by_cases h56 : value.flatten.length=56
    · have hc : c.flatten.length=40 := by rw [hr,length_drop,h56]
      have hne : c≠[] := by
        rintro rfl
        cases hc
      have hh := hexHmac_spec _ 0 true c (hl (stickyTs value.flatten)) (by decide)
        (by rw [hc]; simp [digitsFrom,length_bin2hex,hl])
      have hdi : digitsFrom (stickyCalc hmacOf req (stickyTs value.flatten)) 0 true =
        bin2hex (stickyCalc hmacOf req (stickyTs value.flatten)) := rfl
      rw [hr,hdi,Nat.sub_zero] at hh
      by_cases hd : value.flatten.drop 16=bin2hex (stickyCalc hmacOf req (stickyTs value.flatten))
      · by_cases he : expiresAt hz (stickyTs value.flatten) req.vhost.sessLifetime<jiffies
        · simp [StickyValid,h56,hne,hh,hd,he]
        · simp [StickyValid,h56,hne,hh,hd,he,Nat.le_of_not_lt he]
      · simp [StickyValid,h56,hne,hh,hd]
    · rw [if_pos h56,if_neg fun hv => h56 hv.1]
  · intro ts ht
    have hl16 : (bin2hex (beBytes ts 8)).length=16 := by simp [length_bin2hex,beBytes]
    have hde : stickyTs (stickyValue hmacOf req ts)=ts := by
      rw [stickyTs,stickyValue,← hl16,take_left]
      have h := foldl_beBytes ts 8 ht
      rwa [Nat.div_eq_of_lt (show ts<256^8 from ht)] at h
    rw [StickyValid,hde,stickyValue,← hl16,drop_left]
    simp [length_bin2hex,hl,hl16]

/-- A client without `User-Agent`, and a virtual host that learns its cookie or not -/
def stickyReq (learn : Bool) : StickyReq Unit := ⟨(),[],⟨[],learn,10⟩⟩

def zeroHmac (_ : Unit) (_ : Bytes) (_ : Nat) : {h : Bytes // h.length=20} := ⟨replicate 20 0,rfl⟩

/-- The value issued at time 5 is accepted at time 9. -/
theorem sticky_verify_exact_two_chunks : tfwHttpStickyVerify zeroHmac (stickyReq false) 1 9
      [(stickyValue zeroHmac (stickyReq false) 5).take 7,(stickyValue zeroHmac (stickyReq false) 5).drop 7] =
        .success := by
  obtain ⟨hv,hi⟩ := sticky_verify_exact zeroHmac (stickyReq false) rfl 1 9
  rw [hv,if_pos]
  simpa using (hi 5 (by decide)).2 (by decide)

/-- A virtual host that learns the cookie of its backend takes every value. -/
theorem sticky_verify_learning : tfwHttpStickyVerify zeroHmac (stickyReq true) 1 9 [[0x78]]=.success := rfl
end VetWaf.Sess
