import VetWaf.Tdb.Scan

namespace VetWaf.Filter
open Tdb List Outcome

/-- The four words of a `struct in6_addr` -/
structure In6Addr where
  w0 : UInt32
  w1 : UInt32
  w2 : UInt32
  w3 : UInt32
  deriving DecidableEq, Inhabited, Repr

def ipv6Hash (addr : In6Addr) : UInt64 :=
  (addr.w0.toUInt64 <<< 32) ^^^ (addr.w1.toUInt64 <<< 24) ^^^ (addr.w2.toUInt64 <<< 8) ^^^ addr.w3.toUInt64

/-- The action of a rule; there is only `TFW_F_DROP`. -/
inductive FilterAction where
  | drop
  deriving DecidableEq, Inhabited, Repr

structure TfwFRule where
  addr : In6Addr
  action : FilterAction
  blockedUntil : Int64
  deriving DecidableEq, Inhabited, Repr

/-- `sizeof(TfwFRule)` -/
def ruleLen : Nat := 32

/-- A call of `tfw_filter_block_ip` for a client with address `addr` at time `ts` -/
structure BlockCall where
  addr : In6Addr
  ts : Int64
  duration : Int64

def BlockCall.blockedUntil (c : BlockCall) : Int64 := if 0<c.duration then c.ts+c.duration else Int64.maxValue
def BlockCall.rule (c : BlockCall) : TfwFRule := ⟨c.addr,.drop,c.blockedUntil⟩
abbrev FilterDb := TdbHdr TfwFRule

/-- `tdb_entry_create`, whose caller does not release the record. -/
def entryCreate (beyond : Nat → Nat → Bool) (db : FilterDb) (key : Nat) (rule : TfwFRule) : Except TdbStop FilterDb :=
  -- the key 0 is not stored
  if key=0 then .ok db
  else do
    let i := htrieIdx key 0
    let (sh,alloc) ← insertShift ruleLen beyond none 2 key rule 15 (db.root i) db.alloc
    .ok ⟨Function.update db.root i sh,alloc⟩

def filterBlockIp (beyond : Nat → Nat → Bool) (db : FilterDb) (c : BlockCall) : Except TdbStop FilterDb :=
  entryCreate beyond db (ipv6Hash c.addr).toNat c.rule

inductive CheckResult where
  | ok
  | block
  deriving DecidableEq

def TfwFRule.blocks (rule : TfwFRule) (addr : In6Addr) (ts : Int64) : Bool := rule.addr=addr && ts≤rule.blockedUntil

/-- The loop of `tfw_filter_check_ip` over the records of a key. -/
def checkLoop (place : Nat → Nat) (addr : In6Addr) (ts : Int64) :
    Nat → Option (Position TfwFRule) → Except TdbStop CheckResult
  | _, none => .ok .ok
  | 0, some _ => .error .fuel
  | n+1, some p =>
    let r := p.bckt.getRec p.slot
    if r.data.blocks addr ts then .ok (if r.data.action=.drop then .block else .ok)
    else do
      let q ← nextRec ruleLen place r.key p
      checkLoop place addr ts n q

/-- `tfw_filter_check_ip` at time `ts` -/
def filterCheckIp (place : Nat → Nat) (db : FilterDb) (addr : In6Addr) (ts : Int64) : Except TdbStop CheckResult := do
  let key := (ipv6Hash addr).toNat
  let chain ← htrieLookup db key
  checkLoop place addr ts (chain.length*roomCount ruleLen) (bscanForRec ruleLen key chain)

def blockRun (beyond : Nat → Nat → Bool) : FilterDb → List BlockCall → Except TdbStop FilterDb
  | db, [] => .ok db
  | db, c::cs => do
    let db ← filterBlockIp beyond db c
    blockRun beyond db cs

lemma goodLen_ruleLen : GoodLen ruleLen := ⟨by decide,by decide,by decide⟩
def BlockCall.entry (c : BlockCall) : Nat×TfwFRule := ((ipv6Hash c.addr).toNat,c.rule)

variable {beyond : Nat → Nat → Bool} {db : FilterDb}
lemma filterBlockIp_spec (h : TableOk ruleLen true db) (hbe : ∀id bits,beyond id bits=true) {c : BlockCall}
    (hc : ipv6Hash c.addr≠0) : ∃db',filterBlockIp beyond db c=.ok db' ∧ TableOk ruleLen true db' ∧
      tableBag db'={c.entry}+tableBag db := by
  have hne : (ipv6Hash c.addr).toNat≠0 := fun h0 => hc (UInt64.toNat_inj.1 h0)
  have hr : GoodRefs true 2 := ⟨by decide,fun hu => nomatch hu⟩
  obtain ⟨sh,a,hi,hok,hb⟩ := h.insertShift goodLen_ruleLen hbe hr hne (UInt64.toNat_lt _) c.rule
  refine ⟨_,?_,hok,hb⟩
  rw [filterBlockIp,entryCreate,if_neg hne]
  simp only [hi,ok_bind]

lemma blockRun_spec (h : TableOk ruleLen true db) (hbe : ∀id bits,beyond id bits=true)
    {calls : List BlockCall} (hca : ∀c∈calls,ipv6Hash c.addr≠0) :
    ∃db',blockRun beyond db calls=.ok db' ∧ TableOk ruleLen true db' ∧
      ∀e,e∈tableBag db' ↔ e∈tableBag db ∨ ∃c∈calls,e=c.entry := by
  induction calls generalizing db with
  | nil => exact ⟨db,rfl,h,by simp⟩
  | cons c cs ih =>
    obtain ⟨db1,hst,hok,hb⟩ := filterBlockIp_spec h hbe (hca c (.head _))
    obtain ⟨db',hr,hok',hm⟩ := ih hok fun c hc => hca c (.tail _ hc)
    refine ⟨db',?_,hok',fun e => ?_⟩
    · rw [blockRun,hst,ok_bind,hr]
    · rw [hm e,hb,Multiset.mem_add,Multiset.mem_singleton,exists_mem_cons_iff,or_assoc,or_left_comm]

variable {key : Nat} {place : Nat → Nat} {addr : In6Addr} {ts : Int64}
lemma checkLoop_spec {n : Nat} {left : List (TdbFRec TfwFRule)} {q : Option (Position TfwFRule)}
    (h : NextIs ruleLen true key left q) (hk : ∀r∈left,r.key=key) (hn : left.length≤n) : checkLoop place addr ts n q =
      .ok (if left.any (fun r => r.data.blocks addr ts) then .block else .ok) := by
  induction n generalizing left q with
  | zero =>
    cases q with
    | none =>
      rw [show left=[] from h]
      rfl
    | some q =>
      rw [h.1] at hn
      cases hn
  | succ n ih =>
    cases q with
    | none =>
      rw [show left=[] from h]
      rfl
    | some q =>
      obtain ⟨hl,⟨P,hb⟩,hf,hre⟩ := h
      subst hl
      rw [length_cons] at hn
      rw [checkLoop,any_cons]
      cases hbl : (q.bckt.getRec q.slot).data.blocks addr ts with
      | true => rfl
      | false =>
        obtain ⟨q',hnx,hq'⟩ := nextRec_spec goodLen_ruleLen hb hf hre place
        rw [hk _ mem_cons_self]
        simp only [Bool.false_eq_true,if_false,hnx,ok_bind,Bool.false_or]
        exact ih hq' (fun r hr => hk r (.tail _ hr)) (by omega)

lemma filterCheckIp_spec (h : TableOk ruleLen true db) (place : Nat → Nat) (addr : In6Addr) (ts : Int64) :
    ∃v,filterCheckIp place db addr ts=.ok v ∧
      (v=.block ↔ ∃rule,((ipv6Hash addr).toNat,rule)∈tableBag db ∧ rule.blocks addr ts=true) := by
  obtain ⟨chain,hlo,hnx,hl,hba⟩ := h.lookup (UInt64.toNat_lt (ipv6Hash addr)) (fun hu => nomatch hu)
  have hm : ∀e,(∃r∈chainRecs (ipv6Hash addr).toNat chain,r.entry=e) ↔ e∈tableBag db ∧ e.1=(ipv6Hash addr).toNat := by
    intro e
    rw [← mem_map,← Multiset.mem_coe,hba,Multiset.mem_filter]
  have hk : ∀r∈chainRecs (ipv6Hash addr).toNat chain,r.key=(ipv6Hash addr).toNat := fun r hr =>
    ((hm r.entry).1 ⟨r,hr,rfl⟩).2
  refine ⟨if (chainRecs (ipv6Hash addr).toNat chain).any (fun r => r.data.blocks addr ts) then .block else .ok,?_,?_⟩
  · rw [filterCheckIp,hlo,ok_bind]
    exact checkLoop_spec hnx hk hl
  · rw [ite_eq_left_iff,Bool.not_eq_true,any_eq_false]
    constructor
    · intro ha
      by_contra hn
      refine absurd (ha fun r hr hb => hn ⟨r.data,?_,hb⟩) (by decide)
      have hin := ((hm r.entry).1 ⟨r,hr,rfl⟩).1
      rwa [TdbFRec.entry,hk r hr] at hin
    · rintro ⟨rule,hin,hb⟩ ha
      obtain ⟨r,hr,he⟩ := (hm _).2 ⟨hin,rfl⟩
      have hd : r.data=rule := congrArg Prod.snd he
      exact absurd (hd ▸ hb) (ha r hr)

/-- After any calls for addresses whose hash is not 0, a check blocks an address exactly when one of the calls was for
this address and its time is not over. -/
theorem check_blocks_iff (beyond : Nat → Nat → Bool) (hbeyond : ∀id bits,beyond id bits=true)
    (calls : List BlockCall) (hcalls : ∀c∈calls,ipv6Hash c.addr≠0) :
    ∃db,blockRun beyond {} calls=.ok db ∧ ∀place addr ts,∃v,filterCheckIp place db addr ts=.ok v ∧
      (v=.block ↔ ∃c∈calls,c.addr=addr ∧ ts≤c.blockedUntil) := by
  obtain ⟨db,hr,hok,hm⟩ := blockRun_spec tableOk_empty hbeyond hcalls
  refine ⟨db,hr,fun place addr ts => ?_⟩
  obtain ⟨v,hch,hv⟩ := filterCheckIp_spec hok place addr ts
  refine ⟨v,hch,hv.trans ?_⟩
  constructor
  · rintro ⟨rule,hin,hb⟩
    rw [hm,tableBag_empty] at hin
    obtain ⟨c,hc,he⟩ := hin.resolve_left (Multiset.notMem_zero _)
    have hru : rule=c.rule := congrArg Prod.snd he
    rw [hru,TfwFRule.blocks,Bool.and_eq_true,decide_eq_true_iff,decide_eq_true_iff] at hb
    exact ⟨c,hc,hb⟩
  · rintro ⟨c,hc,rfl,ht⟩
    refine ⟨c.rule,(hm _).2 (.inr ⟨c,hc,rfl⟩),?_⟩
    rw [TfwFRule.blocks,Bool.and_eq_true,decide_eq_true_iff,decide_eq_true_iff]
    exact ⟨rfl,ht⟩

def threeClients : List BlockCall :=
  [⟨⟨0,0,0xffff0000,0x0100000a⟩,100,0⟩,⟨⟨0,0,0xffff0000,0x0200000a⟩,100,10⟩,⟨⟨0,0,0xffff0000,0x0300000a⟩,100,0⟩]

/-- The three rules do not fit in one data block. -/
theorem check_blocks_iff_threeClients : ∃db v,blockRun (fun _ _ => true) {} threeClients=.ok db ∧
      filterCheckIp id db ⟨0,0,0xffff0000,0x0200000a⟩ 110=.ok v ∧ v=.block := by
  obtain ⟨db,hr,hc⟩ := check_blocks_iff (fun _ _ => true) (fun _ _ => rfl) threeClients (by decide)
  obtain ⟨v,hv,hb⟩ := hc id ⟨0,0,0xffff0000,0x0200000a⟩ 110
  exact ⟨db,v,hr,hv,hb.2 (by decide)⟩

/-- The hash of 2001:d00:20:10d:: is 0. -/
theorem zero_hash_not_blocked : (do
      let db ← blockRun (fun _ _ => true) {} [⟨⟨0x000d0120,0x0d012000,0,0⟩,100,0⟩]
      filterCheckIp id db ⟨0x000d0120,0x0d012000,0,0⟩ 101)=.ok .ok ∧
      (⟨⟨0x000d0120,0x0d012000,0,0⟩,100,0⟩ : BlockCall).blockedUntil=Int64.maxValue := by
  decide +kernel
end VetWaf.Filter
