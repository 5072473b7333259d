import VetWaf.Lib.Mem
import VetWaf.Lib.Run
import VetWaf.Lib.Word

namespace VetWaf.Pool
open List Word

structure TfwPoolChunk where
  base : Nat
  order : Nat
  off : Nat

/-- `curr` is the first chunk, `rest` are those behind it, and `pool` is the one with the pool itself. `live` are the
address and the size of the regions that were not given up. -/
structure TfwPool where
  curr : Nat
  order : Nat
  off : Nat
  rest : List TfwPoolChunk := []
  charged : Int
  pool : Nat
  mem : Nat → UInt8
  live : List (Nat×Nat) := []

def chunkSz (order : Nat) : Nat := 4096*2^order
def alignSz (n : Nat) : Nat := (n+7)/8*8

/-- The kernel's `get_order` -/
def getOrder (n : Nat) : Nat := if n≤4096 then 0 else Nat.log2 ((n-1)/4096)+1

/-- What `tfw_client_adjust_mem` adds for the owner: its argument is an `int`. -/
def adjustMem (delta : Int) : Int := delta.bmod (2^32)

namespace TfwPool

def chunks (p : TfwPool) : List TfwPoolChunk := ⟨p.curr,p.order,p.off⟩::p.rest

def poolNew (n pg : Nat) (mem : Nat → UInt8) : TfwPool :=
  let order := getOrder (alignSz n+40)
  {curr:=pg, order, off:=40, charged:=adjustMem (chunkSz order), pool:=pg, mem}

/-- With and without `align`: 16 bytes for the descriptor are aligned. -/
def allocPage (p : TfwPool) (n pg : Nat) : Option (Nat×TfwPool) :=
  let off := add 32 16 n
  let order := getOrder off
  -- pages are aligned, and those of no other chunk
  if pg%4096=0 ∧ ∀c∈p.chunks,pg+chunkSz order≤c.base ∨ c.base+chunkSz c.order≤pg then
    some (pg+16,{p with
      curr:=pg, order, off, rest:=p.chunks, charged:=p.charged+adjustMem (chunkSz order)})
  else none

def alloc (p : TfwPool) (n pg : Nat) : Option (Nat×TfwPool) :=
  let off := trunc 32 (trunc 32 (p.off+7)/8*8+n)
  if chunkSz p.order<off then p.allocPage n pg else some (alignSz (p.curr+p.off),{p with off})

def allocNotAlign (p : TfwPool) (n pg : Nat) : Option (Nat×TfwPool) :=
  if chunkSz p.order<p.off+n then p.allocPage n pg else some (p.curr+p.off,{p with off:=add 32 p.off n})

def realloc (p : TfwPool) (ptr old n : Nat) (copy : Bool) (pg : Nat) : Option (Nat×TfwPool) :=
  if ptr+old=p.curr+p.off ∧ p.off+n-old≤chunkSz p.order then some (ptr,{p with off:=add 32 p.off (n-old)})
  else (p.alloc n pg).map fun (a,p) => (a,if copy then {p with mem:=Mem.copy p.mem a p.mem ptr old} else p)

/-- `tfw_pool_free_pages`, with the regions of the chunk -/
def freePages (p : TfwPool) (c : TfwPoolChunk) (rest : List TfwPoolChunk) : TfwPool :=
  {p with
    rest, charged:=p.charged+adjustMem (-chunkSz c.order)
    live:=p.live.filter fun r => ¬(c.base≤r.1 ∧ r.1≤c.base+chunkSz c.order)}

/-- The loop behind the chunks `pre`; the last chunk is left. -/
def cleanSingle (p : TfwPool) (ptr : Nat) (pre : List TfwPoolChunk) : List TfwPoolChunk → TfwPool
  | c::d::cs =>
    if c.base≤ptr ∧ ptr<c.base+c.off then p.freePages c (pre++d::cs) else cleanSingle p ptr (pre++[c]) (d::cs)
  | _ => p

def clean (p : TfwPool) : List TfwPoolChunk → TfwPool
  | c::d::cs => clean (p.freePages c (d::cs)) (d::cs)
  | _ => p

inductive Call where
  | alloc (align : Bool) (n pg : Nat)
  | realloc (r : Nat×Nat) (n : Nat) (copy : Bool) (pg : Nat)
  | cleanSingle (ptr : Nat)
  | clean
  | write (mem : Nat → UInt8)

def give (n : Nat) (x : Nat×TfwPool) : TfwPool := {x.2 with live:=(x.1,n)::x.2.live}

/-- A call with a size below `lim`, or what the users of the regions write in between -/
def step (lim : Nat) (p : TfwPool) : Call → Option TfwPool
  | .alloc align n pg => if n<lim then (if align then p.alloc n pg else p.allocNotAlign n pg).map (give n) else none
  | .realloc r n copy pg =>
    if r∈p.live ∧ r.2≤n ∧ n<lim then
      (p.realloc r.1 r.2 n copy pg).map fun x => give n (x.1,{x.2 with live:=x.2.live.erase r})
    else none
  | .cleanSingle ptr => some (p.cleanSingle ptr [] p.rest)
  | .clean => some (p.clean p.rest)
  | .write mem => some {p with mem}

def Apart (r s : Nat×Nat) : Prop := ∀x,r.1≤x → x<r.1+r.2 → s.1≤x → s.1+s.2≤x
def Beside (c d : TfwPoolChunk) : Prop := c.base+chunkSz c.order≤d.base ∨ d.base+chunkSz d.order≤c.base

/-- The size of the descriptors in a chunk -/
def head (p : TfwPool) (base : Nat) : Nat := if base=p.pool then 40 else 16

def total (p : TfwPool) : Nat := (p.chunks.map fun c => chunkSz c.order).sum

structure Inv (p : TfwPool) : Prop where
  beside : p.chunks.Pairwise Beside
  bounds : ∀c∈p.chunks,c.base%4096=0 ∧ c.order≤18 ∧ p.head c.base≤c.off ∧ c.off≤chunkSz c.order
  last : (p.chunks.map TfwPoolChunk.base).getLast?=some p.pool
  charged : p.charged=p.total
  within : ∀r∈p.live,∃c∈p.chunks,c.base+p.head c.base≤r.1 ∧ r.1+r.2≤c.base+c.off
  live : p.live.Pairwise Apart

instance : Std.Symm Beside := ⟨fun _ _ => Or.symm⟩

instance : Std.Symm Apart := by
  constructor
  intro r s h x h1 h2 h3
  by_contra! h4
  exact absurd (h x h3 h4 h1) (not_le.2 h2)

variable {p : TfwPool} {r : Nat×Nat} {c : TfwPoolChunk} {pre post cs : List TfwPoolChunk} {a n off pg : Nat}
lemma head_ge (p : TfwPool) (base : Nat) : 16≤p.head base := by
  unfold head
  split_ifs <;> decide

lemma chunkSz_le (h : n≤18) : chunkSz n≤2^30 := Nat.mul_le_mul_left 4096 (Nat.pow_le_pow_right (by decide) h)
lemma adjustMem_eq {m : Int} (h : -2^30 ≤ m ∧ m ≤ 2^30) : adjustMem m=m := Int.bmod_eq_of_le (by omega) (by omega)

/-- A chunk is as large as it has to be. -/
lemma le_chunkSz (n : Nat) : n≤chunkSz (getOrder n) := by
  unfold chunkSz getOrder
  split_ifs with h
  · omega
  · have := Nat.lt_log2_self (n := (n-1)/4096)
    omega

lemma getOrder_le (h : n≤2^30) : getOrder n≤18 := by
  unfold getOrder
  split_ifs with h0
  · omega
  · exact (Nat.log2_lt (by omega)).2 (by omega : (n-1)/4096<2^18)

lemma Inv.free (h : Inv p) (hrest : p.rest=pre++c::post) (hpost : post≠[]) : Inv (p.freePages c (pre++post)) := by
  have hch : p.chunks=(⟨p.curr,p.order,p.off⟩::pre)++c::post := by rw [chunks,hrest]; rfl
  have hch' : (p.freePages c (pre++post)).chunks=(⟨p.curr,p.order,p.off⟩::pre)++post := rfl
  have hsub : (p.freePages c (pre++post)).chunks<+p.chunks := by
    rw [hch,hch']
    exact (sublist_cons_self _ _).append_left _
  have hc := h.bounds c (hch ▸ mem_append_right _ mem_cons_self)
  refine ⟨h.beside.sublist hsub,fun d hd => h.bounds d (hsub.subset hd),?_,?_,fun r hr => ?_,h.live.filter _⟩
  · have hne : post.map TfwPoolChunk.base≠[] := by simpa using hpost
    refine Eq.trans ?_ h.last
    rw [hch,hch',map_append,map_append,map_cons (l := post),getLast?_append_of_ne_nil _ hne,getLast?_append_cons,
      getLast?_cons_of_ne_nil hne]
  · have hle := chunkSz_le hc.2.1
    change p.charged+adjustMem _=_
    rw [adjustMem_eq (by omega),h.charged,total,total,hch,hch']
    simp
    omega
  · obtain ⟨hr,hne⟩ := mem_filter.1 hr
    obtain ⟨d,hd,hw⟩ := h.within r hr
    refine ⟨d,?_,hw⟩
    have hdc : d≠c := by
      rintro rfl
      exact of_decide_eq_true hne (by omega)
    rw [hch] at hd
    rw [hch']
    simp only [mem_append,mem_cons] at hd ⊢
    tauto

lemma Inv.cleanSingle (h : Inv p) (ptr : Nat) (hrest : p.rest=pre++cs) : Inv (p.cleanSingle ptr pre cs) := by
  fun_induction TfwPool.cleanSingle p ptr pre cs with
  | case1 pre c d cs => exact h.free hrest (cons_ne_nil d cs)
  | case2 pre c d cs _ ih => exact ih (by rw [hrest,append_assoc]; rfl)
  | case3 => exact h

lemma Inv.clean (h : Inv p) (hrest : p.rest=cs) : Inv (p.clean cs) := by
  fun_induction TfwPool.clean p cs with
  | case1 p c d cs ih =>
    apply ih _ rfl
    exact h.free (show p.rest=[]++c::d::cs from hrest) (cons_ne_nil d cs)
  | case2 => exact h

/-- A region of the current chunk is given out if it is apart from the others there. -/
lemma Inv.give (h : Inv p) (hlo : p.curr+p.head p.curr≤a) (hn : a+n≤p.curr+off) (hge : p.off≤off)
    (hoff : off≤chunkSz p.order) (hap : ∀s∈p.live,s.1+s.2≤p.curr+p.off → Apart (a,n) s) :
    Inv (TfwPool.give n (a,{p with off})) := by
  obtain ⟨hb,hbs⟩ := pairwise_cons.1 h.beside
  obtain ⟨hc,hcs⟩ := forall_mem_cons.1 h.bounds
  refine ⟨pairwise_cons.2 ⟨hb,hbs⟩,forall_mem_cons.2 ⟨⟨hc.1,hc.2.1,hc.2.2.1.trans hge,hoff⟩,hcs⟩,h.last,h.charged,
    forall_mem_cons.2 ⟨⟨_,mem_cons_self,hlo,hn⟩,fun r hr => ?_⟩,pairwise_cons.2 ⟨fun s hs => ?_,h.live⟩⟩
  · obtain ⟨c,hm,hw⟩ := h.within r hr
    rcases mem_cons.1 hm with rfl | hm
    · exact ⟨_,mem_cons_self,hw.1,hw.2.trans (Nat.add_le_add_left hge _)⟩
    · exact ⟨c,mem_cons_of_mem _ hm,hw⟩
  · by_cases hle : s.1+s.2≤p.curr+p.off
    · exact hap s hs hle
    obtain ⟨c,hm,hw⟩ := h.within s hs
    rcases mem_cons.1 hm with rfl | hm
    · exact absurd hw.2 hle
    · have hbe := hb c hm
      have hsz := (hcs c hm).2.2.2
      unfold Beside at hbe
      intro x h1 h2 h3
      dsimp only at *
      omega

/-- A region behind what is used -/
lemma Inv.bump (h : Inv p) (ha : p.curr+p.off≤a) (hn : a+n≤p.curr+off) (hoff : off≤chunkSz p.order) :
    Inv (TfwPool.give n (a,{p with off})) := by
  have hhe := (h.bounds _ mem_cons_self).2.2.1
  dsimp only at hhe
  exact h.give (by omega) hn (by omega) hoff fun s _ hs x h1 _ _ => hs.trans (ha.trans h1)

variable {x : Nat×TfwPool} (hn : n+16≤2^30)
include hn
lemma Inv.allocPage (h : Inv p) (hx : p.allocPage n pg=some x) : Inv (TfwPool.give n x) := by
  rw [TfwPool.allocPage,Option.ite_none_right_eq_some,add_of_lt (by omega)] at hx
  obtain ⟨⟨hal,hfr⟩,hx⟩ := hx
  cases hx
  have hle := getOrder_le (n := 16+n) (by omega)
  have hsz := le_chunkSz (16+n)
  obtain ⟨c,hc,hpool⟩ := mem_map.1 (mem_of_getLast? h.last)
  have hhe : p.head pg=16 := by
    apply if_neg
    rintro rfl
    have := hfr c hc
    have := Nat.two_pow_pos c.order
    unfold chunkSz at *
    omega
  -- the new chunk before the region is taken from it
  have hq : Inv {p with
      curr:=pg, order:=getOrder (16+n), off:=16, rest:=p.chunks
      charged:=p.charged+adjustMem (chunkSz (getOrder (16+n)))} := by
    refine ⟨pairwise_cons.2 ⟨hfr,h.beside⟩,forall_mem_cons.2 ⟨⟨hal,hle,hhe.le,by dsimp only; omega⟩,h.bounds⟩,
      getLast?_cons_cons.trans h.last,?_,fun r hr => ?_,h.live⟩
    · have := chunkSz_le hle
      dsimp only
      rw [adjustMem_eq (by omega),h.charged]
      exact (Int.add_comm _ _)
    · obtain ⟨c,hc,hw⟩ := h.within r hr
      exact ⟨c,mem_cons_of_mem _ hc,hw⟩
  exact hq.bump le_rfl (by dsimp only; omega) hsz

lemma Inv.alloc (h : Inv p) (hx : p.alloc n pg=some x) : Inv (TfwPool.give n x) := by
  obtain ⟨hb,hor,-,hoff⟩ := h.bounds _ mem_cons_self
  have hle := chunkSz_le hor
  dsimp only at *
  rw [TfwPool.alloc,trunc_of_lt (a := p.off+7) (by omega),trunc_of_lt (by omega)] at hx
  split_ifs at hx with hlt
  · exact h.allocPage hn hx
  · cases hx
    apply h.bump _ _ (not_lt.1 hlt) <;> unfold alignSz <;> omega

lemma Inv.allocNotAlign (h : Inv p) (hx : p.allocNotAlign n pg=some x) : Inv (TfwPool.give n x) := by
  obtain ⟨-,hor,-⟩ := h.bounds _ mem_cons_self
  have hle := chunkSz_le hor
  dsimp only at hle
  rw [TfwPool.allocNotAlign] at hx
  split_ifs at hx with hlt
  · exact h.allocPage hn hx
  · cases hx
    rw [add_of_lt (by omega)]
    exact h.bump le_rfl (by omega) (not_lt.1 hlt)

omit hn

lemma Inv.sublist {live : List (Nat×Nat)} (h : Inv p) (hsub : live<+p.live) : Inv {p with live} :=
  {h with within:=fun s hs => h.within s (hsub.subset hs), live:=h.live.sublist hsub}

lemma alloc_frame (hx : p.alloc n pg=some x) : x.2.mem=p.mem ∧ x.2.live=p.live := by
  rw [TfwPool.alloc] at hx
  split_ifs at hx
  · rw [TfwPool.allocPage,Option.ite_none_right_eq_some] at hx
    cases hx.2
    exact ⟨rfl,rfl⟩
  · cases hx
    exact ⟨rfl,rfl⟩

include hn

/-- A region grows in place, or is copied to one apart from it. -/
lemma Inv.realloc (h : Inv p) (hr : r∈p.live) (hle : r.2≤n) {copy : Bool} (hx : p.realloc r.1 r.2 n copy pg=some x) :
    Inv (TfwPool.give n (x.1,{x.2 with live:=x.2.live.erase r})) ∧ (x.1=r.1 ∨ Apart (x.1,n) r) ∧
      (copy=true → ∀i<r.2,x.2.mem (x.1+i)=p.mem (r.1+i)) := by
  rw [TfwPool.realloc] at hx
  split at hx
  case isTrue hend =>
    cases hx
    refine ⟨?_,.inl rfl,fun _ _ _ => rfl⟩
    obtain ⟨hap,-⟩ := pairwise_cons.1 (h.live.perm (perm_cons_erase hr) fun h => symm h)
    obtain ⟨c,hc,hw⟩ := h.within r hr
    have hcu : c=⟨p.curr,p.order,p.off⟩ := by
      by_contra hne
      have hbe := h.beside.forall hc mem_cons_self hne
      have := h.bounds _ hc
      have := h.bounds _ mem_cons_self
      have := head_ge p p.curr
      have := head_ge p c.base
      unfold Beside at hbe
      dsimp only at *
      omega
    subst hcu
    have hsz := chunkSz_le (h.bounds _ hc).2.1
    have hoff := (h.bounds _ hc).2.2.2
    dsimp only at *
    rw [add_of_lt (by omega)]
    apply (h.sublist erase_sublist).give hw.1 <;> dsimp only
    · omega
    · omega
    · omega
    · intro s hs hend' x h1 h2 h3
      by_contra! h4
      exact absurd (hap s hs x h1 (by omega) h3) (not_le.2 h4)
  case isFalse =>
    obtain ⟨⟨a,q⟩,hq,rfl⟩ := Option.map_eq_some_iff.1 hx
    have hi := h.alloc hn hq
    obtain ⟨hmem,hlive⟩ := alloc_frame hq
    have hap := (pairwise_cons.1 hi.live).1 r (hlive ▸ hr)
    have her := hi.sublist (erase_sublist.cons_cons (a,n) : (a,n)::q.live.erase r<+(a,n)::q.live)
    cases copy with
    | false => exact ⟨her,.inr hap,nofun⟩
    | true =>
      refine ⟨{her with},.inr hap,fun _ i hi => ?_⟩
      exact (Mem.copy_inside _ _ hi).trans (congrFun hmem _)

omit hn

lemma inv_step {lim : Nat} (hlim : lim≤2^30-15) (p : TfwPool) (e : Call) (p' : TfwPool) (h : Inv p)
    (hs : p.step lim e=some p') : Inv p' := by
  cases e with
  | alloc align n pg =>
    rw [step,Option.ite_none_right_eq_some,Option.map_eq_some_iff] at hs
    obtain ⟨hlt,x,hx,rfl⟩ := hs
    cases align with
    | false => exact h.allocNotAlign (by omega) hx
    | true => exact h.alloc (by omega) hx
  | realloc r n copy pg =>
    rw [step,Option.ite_none_right_eq_some,Option.map_eq_some_iff] at hs
    obtain ⟨⟨hr,hle,hlt⟩,x,hx,rfl⟩ := hs
    exact (h.realloc (by omega) hr hle hx).1
  | cleanSingle ptr =>
    cases hs
    exact h.cleanSingle ptr rfl
  | clean =>
    cases hs
    exact h.clean rfl
  | write mem =>
    cases hs
    exact {h with}

/-- In every run on a new pool the regions handed out are apart and inside the chunks that are charged, and one that is
moved keeps its bytes. -/
theorem pool_regions_apart {lim size : Nat} (hlim : lim≤2^30-15) (hsize : size+48≤2^30) (hpg : pg%4096=0)
    {mem : Nat → UInt8} {es : List Call} (hrun : Run.run (step lim) (poolNew size pg mem) es=some p) :
    p.live.Pairwise Apart ∧
      (∀r∈p.live,∃c∈p.chunks,c.base+p.head c.base≤r.1 ∧ r.1+r.2≤c.base+chunkSz c.order) ∧ p.charged=p.total ∧
      ∀r n pg p',p.step lim (.realloc r n true pg)=some p' →
        ∃a,p'.live.head?=some (a,n) ∧ (a=r.1 ∨ Apart (a,n) r) ∧ ∀i<r.2,p'.mem (a+i)=p.mem (r.1+i) := by
  have hle : alignSz size+40≤2^30 := by unfold alignSz; omega
  have hor := getOrder_le hle
  have hinit : Inv (poolNew size pg mem) := by
    have := le_chunkSz (alignSz size+40)
    have := chunkSz_le hor
    refine ⟨pairwise_singleton _ _,forall_mem_singleton.2 ⟨hpg,hor,(if_pos rfl).le,?_⟩,rfl,?_,nofun,.nil⟩
    · dsimp only [poolNew]
      omega
    · simp only [poolNew,total,chunks,map_cons,map_nil,sum_singleton]
      exact adjustMem_eq (by omega)
  have h := Run.run_invariant _ (inv_step hlim) hinit hrun
  refine ⟨h.live,fun r hr => ?_,h.charged,fun r n pg p' hs => ?_⟩
  · obtain ⟨c,hc,hw⟩ := h.within r hr
    exact ⟨c,hc,hw.1,hw.2.trans (Nat.add_le_add_left (h.bounds c hc).2.2.2 _)⟩
  · rw [step,Option.ite_none_right_eq_some,Option.map_eq_some_iff] at hs
    obtain ⟨⟨hr,hle,hlt⟩,x,hx,rfl⟩ := hs
    obtain ⟨-,hap,hco⟩ := h.realloc (by omega) hr hle hx
    exact ⟨x.1,rfl,hap,hco rfl⟩

theorem pool_regions_apart_moved : ∃p,Run.run (step 5000) (poolNew 8 4096 fun _ => 0)
        [.alloc false 3 0,.alloc true 5 0,.realloc (4136,3) 4090 true 8192,.clean]=some p ∧
      p.live=[(8208,4090),(4144,5)] ∧ p.live.Pairwise Apart ∧ p.charged=p.total :=
  have h := @pool_regions_apart _ 4096 5000 8 (by decide) (by decide) (by decide) (fun _ => 0)
    [.alloc false 3 0,.alloc true 5 0,.realloc (4136,3) 4090 true 8192,.clean] rfl
  ⟨_,rfl,by decide +kernel,h.1,h.2.2.1⟩

/-- The charge of a chunk of 2^31 bytes is negative. Where 2^32 bytes of a chunk are used up, the next region is in the
place of the descriptor. -/
theorem pool_large_chunks :
    (Run.run (step (2^31)) (poolNew 8 4096 fun _ => 0) [.alloc true (2^30) (2^31)]).map (fun p => (p.charged,p.total))=
        some (4096-2^31,4096+2^31) ∧
      (Run.run (step (2^31)) (poolNew 8 4096 fun _ => 0)
        [.alloc true (2^31-8) (2^32),.alloc true (2^31-8) 0,.alloc true 8 0]).map (fun p => p.live.head?)=
        some (some (2^32,8)) := by
  decide +kernel
end TfwPool
end VetWaf.Pool
