import Mathlib.Data.List.Basic

namespace VetWaf.Fragments
open List

/-- A fragment and an offset in it. -/
structure Pos where
  frag : Nat
  off : Nat
  deriving DecidableEq

/-- Stream order. -/
def Pos.Before (p q : Pos) : Prop := p.frag<q.frag ∨ (p.frag=q.frag ∧ p.off<q.off)

/-- A range of bytes of one fragment. -/
structure Seg where
  data : Pos
  len : Nat
  deriving DecidableEq

/-- The positions of the bytes from `a` up to `b` in fragment `i`. -/
def span (i a b : Nat) : List Pos := (List.range' a (b-a)).map (Pos.mk i)

def Seg.cells (s : Seg) : List Pos := span s.data.frag s.data.off (s.data.off+s.len)

/-- The positions a list of ranges covers, range by range. -/
def cover (segs : List Seg) : List Pos := segs.flatMap Seg.cells

/-- The bytes `src` with their positions, the first one being at offset `p` of fragment `i`. -/
def locate (i p : Nat) : List UInt8 → List (Pos×UInt8)
  | [] => []
  | c::src => (⟨i,p⟩,c)::locate i (p+1) src

/-- The bytes of all fragments with their positions, the first fragment being number `i`. -/
def located (i : Nat) : List (List UInt8) → List (Pos×UInt8)
  | [] => []
  | f::fs => locate i 0 f++located (i+1) fs

@[simp] lemma span_self (i a : Nat) : span i a a=[] := by simp [span]

variable {a b i : Nat} {p : Pos} {fs : List (List UInt8)} {s : Seg} {segs : List Seg}
lemma span_succ (i : Nat) (h : a≤b) : span i a (b+1)=span i a b++[⟨i,b⟩] := by
  have hl : b+1-a=(b-a)+1 := by omega
  have hla : a+1*(b-a)=b := by omega
  rw [span,hl,range'_concat,map_append,hla]
  rfl

lemma span_cons (i a n : Nat) : span i a (a+(n+1))=⟨i,a⟩::span i (a+1) (a+1+n) := by
  have hl : a+(n+1)-a=(a+1+n-(a+1))+1 := by omega
  rw [span,span,hl,range'_succ]
  rfl

lemma span_append (i a m n : Nat) : span i a (a+m)++span i (a+m) (a+m+n)=span i a (a+m+n) := by
  induction n with
  | zero => simp
  | succ n ih => rw [← Nat.add_assoc,span_succ i (Nat.le_add_right _ n),← append_assoc,ih,span_succ i (by omega)]

lemma mem_span : p∈span i a b ↔ p.frag=i ∧ a≤p.off ∧ p.off<b := by
  simp only [span,mem_map,mem_range'_1]
  constructor
  · rintro ⟨j,hj,rfl⟩
    exact ⟨rfl,hj.1,by change j<b; omega⟩
  · rintro ⟨rfl,ha,hb⟩
    exact ⟨p.off,⟨ha,by omega⟩,rfl⟩

@[simp] lemma length_span (i a b : Nat) : (span i a b).length=b-a := by simp [span]

lemma Seg.mem_cells {s : Seg} {p : Pos} :
    p∈s.cells ↔ p.frag=s.data.frag ∧ s.data.off≤p.off ∧ p.off<s.data.off+s.len := mem_span

lemma cover_concat (segs : List Seg) (s : Seg) : cover (segs++[s])=cover segs++s.cells := by simp [cover]

@[simp] lemma map_snd_locate (i p : Nat) (src : List UInt8) : (locate i p src).map Prod.snd=src := by
  induction src generalizing p with
  | nil => rfl
  | cons c src ih => rw [locate,map_cons,ih]

@[simp] lemma map_snd_located (i : Nat) (fs : List (List UInt8)) : (located i fs).map Prod.snd=fs.flatten := by
  induction fs generalizing i with
  | nil => rfl
  | cons f fs ih => rw [located,map_append,map_snd_locate,ih,flatten_cons]

lemma map_fst_locate (i p : Nat) (src : List UInt8) : (locate i p src).map Prod.fst=span i p (p+src.length) := by
  induction src generalizing p with
  | nil => simp [locate]
  | cons c src ih => rw [locate,map_cons,ih,length_cons,span_cons]

/-- A position that occurs among the fragments lies inside its fragment. -/
lemma off_lt_of_mem_located (h : p∈(located i fs).map Prod.fst) :
    ∃f,i≤p.frag ∧ fs[p.frag-i]?=some f ∧ p.off<f.length := by
  induction fs generalizing i with
  | nil => simp [located] at h
  | cons f fs ih =>
    rw [located,map_append,mem_append,map_fst_locate,mem_span] at h
    obtain ⟨hf,-,ho⟩ | h := h
    · exact ⟨f,by omega,by simp [hf],by omega⟩
    · obtain ⟨g,hle,hg,ho⟩ := ih h
      have hs : p.frag-i=(p.frag-(i+1))+1 := by omega
      exact ⟨g,by omega,by rw [hs,getElem?_cons_succ]; exact hg,ho⟩

lemma pairwise_span (i a b : Nat) : (span i a b).Pairwise Pos.Before := by
  rw [span,pairwise_map]
  refine List.Pairwise.imp ?_ pairwise_lt_range'
  intro x y hx
  exact Or.inr ⟨rfl,hx⟩

lemma pairwise_located (i : Nat) (fs : List (List UInt8)) : ((located i fs).map Prod.fst).Pairwise Pos.Before := by
  induction fs generalizing i with
  | nil => exact List.Pairwise.nil
  | cons f fs ih =>
    rw [located,map_append,pairwise_append,map_fst_locate]
    refine ⟨pairwise_span i _ _,ih (i+1),?_⟩
    intro p hp q hq
    have hpi := (mem_span.1 hp).1
    obtain ⟨-,hle,-,-⟩ := off_lt_of_mem_located hq
    exact Or.inl (by omega)

lemma Seg.last_mem_cells (h : 0<s.len) : (⟨s.data.frag,s.data.off+s.len-1⟩ : Pos)∈s.cells := by
  apply Seg.mem_cells.2
  refine ⟨rfl,?_,?_⟩
  · change s.data.off ≤ s.data.off+s.len-1
    omega
  · change s.data.off+s.len-1<s.data.off+s.len
    omega

/-- A non-empty range of positions that occur among the fragments lies inside one of them. -/
lemma Seg.inside_of_cover (h : ∀p∈cover segs,p∈(located 0 fs).map Prod.fst) (hs : s∈segs) (hp : 0<s.len) :
    ∃f,fs[s.data.frag]?=some f ∧ s.data.off+s.len≤f.length := by
  have hm := mem_flatMap.2 ⟨s,hs,Seg.last_mem_cells hp⟩
  obtain ⟨f,-,hf,ho⟩ := off_lt_of_mem_located (h _ hm)
  refine ⟨f,hf,?_⟩
  change s.data.off+s.len-1<f.length at ho
  omega

/-- Range `s` ends before range `t` begins. -/
def Seg.Before (s t : Seg) : Prop := s.data.frag<t.data.frag ∨ (s.data.frag=t.data.frag ∧ s.data.off+s.len≤t.data.off)

/-- Non-empty ranges whose cells come in stream order are disjoint and in order. -/
lemma pairwise_before_of_cover (hne : ∀s∈segs,0<s.len)
    (h : (cover segs).Pairwise Pos.Before) : segs.Pairwise Seg.Before := by
  rw [cover,pairwise_flatMap] at h
  apply h.2.imp_of_mem
  intro s t hs ht hst
  have hsl := hne s hs
  have htl := hne t ht
  have hf : t.data∈t.cells := Seg.mem_cells.2 ⟨rfl,Nat.le_refl _,by omega⟩
  obtain hlt | ⟨heq,hlt⟩ := hst _ (Seg.last_mem_cells hsl) _ hf
  · exact Or.inl hlt
  · exact Or.inr ⟨heq,by change s.data.off+s.len-1<_ at hlt; omega⟩
end VetWaf.Fragments
