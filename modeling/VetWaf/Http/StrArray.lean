import VetWaf.Base
import VetWaf.Lib.Run

namespace VetWaf.Str
open List

/-- A string of an array: `data`, or its chunks if there are any. -/
structure Item where
  data : Bytes := []
  chunks : List Bytes := []
  len : Nat := 0
  complete : Bool := false
  deriving DecidableEq

structure StrArray where
  items : List Item := []
  len : Nat := 0
  deriving DecidableEq

def Item.flat (t : Item) : Bytes := if t.chunks=[] then t.data else t.chunks.flatten

def strGrowTree (t : Item) (data : Bytes) : Option Item :=
  if t.chunks=[] then some {t with chunks:=[t.data,data]}
  else if 2^32-1≤t.chunks.length then none
  else some {t with chunks:=t.chunks++[data]}

/-- The items before the open one, and that one. -/
def openItem (items : List Item) : Option (List Item×Item) :=
  match items.getLast? with
  | none => some ([],{})
  | some t =>
    if t.complete then if items.length=16 then none else some (items,{})
    else some (items.dropLast,t)

def addChunk (t : Item) (data : Bytes) : Option Item :=
  if t.chunks=[] ∧ t.len=0 then some {t with data, len:=data.length}
  else (strGrowTree t data).map fun t => {t with len:=t.len+data.length}

def strArrayAppendChunk (a : StrArray) (data : Bytes) (completeLast : Bool) : Option StrArray :=
  let shallComplete := (data≠[] ∨ a.items.getLast?.any (!·.complete)=true) ∧ completeLast
  if data=[] then
    some (if shallComplete then
      {a with items:=a.items.dropLast++(a.items.getLast?.map ({· with complete:=true})).toList}
    else a)
  else do
    let (items,t) ← openItem a.items
    let t ← addChunk t data
    some {a with items:=items++[{t with complete:=t.complete ∨ shallComplete}]}

def step (a : StrArray) (c : Bytes×Bool) : Option StrArray := strArrayAppendChunk a c.1 c.2

/-- The calls for the pieces of an item. -/
def calls : List Bytes → List (Bytes×Bool)
  | [] => []
  | [p] => [(p,true)]
  | p::q::ps => (p,false)::calls (q::ps)

def appendItem (a : StrArray) (ps : List Bytes) : Option StrArray := Run.run step a (calls ps)

variable {a : StrArray} {t : Item} {d : Bytes} {ps : List Bytes}
lemma step_open (ho : t.complete=false) (hlen : t.len=t.flat.length) (hp : 0<t.len)
    (hn : t.chunks.length<2^32-1) (b : Bool) :
    ∃t',step {a with items:=a.items++[t]} (d,b)=some {a with items:=a.items++[t']} ∧ t'.flat=t.flat++d ∧
      t'.len=t'.flat.length ∧ t'.complete=b ∧ t'.chunks.length≤t.chunks.length+2 := by
  by_cases hd : d=[]
  · refine ⟨{t with complete:=b},?_,?_,hlen,rfl,Nat.le_add_right _ _⟩
    · cases b
      · rw [← ho,step,strArrayAppendChunk,if_pos hd,if_neg fun h => Bool.false_ne_true (ho ▸ h.2)]
      · simp [step,strArrayAppendChunk,hd,ho]
    · rw [hd,append_nil]
      rfl
  have hg : ∃t',addChunk t d=some t' ∧ t'.flat=t.flat++d ∧ t'.len=t.len+d.length ∧ t'.complete=false ∧
      t'.chunks.length≤t.chunks.length+2 := by
    rw [addChunk,if_neg (by omega),strGrowTree]
    by_cases hc : t.chunks=[]
    · simp [hc,Item.flat,ho]
    · rw [if_neg hc,if_neg (not_le.2 hn)]
      simp [hc,Item.flat,ho]
  obtain ⟨t',ht',hf,hl,hco,hle⟩ := hg
  refine ⟨{t' with complete:=b},?_,hf,?_,rfl,hle⟩
  · simp [step,strArrayAppendChunk,hd,openItem,ho,ht',hco]
  · change t'.len=t'.flat.length
    rw [hl,hf,length_append,hlen]

lemma run_open (ho : t.complete=false) (hlen : t.len=t.flat.length) (hp : 0<t.len) (hps : ps≠[])
    (hn : t.chunks.length+2*ps.length<2^32-1) :
    ∃t',Run.run step {a with items:=a.items++[t]} (calls ps)=some {a with items:=a.items++[t']} ∧
      t'.flat=t.flat++ps.flatten ∧ t'.len=t'.flat.length ∧ t'.complete=true := by
  fun_induction calls ps generalizing t with
  | case1 => exact absurd rfl hps
  | case2 p =>
    obtain ⟨t',hs,hf,hl,hc,-⟩ := step_open (a := a) (d := p) ho hlen hp (by omega) true
    refine ⟨t',?_,?_,hl,hc⟩
    · rw [Run.run,hs]
      rfl
    · simpa using hf
  | case3 p q ps ih =>
    rw [length_cons] at hn
    obtain ⟨t',hs,hf,hl,hc,hle⟩ := step_open (a := a) (d := p) ho hlen hp (by omega) false
    have hp' : 0<t'.len := by
      rw [hl,hf,length_append]
      omega
    obtain ⟨t'',hr,hf',hrest⟩ := ih hc hl hp' (cons_ne_nil _ _) (by omega)
    refine ⟨t'',?_,?_,hrest⟩
    · rw [Run.run,hs]
      exact hr
    · rw [hf',hf,append_assoc]
      rfl

/-- No item is open. -/
def Ready (a : StrArray) : Prop := ∀t∈a.items.getLast?,t.complete=true

lemma step_ready (h : Ready a) (hn : a.items.length<16) (hd : d≠[]) (b : Bool) :
    step a (d,b)=some {a with items:=a.items++[{data:=d, len:=d.length, complete:=b}]} := by
  have ho : openItem a.items=some (a.items,{}) := by
    unfold openItem
    cases hl : a.items.getLast? with
    | none => rw [getLast?_eq_none_iff.1 hl]
    | some t => simp [h t hl,hn.ne]
  simp [step,strArrayAppendChunk,hd,ho,addChunk]

lemma run_ready (h : Ready a) (hn : a.items.length<16) (hps : ps.flatten≠[]) (hlt : ps.length<2^27) :
    ∃t,appendItem a ps=some {a with items:=a.items++[t]} ∧ t.flat=ps.flatten ∧ t.len=t.flat.length ∧
      t.complete=true := by
  unfold appendItem
  fun_induction calls ps with
  | case1 => exact absurd rfl hps
  | case2 p =>
    rw [flatten_singleton] at hps
    refine ⟨{data:=p, len:=p.length, complete:=true},?_,by simp [Item.flat],rfl,rfl⟩
    rw [Run.run,step_ready h hn hps]
    rfl
  | case3 p q ps ih =>
    rw [length_cons] at hlt
    by_cases hp : p=[]
    · subst hp
      rw [Run.run,show step a ([],false)=some a by simp [step,strArrayAppendChunk]]
      exact ih hps (by omega)
    · have hpo := length_pos_iff.2 hp
      obtain ⟨t,hr,hf,hrest⟩ :=
        run_open (a := a) (t := {data:=p, len:=p.length}) rfl rfl hpo (cons_ne_nil q ps)
          (by dsimp only [length_nil]; omega)
      refine ⟨t,?_,hf,hrest⟩
      rw [Run.run,step_ready h hn hp]
      exact hr

lemma run_empty (h : Ready a) (hps : ps.flatten=[]) : appendItem a ps=some a := by
  have hs (b : Bool) : step a ([],b)=some a := by
    have ha : a.items.getLast?.any (!·.complete)=false := by
      rw [Option.any_eq_false]
      intro t ht
      simp [h t ht]
    simp [step,strArrayAppendChunk,ha]
  unfold appendItem
  fun_induction calls ps with
  | case1 => rfl
  | case2 p =>
    rw [flatten_singleton] at hps
    rw [hps,Run.run,hs]
    rfl
  | case3 p q ps ih =>
    rw [flatten_cons,append_eq_nil_iff] at hps
    rw [hps.1,Run.run,hs]
    exact ih hps.2

/-- Items are stored as they are, whatever their pieces, except that empty ones are skipped. -/
theorem str_array_flattens {items : List (List Bytes)} (hmax : ((items.map flatten).filter (·≠[])).length≤16)
    (hlt : ∀ps∈items,ps.length<2^27) :
    ∃a,Run.run appendItem {} items=some a ∧ a.len=0 ∧ a.items.map Item.flat=(items.map flatten).filter (·≠[]) ∧
      a.items.map Item.len=((items.map flatten).filter (·≠[])).map length := by
  have hru (a : StrArray) (h : Ready a) (hn : a.items.length+((items.map flatten).filter (·≠[])).length≤16) :
      ∃ts : List Item,Run.run appendItem a items=some {a with items:=a.items++ts} ∧
        ts.map Item.flat=(items.map flatten).filter (·≠[]) ∧
        ts.map Item.len=((items.map flatten).filter (·≠[])).map length := by
    clear hmax
    induction items generalizing a with
    | nil => exact ⟨[],by simp,rfl,rfl⟩
    | cons ps items ih =>
      rw [forall_mem_cons] at hlt
      rw [map_cons] at hn ⊢
      by_cases hps : ps.flatten=[]
      · rw [filter_cons_of_neg (by simpa using hps)] at hn ⊢
        rw [Run.run,run_empty h hps]
        exact ih hlt.2 a h hn
      · rw [filter_cons_of_pos (by simpa using hps)] at hn ⊢
        rw [length_cons] at hn
        obtain ⟨t,hr,hf,hl,hc⟩ := run_ready h (by omega) hps hlt.1
        have hn' : (a.items++[t]).length+((items.map flatten).filter (·≠[])).length≤16 := by
          rw [length_append,length_singleton]
          omega
        obtain ⟨ts,hrs,hfls,hls⟩ := ih hlt.2 {a with items:=a.items++[t]} (by simp [Ready,hc]) hn'
        refine ⟨t::ts,?_,?_,?_⟩
        · rw [Run.run,hr]
          simpa using hrs
        · rw [map_cons,hf,hfls]
        · rw [map_cons,map_cons,hl,hf,hls]
  obtain ⟨ts,h⟩ := hru {} (by simp [Ready]) (by rwa [length_nil,Nat.zero_add])
  exact ⟨_,h.1,rfl,h.2⟩

theorem str_array_flattens_pieces : ∃a,Run.run appendItem {} [[[0x61],[],[0x62]],[[],[]],[[0x63]]]=some a ∧ a.len=0 ∧
    a.items.map Item.flat=[[0x61,0x62],[0x63]] ∧ a.items.map Item.len=[2,1] :=
  @str_array_flattens [[[0x61],[],[0x62]],[[],[]],[[0x63]]] (by decide) (by decide)

/-- An empty item is not stored, and the length of the array stays 0. -/
theorem str_array_no_empty_item :
    (Run.run appendItem {} [[[]],[[0x61]]]).map (fun a => (a.items.map Item.flat,a.len))=some ([[0x61]],0) := by
  decide
end VetWaf.Str
