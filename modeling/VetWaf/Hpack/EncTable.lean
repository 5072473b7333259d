import VetWaf.Hpack.IntWrite
import VetWaf.Lib.Run
import VetWaf.Lib.Word

namespace VetWaf.Hpack
open Function List Word

def hpackEncTableMaxSize : Nat := 4096
def hpackMaxEncEviction : Nat := 5

/-- A node of the ring buffer, its links in the tree apart -/
structure HPackNode where
  rindex : Nat := 0
  nameLen : Nat := 0
  hdrLen : Nat := 0
  hdr : Bytes := []

/-- The tree over the nodes, which are named by their offsets in the ring buffer. -/
structure NodeTree (τ π : Type) where
  erase : (Nat → HPackNode) → τ → Nat → τ
  find : (Nat → HPackNode) → τ → Bytes → Bytes → π
  add : (Nat → HPackNode) → τ → Nat → π → τ

structure ETblIter where
  first : Option Nat := none
  last : Option Nat := none
  rbLen : Nat := 0
  rbSize : Nat := hpackEncTableMaxSize
  size : Nat := 0

structure ETbl (τ : Type) extends ETblIter where
  window : Nat := hpackEncTableMaxSize
  wndChanged : Bool := false
  rbuf : Nat → HPackNode := fun _ => {}
  root : τ
  idxAcc : Nat := 0

/-- `HPACK_ALIGN(sizeof(TfwHPackNode) + hdr_len)` -/
def nodeLen (hdrLen : Nat) : Nat := (24+hdrLen+7)/8*8%2^16

/-- The variables of `tfw_hpack_rbuf_calc`. -/
structure RbufCalc (τ : Type) where
  first : Nat
  size : Nat
  rbLen : Nat
  rbSize : Nat
  delList : List Nat := []
  root : τ

section
variable {τ π : Type} (tree : NodeTree τ π)

/-- `false` is `-E2BIG`. -/
def rbufCalcLoop (rbuf : Nat → HPackNode) (last newSize : Nat) (del : Bool) :
    Nat → RbufCalc τ → Option (Bool×RbufCalc τ)
  | 0, _ => none
  | fuel+1, c =>
    if hpackMaxEncEviction≤c.delList.length ∧ del then some (false,c)
    else if c.size=0 then some (true,c)
    else
      let fLen := nodeLen (rbuf c.first).hdrLen
      let wrap := last<c.first ∧ (c.rbLen : Int)-fLen=last+nodeLen (rbuf last).hdrLen
      let c :=
        { first:=if wrap then 0 else c.first+fLen
          size:=sub 16 c.size (32+(rbuf c.first).hdrLen)
          rbLen:=sub 16 c.rbLen fLen
          rbSize:=if wrap then hpackEncTableMaxSize else c.rbSize
          delList:=if del then c.delList++[c.first] else c.delList
          root:=if del then c.root else tree.erase rbuf c.root c.first}
      if newSize<c.size then rbufCalcLoop rbuf last newSize del fuel c else some (true,c)

def rbufCalc (rbuf : Nat → HPackNode) (root : τ) (newSize : Nat) (del : Bool) (it : ETblIter) :
    Option (Bool×ETblIter×List Nat×τ) := (rbufCalcLoop tree rbuf (it.last.getD 0) newSize del (it.size+6)
      {first:=it.first.getD 0, size:=it.size, rbLen:=it.rbLen, rbSize:=it.rbSize, root:=root}).map
    fun (ok,c) =>
      (ok,if !ok then {it with rbSize:=c.rbSize}
        else if c.size≠0 then
          {it with size:=c.size, rbLen:=c.rbLen, first:=some c.first, rbSize:=c.rbSize}
        else {rbSize:=c.rbSize},c.delList,c.root)

def setRbufSize (tbl : ETbl τ) (newSize : Nat) : Option (ETbl τ) :=
  let newSize := min newSize hpackEncTableMaxSize
  if tbl.window≠newSize ∧ (!tbl.wndChanged ∨ tbl.window=0 ∨ newSize<tbl.window) then
    if newSize<tbl.size then
      (rbufCalc tree tbl.rbuf tbl.root newSize false tbl.toETblIter).map fun (_,it,_,root) =>
        {tbl with toETblIter:=it, root:=root, window:=newSize, wndChanged:=true}
    else some {tbl with window:=newSize, wndChanged:=true}
  else some tbl

def capped (val : Nat) : Nat := min val hpackEncTableMaxSize

/-- `HTTP2_SETTINGS_TABLE_SIZE` -/
def applyTableSize (tbl : ETbl τ) (val : Nat) : Option (ETbl τ) := setRbufSize tree tbl (capped val)

/-- The size update at the start of a header block -/
def encTblWriteSz (tbl : ETbl τ) : Option (Bytes×Nat)×ETbl τ :=
  if tbl.wndChanged then (some (writeInt tbl.window 0x1F 0x20),{tbl with wndChanged:=false}) else (none,tbl)

def rbufCommit (tbl : ETbl τ) (name val : Bytes) (delList : List Nat) (place : π) (it : ETblIter) : ETbl τ :=
  let root := delList.foldl (tree.erase tbl.rbuf) tbl.root
  let place := if delList=[] then place else tree.find tbl.rbuf root name val
  {tbl with toETblIter:=it, root:=tree.add tbl.rbuf root (it.last.getD 0) place}

/-- Where the ring buffer has room for a node of `len` bytes. -/
def nodePlace (rbuf : Nat → HPackNode) (it : ETblIter) (len : Nat) : Option ETblIter :=
  let last := it.last.getD 0
  let next := last+nodeLen (rbuf last).hdrLen
  let endSpace := sub 16 hpackEncTableMaxSize next
  if it.rbSize < it.rbLen+len then none
  else if it.first=none then some {it with first:=some 0, last:=some 0}
  else if it.first.getD 0≤last ∧ endSpace<len then
    if (it.rbSize : Int)-endSpace < it.rbLen+len then none
    else some {it with rbSize:=it.rbSize-endSpace, last:=some 0}
  else some {it with last:=some next}

/-- `tfw_hpack_add_node` from `commit` on -/
def commitNode (tbl : ETbl τ) (name val : Bytes) (delList : List Nat) (place : π) (it : ETblIter) : ETbl τ :=
  let hdrLen := name.length+val.length
  let last := it.last.getD 0
  let idxAcc := (tbl.idxAcc+1)%2^64
  let it := {it with size:=(it.size+hdrLen+32)%2^16, rbLen:=(it.rbLen+nodeLen hdrLen)%2^16}
  let node := {tbl.rbuf last with rindex:=idxAcc, nameLen:=name.length, hdrLen:=hdrLen}
  let tbl := rbufCommit tree {tbl with rbuf:=update tbl.rbuf last node, idxAcc:=idxAcc} name val delList
    place it
  {tbl with rbuf:=update tbl.rbuf last {node with hdr:=name++val}}

/-- `tfw_hpack_add_node`; `false` is `-E2BIG`. -/
def addNode (tbl : ETbl τ) (name val : Bytes) (place : π) : Option (Bool×ETbl τ) :=
  let hdrLen := name.length+val.length
  if tbl.window<hdrLen+32 then some (false,tbl)
  else
    (if tbl.window<(tbl.size+hdrLen+32)%2^16 then
        rbufCalc tree tbl.rbuf tbl.root (tbl.window-(hdrLen+32)) true tbl.toETblIter
      else some (true,tbl.toETblIter,[],tbl.root)).map fun (ok,it,delList,root) =>
      let tbl := {tbl with root:=root}
      if !ok then (false,tbl)
      else
        match nodePlace tbl.rbuf it (nodeLen hdrLen) with
        | none => (false,tbl)
        | some it => (true,commitNode tree tbl name val delList place it)

/-- With a list for the nodes to be deleted, the walk ends after a few of them and leaves the tree alone. -/
lemma rbufCalcLoop_del (rbuf : Nat → HPackNode) (last newSize fuel : Nat) {c : RbufCalc τ}
    (h : hpackMaxEncEviction<fuel+c.delList.length) (hf : fuel≠0) :
    ∃ok c',rbufCalcLoop tree rbuf last newSize true fuel c=some (ok,c') ∧ c'.root=c.root := by
  induction fuel generalizing c with
  | zero => exact absurd rfl hf
  | succ fuel ih =>
    simp only [rbufCalcLoop,and_true,if_true]
    split
    · exact ⟨_,_,rfl,rfl⟩
    split
    · exact ⟨_,_,rfl,rfl⟩
    split
    · exact ih (by rw [length_append,length_singleton]; omega) (by omega)
    · exact ⟨_,_,rfl,rfl⟩

/-- `tfw_hpack_add_node` always returns, and a node that it refuses leaves the whole table as it was. -/
theorem add_node_refused (tbl : ETbl τ) (name val : Bytes) (place : π) :
    ∃ok tbl',addNode tree tbl name val place=some (ok,tbl') ∧ (ok=false → tbl'=tbl) := by
  simp only [addNode]
  by_cases hbig : tbl.window<name.length+val.length+32
  · rw [if_pos hbig]
    exact ⟨_,_,rfl,fun _ => rfl⟩
  rw [if_neg hbig]
  obtain ⟨ok,it,dl,hc⟩ : ∃ok it dl,(if tbl.window<(tbl.size+(name.length+val.length)+32)%2^16 then
        rbufCalc tree tbl.rbuf tbl.root (tbl.window-(name.length+val.length+32)) true tbl.toETblIter
      else some (true,tbl.toETblIter,[],tbl.root))=some (ok,it,dl,tbl.root) := by
    split_ifs
    · obtain ⟨ok,c,hc,hroot⟩ := rbufCalcLoop_del tree tbl.rbuf (tbl.last.getD 0)
        (tbl.window-(name.length+val.length+32)) (tbl.size+6)
        (c := {first:=tbl.first.getD 0, size:=tbl.size, rbLen:=tbl.rbLen, rbSize:=tbl.rbSize, root:=tbl.root})
        (by unfold hpackMaxEncEviction; omega) (by omega)
      rw [rbufCalc,hc]
      exact ⟨_,_,_,congrArg (fun root => some (_,_,_,root)) hroot⟩
    · exact ⟨_,_,_,rfl⟩
  rw [hc,Option.map_some]
  cases ok with
  | false => exact ⟨_,_,rfl,fun _ => rfl⟩
  | true =>
    simp only [Bool.not_true,Bool.false_eq_true,if_false]
    cases nodePlace tbl.rbuf it (nodeLen (name.length+val.length)) with
    | none => exact ⟨_,_,rfl,fun _ => rfl⟩
    | some it' => exact ⟨_,_,rfl,nofun⟩

def noTree : NodeTree Unit Unit := ⟨fun _ _ _ => (),fun _ _ _ _ => (),fun _ _ _ _ => ()⟩

/-- A size of 0 is not announced when another one follows. -/
theorem table_size_zero_lost : (Run.run (applyTableSize noTree) {root:=()} [0,4096]).map (fun tbl =>
    (encTblWriteSz tbl).1)=some (some (writeInt 4096 0x1F 0x20)) := rfl

/-- Seven empty nodes, of which six would have to go -/
def fullTable : ETbl Unit := {first:=some 0, last:=some 144, rbLen:=168, size:=224, window:=256, root:=()}

theorem add_node_refused_eviction : ∃tbl,addNode noTree fullTable (replicate 161 97) [] ()=some (false,tbl) ∧
    tbl=fullTable := by
  have h : addNode noTree fullTable (replicate 161 97) [] ()=some (false,fullTable) := by
    simp only [addNode,length_replicate,length_nil]
    rfl
  obtain ⟨ok,tbl,hadd,hk⟩ := add_node_refused noTree fullTable (replicate 161 97) [] ()
  obtain ⟨rfl,-⟩ := Prod.mk.inj (Option.some_inj.1 (hadd.symm.trans h))
  exact ⟨tbl,hadd,hk rfl⟩
end
end VetWaf.Hpack
