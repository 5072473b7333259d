import VetWaf.Hpack.StaticTable
import VetWaf.Hpack.IntDecode

namespace VetWaf.Hpack

/-- The values of `state & HPACK_STATE_MASK`. -/
inductive HpackState where
  | ready | index | name | nameLength | nameText | indexedNameText | value | valueLength
  | valueText | allIndexed | dtSzUpd
  deriving DecidableEq

/-- The `HPACK_FLAGS_*` bits that are kept next to the state. -/
structure HpackFlags where
  add : Bool
  noValue : Bool
  transit : Bool
  huffmanName : Bool
  huffmanValue : Bool
  deriving DecidableEq

def HpackFlags.none : HpackFlags := ⟨false,false,false,false,false⟩

/-- The scalar members of `TfwHPack`, those that a suspended decoder resumes from. -/
structure TfwHPackCtx where
  length : Nat
  curr : Int
  hctx : Nat
  offset : Nat
  state : HpackState
  flags : HpackFlags
  shift : Nat
  index : Nat
  deriving DecidableEq

/-- `TfwHPack hp = {}` -/
def TfwHPackCtx.zero : TfwHPackCtx := ⟨0,0,0,0,.ready,.none,0,0⟩
end VetWaf.Hpack
