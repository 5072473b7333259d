import VetWaf.Hpack.Context

namespace VetWaf.Hpack

/-- What `tfw_hpack_cache_decode_expand` works on. -/
structure CacheDec where
  hp : TfwHPackCtx
  hdrData : TfwStr
  accLen : Nat
  out : Bytes
  deriving DecidableEq

namespace CacheDec

def sDlm : Bytes := ofAscii ": "
def sCrlf : Bytes := [13,10]
def expand (d : CacheDec) (data : Bytes) : CacheDec := {d with out:=d.out++data, accLen:=d.accLen+data.length}

/-- The label `out`: the local state is saved. -/
def leave (d : CacheDec) (state : HpackState) (r : Rc) : Rc×CacheDec := (r,{d with hp:={d.hp with state:=state}})

def getValueText (d : CacheDec) (src : Bytes) : Rc×CacheDec :=
  let mLen := min src.length d.hp.length
  let d := d.expand (src.take mLen)
  let d := {d with hp:={d.hp with length:=d.hp.length-mLen}}
  if d.hp.length≠0 then d.leave .valueText .ok
  else (.ok,d.expand sCrlf)

/-- The end of `HPACK_STATE_VALUE`, once the length is known. -/
def openValue (d : CacheDec) (length : Nat) (src : Bytes) : Rc×CacheDec :=
  let d := {d with hp:={d.hp with length:=length}}
  if src=[] then (d.expand sCrlf).leave .valueText .ok
  else d.getValueText src

/-- `HPACK_STATE_VALUE` -/
def getValue (d : CacheDec) (c : UInt8) (src : Bytes) : Rc×CacheDec :=
  let length := c.toNat%128
  if length=127 then
    match getFlexible length 0 src with
    | .limit x _ => {d with hp:={d.hp with length:=x}}.leave .value .compression
    | .more x m => {d with hp:={d.hp with length:=x, shift:=m}}.leave .valueLength .ok
    | .done x rest => d.openValue x rest
  else d.openValue length src

def writeNameText (d : CacheDec) (src : Bytes) : Rc×CacheDec :=
  let d := (d.expand d.hdrData.data).expand sDlm
  let d := {d with hdrData:=⟨[]⟩}
  match src with
  | [] => d.leave .value .ok
  | c::src => d.getValue c src

def getIndexedName (d : CacheDec) (src : Bytes) : Rc×CacheDec :=
  if d.hp.index=0 ∨ staticEntries<d.hp.index then d.leave .indexedNameText .compression
  else
    match (staticTable (κ := Unit))[d.hp.index-1]? with
    | none => d.leave .indexedNameText .compression
    | some entry =>
      if entry.nameNum≠1 then d.leave .indexedNameText .compression
      else {d with hdrData:=⟨[(entry.hdr.chunks.headD []).take entry.nameLen]⟩}.writeNameText src

def getNameText (d : CacheDec) (src : Bytes) : Rc×CacheDec :=
  let mLen := min src.length d.hp.length
  let d := {d with
    hdrData:=⟨d.hdrData.chunks++[src.take mLen]⟩
    hp:={d.hp with length:=d.hp.length-mLen}}
  if d.hp.length≠0 then d.leave .nameText .ok
  else d.writeNameText (src.drop mLen)

def openName (d : CacheDec) (length : Nat) (src : Bytes) : Rc×CacheDec :=
  let d := {d with hp:={d.hp with length:=length}}
  if src=[] then d.leave .nameText .ok else d.getNameText src

/-- `HPACK_STATE_NAME` -/
def getName (d : CacheDec) (c : UInt8) (src : Bytes) : Rc×CacheDec :=
  let length := c.toNat%128
  if length=127 then
    match getFlexible length 0 src with
    | .limit x _ => {d with hp:={d.hp with length:=x}}.leave .name .compression
    | .more x m => {d with hp:={d.hp with length:=x, shift:=m}}.leave .nameLength .ok
    | .done x rest => d.openName x rest
  else if length=0 then {d with hp:={d.hp with length:=0}}.leave .name .compression
  else d.openName length src

/-- The end of `HPACK_STATE_READY`, once the index is known. -/
def openIndex (d : CacheDec) (index : Nat) (src : Bytes) : Rc×CacheDec :=
  let d := {d with hp:={d.hp with index:=index}}
  match src with
  | [] => d.leave (if index≠0 then .indexedNameText else .name) .ok
  | c::src => if index≠0 then d.getIndexedName (c::src) else d.getName c src

/-- `HPACK_STATE_READY` -/
def getReady (d : CacheDec) (c : UInt8) (src : Bytes) : Rc×CacheDec :=
  if c.toNat/16≠0 then d.leave .ready .compression
  else if c.toNat%16=15 then
    match getFlexible 15 0 src with
    | .limit x _ => {d with hp:={d.hp with index:=x}}.leave .ready .compression
    | .more x m => {d with hp:={d.hp with index:=x, shift:=m}}.leave .index .ok
    | .done x rest => d.openIndex x rest
  else d.openIndex (c.toNat%16) src

/-- `HPACK_STATE_INDEX` -/
def contIndex (d : CacheDec) (c : UInt8) (src : Bytes) : Rc×CacheDec :=
  match getContinue d.hp.index d.hp.shift c src with
  | .limit x _ => {d with hp:={d.hp with index:=x}}.leave .index .compression
  | .more x m => {d with hp:={d.hp with index:=x, shift:=m}}.leave .index .ok
  | .done x rest =>
    let d := {d with hp:={d.hp with index:=x}}
    if rest=[] then d.leave .indexedNameText .ok else d.getIndexedName rest

/-- `HPACK_STATE_NAME_LENGTH` -/
def contNameLength (d : CacheDec) (c : UInt8) (src : Bytes) : Rc×CacheDec :=
  match getContinue d.hp.length d.hp.shift c src with
  | .limit x _ => {d with hp:={d.hp with length:=x}}.leave .nameLength .compression
  | .more x m => {d with hp:={d.hp with length:=x, shift:=m}}.leave .nameLength .ok
  | .done x rest => d.openName x rest

/-- `HPACK_STATE_VALUE_LENGTH` -/
def contValueLength (d : CacheDec) (c : UInt8) (src : Bytes) : Rc×CacheDec :=
  match getContinue d.hp.length d.hp.shift c src with
  | .limit x _ => {d with hp:={d.hp with length:=x}}.leave .valueLength .compression
  | .more x m => {d with hp:={d.hp with length:=x, shift:=m}}.leave .valueLength .ok
  | .done x rest =>
    let d := {d with hp:={d.hp with length:=x}}
    if rest=[] then d.leave .valueText .ok else d.getValueText rest

end CacheDec

open CacheDec in
/-- `tfw_hpack_cache_decode_expand` on a fragment. -/
def tfwHpackCacheDecodeExpand (d : CacheDec) : Bytes → Rc×CacheDec
  | [] => (.einval,d)
  | c::src =>
    match d.hp.state with
    | .ready => d.getReady c src
    | .name => d.getName c src
    | .indexedNameText => d.getIndexedName (c::src)
    | .nameText => d.getNameText (c::src)
    | .value => d.getValue c src
    | .valueText => d.getValueText (c::src)
    | .index => d.contIndex c src
    | .nameLength => d.contNameLength c src
    | .valueLength => d.contValueLength c src
    | .allIndexed | .dtSzUpd => d.leave d.hp.state .compression

/-- `tfw_cache_h2_decode_write` from the chunks that hold the `len` bytes of one header. -/
def tfwCacheH2DecodeWrite (d : CacheDec) (len : Nat) : List Bytes → Rc×CacheDec
  | [] => (.einval,d)
  | tr::trs =>
    let mLen := min tr.length len
    match tfwHpackCacheDecodeExpand d (tr.take mLen) with
    | (.ok,d) =>
      if mLen=len then (.ok,{d with hdrData:=⟨[]⟩})
      else tfwCacheH2DecodeWrite d (len-mLen) trs
    | (r,d) => (r,d)
end VetWaf.Hpack
