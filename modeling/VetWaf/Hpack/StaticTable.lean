import VetWaf.Base

namespace VetWaf.Hpack

inductive TfwHPackTag where
  | h2Status | h2Method | h2Scheme | h2Authority | h2Path
  | accept | authorization | cacheControl | contentEncoding | contentLength | contentType
  | cookie | expect | ifNoneMatch | host | ifModifiedSince | pragma | referer | xForwardedFor
  | forwarded | userAgent | transferEncoding | xMethodOverride | raw
  deriving DecidableEq

/-- An entry of the decoder index. -/
structure TfwHPackEntry (κ : Type) where
  hdr : TfwStr
  nameLen : Nat
  nameNum : Nat
  tag : TfwHPackTag
  cstate : κ
  deriving DecidableEq

def entryOverhead : Nat := 32
def staticEntries : Nat := 61
def ofAscii (s : String) : Bytes := s.toList.map fun c => UInt8.ofNat c.toNat

section
variable {κ : Type} [Inhabited κ]
def hpEntryName (name : String) (tag : TfwHPackTag) : TfwHPackEntry κ := ⟨⟨[ofAscii name]⟩,name.length,1,tag,default⟩

def hpEntryFull (name value : String) (tag : TfwHPackTag) : TfwHPackEntry κ :=
  ⟨⟨[ofAscii name,ofAscii value]⟩,name.length,1,tag,default⟩

def staticTable : List (TfwHPackEntry κ) := [hpEntryName ":authority" .h2Authority,
  hpEntryFull ":method" "GET" .h2Method,hpEntryFull ":method" "POST" .h2Method,hpEntryFull ":path" "/" .h2Path,
  hpEntryFull ":path" "/index.html" .h2Path,hpEntryFull ":scheme" "http" .h2Scheme,
  hpEntryFull ":scheme" "https" .h2Scheme,hpEntryFull ":status" "200" .h2Status,hpEntryFull ":status" "204" .h2Status,
  hpEntryFull ":status" "206" .h2Status,hpEntryFull ":status" "304" .h2Status,hpEntryFull ":status" "400" .h2Status,
  hpEntryFull ":status" "404" .h2Status,hpEntryFull ":status" "500" .h2Status,hpEntryName "accept-charset" .raw,
  hpEntryFull "accept-encoding" "gzip, deflate" .raw,hpEntryName "accept-language" .raw,
  hpEntryName "accept-ranges" .raw,hpEntryName "accept" .accept,hpEntryName "access-control-allow-origin" .raw,
  hpEntryName "age" .raw,hpEntryName "allow" .raw,hpEntryName "authorization" .authorization,
  hpEntryName "cache-control" .cacheControl,hpEntryName "content-disposition" .raw,
  hpEntryName "content-encoding" .contentEncoding,hpEntryName "content-language" .raw,
  hpEntryName "content-length" .contentLength,hpEntryName "content-location" .raw,hpEntryName "content-range" .raw,
  hpEntryName "content-type" .contentType,hpEntryName "cookie" .cookie,hpEntryName "date" .raw,
  hpEntryName "etag" .ifNoneMatch,hpEntryName "expect" .expect,hpEntryName "expires" .raw,hpEntryName "from" .raw,
  hpEntryName "host" .host,hpEntryName "if-match" .raw,hpEntryName "if-modified-since" .ifModifiedSince,
  hpEntryName "if-none-match" .ifNoneMatch,hpEntryName "if-range" .raw,hpEntryName "if-unmodified-since" .raw,
  hpEntryName "last-modified" .raw,hpEntryName "link" .raw,hpEntryName "location" .raw,hpEntryName "max-forwards" .raw,
  hpEntryName "proxy-authenticate" .raw,hpEntryName "proxy-authorization" .raw,hpEntryName "range" .raw,
  hpEntryName "referer" .referer,hpEntryName "refresh" .raw,hpEntryName "retry-after" .raw,
  hpEntryName "server" .userAgent,hpEntryName "set-cookie" .raw,hpEntryName "strict-transport-security" .raw,
  hpEntryName "transfer-encoding" .transferEncoding,hpEntryName "user-agent" .userAgent,hpEntryName "vary" .raw,
  hpEntryName "via" .raw,hpEntryName "www-authenticate" .raw]

lemma staticTable_length : (staticTable : List (TfwHPackEntry κ)).length=staticEntries := rfl
end
end VetWaf.Hpack
