import VetWaf.Base

namespace VetWaf.Rfc9113

/-- A frame on the wire. -/
structure Frame where
  header : Bytes
  payload : Bytes
  header_length : header.length=9
  payload_length : payload.length=ntoh (header.take 3)
  deriving DecidableEq

namespace Frame

def bytes (f : Frame) : Bytes := f.header++f.payload
lemma length_bytes (f : Frame) : f.bytes.length=9+f.payload.length := by rw [bytes,List.length_append,f.header_length]

end Frame

/-- The bytes of frames sent one after the other. -/
def stream (fs : List Frame) : Bytes := (fs.map Frame.bytes).flatten

@[simp] lemma stream_cons (f : Frame) (fs : List Frame) : stream (f::fs)=f.bytes++stream fs := by simp [stream]
end VetWaf.Rfc9113
