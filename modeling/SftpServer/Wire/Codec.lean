import SftpServer.Foundations.BigEndian

/-! The SSH encoding of `wire/codec.go`: an encoder that appends to a buffer and a decoder
that moves an offset through one. A failed decode keeps whatever it had consumed.
-/

namespace SftpServer.Wire

open SftpServer.Foundations

/-- The bytes of a Go string literal. -/
def text (literal : String) : Bytes := literal.toUTF8.data.toList

/-- The errors of a decoder: `ErrShort`, `ErrLimit` and `ErrTrailing`. -/
inductive WireError where
  | errShort
  | errLimit
  | errTrailing
  deriving DecidableEq, Repr

/-- What `Error()` prints. -/
def WireError.message : WireError → Bytes
  | .errShort => text "wire: buffer too short"
  | .errLimit => text "wire: length exceeds limit"
  | .errTrailing => text "wire: trailing bytes after message"

/-- The ceiling on one variable-length item, 256 KiB. -/
def defaultLimit : Nat := 262144

structure Encoder where
  buf : Bytes

def newEncoder : Encoder := ⟨[]⟩

namespace Encoder

def uint32 (e : Encoder) (v : UInt32) : Encoder := ⟨e.buf ++ BigEndian.encode 4 v.toNat⟩

def uint64 (e : Encoder) (v : UInt64) : Encoder := ⟨e.buf ++ BigEndian.encode 8 v.toNat⟩

/-- The length goes out as a `uint32`, so a longer string would be mis-stated. -/
def blob (e : Encoder) (b : Bytes) : Encoder :=
  ⟨(e.uint32 (UInt32.ofNat b.length)).buf ++ b⟩

def string (e : Encoder) (s : Bytes) : Encoder :=
  ⟨(e.uint32 (UInt32.ofNat s.length)).buf ++ s⟩

/-- `e.buf = append(e.buf, data...)`, used for the opaque tail of an extension. -/
def raw (e : Encoder) (data : Bytes) : Encoder := ⟨e.buf ++ data⟩

end Encoder

structure Decoder where
  buf : Bytes
  off : Nat
  limit : Int
  deriving DecidableEq, Repr

def newDecoder (buf : Bytes) : Decoder := { buf, off := 0, limit := 0 }

namespace Decoder

/-- The ceiling in force; a non-positive limit is the default one. -/
def cap (d : Decoder) : Nat := if d.limit ≤ 0 then defaultLimit else d.limit.toNat

/-- How many undecoded bytes are left. -/
def remaining (d : Decoder) : Int := d.buf.length - d.off

/-- The undecoded bytes, `d.buf[d.off:]`. -/
def rest (d : Decoder) : Bytes := d.buf.drop d.off

def setLimit (d : Decoder) (n : Int) : Decoder := { d with limit := n }

end Decoder

/-- A decoding step: its outcome together with the decoder it leaves behind. -/
abbrev Decode := ExceptT WireError (StateM Decoder)

namespace Decode

/-- `Decoder.End`. -/
def done : Decode Unit := fun d =>
  if d.remaining ≠ 0 then (.error .errTrailing, d) else (.ok (), d)

/-- `Decoder.Remaining`, as a step. -/
def remaining : Decode Int := fun d => (.ok d.remaining, d)

def byte : Decode UInt8 := fun d =>
  if d.remaining < 1 then (.error .errShort, d)
  else (.ok (d.rest.headD 0), { d with off := d.off + 1 })

def uint32 : Decode UInt32 := fun d =>
  if d.remaining < 4 then (.error .errShort, d)
  else
    (.ok (UInt32.ofNat (BigEndian.decode (d.rest.take 4))), { d with off := d.off + 4 })

def uint64 : Decode UInt64 := fun d =>
  if d.remaining < 8 then (.error .errShort, d)
  else
    (.ok (UInt64.ofNat (BigEndian.decode (d.rest.take 8))), { d with off := d.off + 8 })

def int64 : Decode Int64 := do
  let v ← uint64
  pure v.toInt64

/-- The copy of `n` bytes that ends `Decoder.Blob`, with its two refusals. -/
def take (n : Nat) : Decode Bytes := fun d =>
  if d.cap < n then (.error .errLimit, d)
  else if d.remaining < n then (.error .errShort, d)
  else (.ok (d.rest.take n), { d with off := d.off + n })

/-- The length prefix stays consumed when the body is refused. -/
def blob : Decode Bytes := do
  let n ← uint32
  take n.toNat

def string : Decode Bytes := blob

/-- All that is left, for the opaque tail of an extension; the offset does not move. -/
def tail : Decode Bytes := fun d => (.ok d.rest, d)

/-- Decode a payload from its start, as `NewDecoder` followed by the reads. -/
def run {α : Type} (payload : Bytes) (decode : Decode α) : Except WireError α :=
  (decode (newDecoder payload)).1

/-- A step that succeeds hands its value and decoder to the next one. -/
theorem bind_ok {α β : Type} {decode : Decode α} {next : α → Decode β} {d later : Decoder}
    {value : α} (ok : decode d = (.ok value, later))
    : (decode >>= next) d = next value later := by
  simp only [bind, ExceptT.bind, ExceptT.mk, StateT.bind, ok]
  rfl

/-- A step that fails ends the decoding. -/
theorem bind_error {α β : Type} {decode : Decode α} {next : α → Decode β}
    {d later : Decoder} {err : WireError} (failed : decode d = (.error err, later))
    : (decode >>= next) d = (.error err, later) := by
  simp only [bind, ExceptT.bind, ExceptT.mk, StateT.bind, failed]
  rfl

/-- A sequence that succeeds is two steps that do. -/
theorem bind_inv {α β : Type} {decode : Decode α} {next : α → Decode β} {d final : Decoder}
    {result : β} (ok : (decode >>= next) d = (.ok result, final))
    : ∃ value later, decode d = (.ok value, later) ∧ next value later = (.ok result, final) := by
  rcases outcome : decode d with ⟨err | value, later⟩
  · rw [bind_error outcome] at ok
    cases ok
  · rw [bind_ok outcome] at ok
    exact ⟨value, later, rfl, ok⟩

/-- What a payload decodes to, its decoder returns. -/
theorem run_inv {α : Type} {payload : Bytes} {decode : Decode α} {value : α}
    (decodes : run payload decode = .ok value)
    : ∃ later, decode (newDecoder payload) = (.ok value, later) :=
  ⟨_, Prod.ext decodes rfl⟩

theorem limit_uint32 {d later : Decoder} {v : UInt32} (ok : uint32 d = (.ok v, later))
    : later.limit = d.limit := by
  simp only [uint32] at ok
  split at ok
  · cases ok
  · cases ok
    rfl

theorem limit_uint64 {d later : Decoder} {v : UInt64} (ok : uint64 d = (.ok v, later))
    : later.limit = d.limit := by
  simp only [uint64] at ok
  split at ok
  · cases ok
  · cases ok
    rfl

theorem limit_take {n : Nat} {d later : Decoder} {s : Bytes} (ok : take n d = (.ok s, later))
    : later.limit = d.limit := by
  simp only [take] at ok
  split at ok
  · cases ok
  split at ok
  · cases ok
  · cases ok
    rfl

theorem limit_string {d later : Decoder} {s : Bytes} (ok : string d = (.ok s, later))
    : later.limit = d.limit := by
  obtain ⟨n, middle, counted, taken⟩ := bind_inv ok
  exact (limit_take taken).trans (limit_uint32 counted)

/-- A string that is decoded is within the default limit. -/
theorem length_string {d later : Decoder} {s : Bytes} (limit : d.limit ≤ 0)
    (ok : string d = (.ok s, later))
    : s.length ≤ defaultLimit := by
  obtain ⟨n, middle, counted, taken⟩ := bind_inv ok
  have same := limit_uint32 counted
  simp only [take, Decoder.cap, same, if_pos limit] at taken
  split at taken
  · cases taken
  split at taken
  · cases taken
  rename_i small _
  cases taken
  have cut := List.length_take_le n.toNat middle.rest
  omega

end Decode

end SftpServer.Wire
