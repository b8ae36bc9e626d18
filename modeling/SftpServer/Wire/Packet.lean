import SftpServer.Foundations.ByteSource
import SftpServer.Wire.Messages

/-! Framing (`wire/packet.go`): a packet is its length, its type and its payload. A reader
that is given any stream of whole packets, in pieces of any size, takes them back one by one.
-/

namespace SftpServer.Wire

open SftpServer.Foundations

/-- `wire.MaxPacket`, 260 KiB: the type byte and the payload, without the length. -/
def maxPacket : Nat := 266240

structure Packet where
  typ : UInt8
  payload : Bytes
  deriving DecidableEq, Repr

/-- How reading or writing a packet fails: with the stream's own error, `ErrPacketEmpty` or
`ErrPacketTooLarge`.
-/
inductive PacketError where
  | stream (err : ReadError)
  | empty
  | tooLarge
  deriving DecidableEq, Repr

/-- What `ReadPacket` returns: the packet, the buffer to pass in again, and the stream. -/
structure PacketResult (σ : Type) where
  packet : Except PacketError Packet
  next : Bytes
  later : σ

/-- `ReadPacket`. `buf` is the caller's buffer up to its capacity; the packet that is returned
is read in it, or in a larger one if it does not fit.
-/
def readPacket {σ : Type} (source : Source σ) (buf : Bytes) (max : Int) (s : σ)
    : PacketResult σ :=
  let max := if max ≤ 0 then maxPacket else max.toNat
  let hdr := source.readFull 4 s
  match hdr.err with
  | some err => { packet := .error (.stream err), next := buf, later := hdr.later }
  | none =>
      let n := BigEndian.decode hdr.got
      if n = 0 then { packet := .error .empty, next := buf, later := hdr.later }
      else if max < n then { packet := .error .tooLarge, next := buf, later := hdr.later }
      else
        let buf := if buf.length < n then List.replicate n 0 else buf
        let body := source.readFull n hdr.later
        -- The bytes that arrived stand at the front of the buffer, also when too few did.
        let buf := body.got ++ buf.drop body.got.length
        match body.err with
        | some err =>
            -- An end right after the header is not a clean one.
            let err := if err = .eof then .unexpectedEof else err
            { packet := .error (.stream err), next := buf, later := body.later }
        | none =>
            -- There is a type byte: the length is not zero.
            let packet := { typ := buf.headD 0, payload := (buf.take n).tail }
            { packet := .ok packet, next := buf, later := body.later }

/-- `WritePacket`: what is written, in one call, and the scratch buffer to pass in again. -/
def writePacket (typ : UInt8) (payload out : Bytes) : Except PacketError Bytes × Bytes :=
  let total := 1 + payload.length
  if maxPacket < total then (.error .tooLarge, out)
  else
    let out := BigEndian.encode 4 total ++ typ :: payload
    (.ok out, out)

/-- `Send`: a message, framed and written. -/
def send (m : Message) (out : Bytes) : Except PacketError Bytes × Bytes :=
  writePacket m.type m.payload out

/-- A packet on the wire. -/
def Packet.frame (p : Packet) : Bytes :=
  BigEndian.encode 4 (1 + p.payload.length) ++ p.typ :: p.payload

/-- The type byte and the payload are within a limit; a non-positive one is `MaxPacket`. -/
def Packet.Fits (limit : Int) (p : Packet) : Prop :=
  1 + p.payload.length ≤ maxPacket
  ∧ 1 + p.payload.length ≤ if limit ≤ 0 then maxPacket else limit.toNat

theorem writePacket_frame {p : Packet} (small : 1 + p.payload.length ≤ maxPacket)
    (out : Bytes)
    : (writePacket p.typ p.payload out).1 = .ok p.frame := by
  rw [writePacket, if_neg (by omega), Packet.frame]

theorem Packet.length_frame (p : Packet) : p.frame.length = 5 + p.payload.length := by
  simp only [frame, List.length_append, BigEndian.length_encode, List.length_cons]
  omega

/-- The length in front of a packet is not mis-stated. -/
theorem Packet.decode_length {p : Packet} (small : 1 + p.payload.length ≤ maxPacket)
    : BigEndian.decode (BigEndian.encode 4 (1 + p.payload.length)) = 1 + p.payload.length := by
  have bound : maxPacket = 266240 := rfl
  rw [BigEndian.decode_encode]
  exact Nat.mod_eq_of_lt (by omega)

section

variable {σ : Type} {source : Source σ} {s : σ} {limit : Int} {p : Packet}

/-- A packet that is there is read, whatever stands in the buffer, and nothing beyond it. -/
theorem readPacket_whole {rest : Bytes} (fits : p.Fits limit)
    (unread : source.unread s = p.frame ++ rest) (buf : Bytes)
    : (readPacket source buf limit s).packet = .ok p
      ∧ source.unread (readPacket source buf limit s).later = rest := by
  have total := p.length_frame
  have split : source.unread s
      = BigEndian.encode 4 (1 + p.payload.length) ++ (p.typ :: p.payload ++ rest) := by
    rw [unread, Packet.frame, List.append_assoc]
  have header := BigEndian.length_encode 4 (1 + p.payload.length)
  obtain ⟨hdr, ok, after⟩ := source.readFull_whole 4 s
    (by rw [split, List.length_append]; omega)
  rw [split, List.take_left' header] at hdr
  rw [split, List.drop_left' header] at after
  obtain ⟨body, whole, left⟩ :=
    source.readFull_whole (1 + p.payload.length) (source.readFull 4 s).later
      (by rw [after]; simp only [List.length_append, List.length_cons]; omega)
  have length : (p.typ :: p.payload).length = 1 + p.payload.length := by
    rw [List.length_cons, Nat.add_comm]
  rw [after, List.take_left' length] at body
  rw [after, List.drop_left' length] at left
  have nonzero : ¬ 1 + p.payload.length = 0 := by omega
  simp only [readPacket, ok, hdr, Packet.decode_length fits.1, if_neg nonzero,
    if_neg (not_lt.mpr fits.2), whole, body, List.take_left' length]
  exact ⟨rfl, left⟩

/-- A stream that ends inside a packet, or right before it. -/
theorem readPacket_cut (fits : p.Fits limit) (inside : source.unread s <+: p.frame)
    (strict : source.unread s ≠ p.frame) (buf : Bytes)
    : (readPacket source buf limit s).packet
      = .error (.stream (if source.unread s = [] then .eof else .unexpectedEof)) := by
  have header := BigEndian.length_encode 4 (1 + p.payload.length)
  have total := p.length_frame
  have less : (source.unread s).length < p.frame.length :=
    lt_of_le_of_ne inside.length_le fun same => strict (inside.eq_of_length same)
  by_cases few : (source.unread s).length < 4
  · obtain ⟨failed, _⟩ := source.readFull_short _ _ few
    simp only [readPacket, failed]
  · -- The header is whole, so there are fewer bytes than it announces.
    obtain ⟨hdr, ok, after⟩ := source.readFull_whole 4 s (by omega)
    obtain ⟨missing, whole⟩ := inside
    have spelled : (source.unread s).take 4 = BigEndian.encode 4 (1 + p.payload.length) := by
      rw [← List.take_left' header, ← Packet.frame, ← whole,
        List.take_append_of_le_length (by omega)]
    have some_read : source.unread s ≠ [] := by
      rintro empty
      simp [empty] at few
    have short : (source.unread (source.readFull 4 s).later).length
        < 1 + p.payload.length := by
      rw [after, List.length_drop]
      omega
    obtain ⟨failed, _⟩ := source.readFull_short _ _ short
    have nonzero : ¬ 1 + p.payload.length = 0 := by omega
    simp only [readPacket, ok, hdr, spelled, Packet.decode_length fits.1, if_neg nonzero,
      if_neg (not_lt.mpr fits.2), failed, if_neg some_read]
    by_cases nothing : source.unread (source.readFull 4 s).later = []
    · simp only [if_pos nothing, if_true]
    · simp only [if_neg nothing, reduceCtorEq, if_false]

/-- What every read of the stream keeps, reading a packet keeps. -/
theorem readPacket_keeps {P : σ → Prop} (holds : P s)
    (keeps : ∀ {room s}, 0 < room → P s → P (source.read room s).later) (buf : Bytes)
    : P (readPacket source buf limit s).later := by
  have header : P (source.readFull 4 s).later := source.readFull_keeps 4 holds keeps
  simp only [readPacket]
  generalize (if limit ≤ 0 then maxPacket else limit.toNat) = ceiling
  split
  · exact header
  · split
    · exact header
    · split
      · exact header
      · split
        · exact source.readFull_keeps _ header keeps
        · exact source.readFull_keeps _ header keeps

end

-----------------------------------------------------------------------------------------
-- Packets in a row
-----------------------------------------------------------------------------------------

/-- Packets one after the other on the wire. -/
def frames (ps : List Packet) : Bytes := ps.flatMap Packet.frame

@[simp]
theorem frames_nil : frames [] = [] := rfl

@[simp]
theorem frames_cons (p : Packet) (ps : List Packet)
    : frames (p :: ps) = p.frame ++ frames ps :=
  List.flatMap_cons

/-- The packets of which the first `k` bytes hold the whole. -/
def wholeWithin : List Packet → (k : Nat) → List Packet
  | [], _ => []
  | p :: ps, k => if p.frame.length ≤ k then p :: wholeWithin ps (k - p.frame.length) else []

theorem mem_of_mem_wholeWithin {q : Packet} {ps : List Packet} {k : Nat}
    (member : q ∈ wholeWithin ps k)
    : q ∈ ps := by
  fun_induction wholeWithin ps k with
  | case1 => exact member
  | case2 p ps k first ih =>
      rcases List.mem_cons.mp member with rfl | later
      · exact List.mem_cons_self
      · exact List.mem_cons_of_mem p (ih later)
  | case3 => cases member

/-- Between two packets, before the first or after the last. -/
def IsBoundary (ps : List Packet) (k : Nat) : Prop := ∃ j, k = (frames (ps.take j)).length

theorem isBoundary_cons_iff {p : Packet} {ps : List Packet} {k : Nat}
    : IsBoundary (p :: ps) k
      ↔ k = 0 ∨ p.frame.length ≤ k ∧ IsBoundary ps (k - p.frame.length) := by
  constructor
  · intro between
    obtain ⟨j, same⟩ := between
    cases j with
    | zero => exact .inl same
    | succ j =>
        rw [List.take_succ_cons, frames_cons, List.length_append] at same
        exact .inr ⟨by omega, j, by omega⟩
  · intro between
    rcases between with zero | ⟨first, j, same⟩
    · exact ⟨0, zero⟩
    · exact ⟨j + 1, by rw [List.take_succ_cons, frames_cons, List.length_append]; omega⟩

/-- One call of `ReadPacket` for each buffer, each on the stream the one before left. -/
def readPackets {σ : Type} (source : Source σ) (limit : Int)
    : (bufs : List Bytes) → σ → List (Except PacketError Packet) × σ
  | [], s => ([], s)
  | buf :: bufs, s =>
      let first := readPacket source buf limit s
      let rest := readPackets source limit bufs first.later
      (first.packet :: rest.1, rest.2)

/-- Where a stream of packets is cut: whole packets, then nothing at a boundary and a strict
part of one packet elsewhere; by induction on the packets.
-/
theorem take_frames (ps : List Packet) {k : Nat} (within : k ≤ (frames ps).length)
    : ∃ rest,
        (frames ps).take k = frames (wholeWithin ps k) ++ rest
        ∧ (rest = [] ↔ IsBoundary ps k)
        ∧ (rest = [] ∨ ∃ p ∈ ps, rest <+: p.frame ∧ rest ≠ p.frame) := by
  induction ps generalizing k with
  | nil =>
      have zero : k = 0 := by simpa using within
      exact ⟨[], by simp [zero, wholeWithin], by simp [IsBoundary, zero], .inl rfl⟩
  | cons p ps ih =>
      have length := p.length_frame
      rw [frames_cons, List.length_append] at within
      by_cases first : p.frame.length ≤ k
      · obtain ⟨rest, split, boundary, shape⟩ := ih (k := k - p.frame.length) (by omega)
        refine ⟨rest, ?_, ?_, ?_⟩
        · rw [wholeWithin, if_pos first, frames_cons, frames_cons, List.append_assoc, ← split,
            List.take_append, List.take_of_length_le first]
        · have nonzero : ¬ k = 0 := by omega
          simp only [isBoundary_cons_iff, nonzero, first, boundary, true_and, false_or]
        · rcases shape with nothing | ⟨q, member, inside⟩
          · exact .inl nothing
          · exact .inr ⟨q, List.mem_cons_of_mem p member, inside⟩
      · refine ⟨p.frame.take k, ?_, ?_, ?_⟩
        · rw [wholeWithin, if_neg first, frames_cons, List.take_append_of_le_length (by omega)]
          rfl
        · have some_bytes : p.frame ≠ [] := List.length_pos_iff.mp (by omega)
          simp only [isBoundary_cons_iff, first, false_and, or_false, List.take_eq_nil_iff,
            some_bytes]
        · refine .inr ⟨p, by simp, List.take_prefix k _, fun same => ?_⟩
          have all := congrArg List.length same
          rw [List.length_take] at all
          omega

section

variable {σ : Type} {source : Source σ} {limit : Int}

/-- Whole packets at the front of a stream are read one by one, by induction on the calls. -/
theorem readPackets_whole {ps : List Packet} (fits : ∀ p ∈ ps, p.Fits limit) {rest : Bytes}
    (bufs : List Bytes) (few : bufs.length ≤ ps.length) {s : σ}
    (unread : source.unread s = frames ps ++ rest)
    : (readPackets source limit bufs s).1 = (ps.take bufs.length).map .ok
      ∧ source.unread (readPackets source limit bufs s).2
        = frames (ps.drop bufs.length) ++ rest := by
  induction bufs generalizing ps s with
  | nil => exact ⟨rfl, unread⟩
  | cons buf bufs ih =>
      cases ps with
      | nil => simp at few
      | cons p ps =>
          rw [frames_cons, List.append_assoc] at unread
          obtain ⟨first, after⟩ := readPacket_whole (fits p (by simp)) unread buf
          obtain ⟨later, left⟩ := ih (fun q member => fits q (by simp [member]))
            (by simpa using few) after
          refine ⟨?_, left⟩
          rw [readPackets, List.length_cons, List.take_succ_cons, List.map_cons, first, later]

/-- The call after the last whole packet tells a clean end from a cut packet. -/
theorem readPacket_rest {s : σ}
    (shape : source.unread s = []
      ∨ ∃ p : Packet,
          p.Fits limit ∧ source.unread s <+: p.frame ∧ source.unread s ≠ p.frame)
    (buf : Bytes)
    : (readPacket source buf limit s).packet
      = .error (.stream (if source.unread s = [] then .eof else .unexpectedEof)) := by
  rcases shape with nothing | ⟨p, fits, inside, strict⟩
  · obtain ⟨failed, _⟩ := source.readFull_short 4 s (by simp [nothing])
    simp only [readPacket, failed]
  · exact readPacket_cut fits inside strict buf

end

end SftpServer.Wire
