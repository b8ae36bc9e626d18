import SftpServer.Correctness.ReplySizes

/-! The lengths a server announces (`limits.go`). A WRITE of the announced length is taken in
whole under any packet limit that can carry one byte, and the DATA that answers a READ is
within what a client of OpenSSH takes.
-/

namespace SftpServer.Sftp

open SftpServer.Foundations
open SftpServer.Wire

/-- OpenSSH's `SFTP_MAX_MSG_LENGTH`, 256 KiB. -/
def sftpMaxMsgLength : Nat := 262144

/-- The smallest packet limit a WRITE of one byte fits. -/
def leastWriteLimit : Nat := 54

-----------------------------------------------------------------------------------------
-- WRITE requests
-----------------------------------------------------------------------------------------

/-- A token that was added is as long as the random bytes it was made of, twice. -/
theorem length_of_added {t later : Handles} {h : OpenFile} {calls : List Event} {tok : Bytes}
    (added : (t.add h).Runs calls (.ok (tok, later)))
    : tok.length = 2 * handleBytes := by
  obtain ⟨answer, rest, rfl, left⟩ := Interaction.runs_call_iff.mp added
  rcases answer with err | drawn
  · exact nomatch (Interaction.runs_ret_iff.mp left).2
  · have same := (Interaction.runs_ret_iff.mp left).2
    simp only [Except.ok.injEq, Prod.mk.injEq] at same
    rw [same.1, length_hexEncode, Vector.length_toList]

theorem length_writeRequest (m : WriteRequest)
    : (Message.writeRequest m).payload.length = 20 + m.handle.length + m.data.length := by
  simp only [Message.payload_eq_bytes, Message.bytes, List.length_append,
    BigEndian.length_encode, length_lengthPrefixed]
  omega

/-- Also below the overhead, where one byte is announced. -/
theorem writeLength_room {srv : Server} (room : leastWriteLimit ≤ srv.packetLimit)
    : 21 + 2 * handleBytes + srv.writeLength ≤ srv.packetLimit := by
  have least : leastWriteLimit = 54 := rfl
  have half : handleBytes = 16 := rfl
  have overhead : writeOverhead = 57 := rfl
  unfold Server.writeLength
  omega

theorem writeLength_le (srv : Server) : srv.writeLength ≤ maxReadLength :=
  max_le (Nat.min_le_left _ _) (by decide)

/-- A WRITE of the announced length, as a packet. -/
theorem write_packet_fits {srv : Server} {m : WriteRequest}
    (room : leastWriteLimit ≤ srv.packetLimit) (handle : m.handle.length = 2 * handleBytes)
    (within : m.data.length ≤ srv.writeLength)
    : 1 + (Message.writeRequest m).payload.length ≤ srv.packetLimit
      ∧ Packet.Fits srv.packetLimit ⟨fxpWrite, (Message.writeRequest m).payload⟩ := by
  have least : leastWriteLimit = 54 := rfl
  have bound : maxPacket = 266240 := rfl
  have limit : maxReadLength = 261120 := rfl
  have half : handleBytes = 16 := rfl
  have announced := writeLength_room room
  have capped := writeLength_le srv
  have length := length_writeRequest m
  have small : 1 + (Message.writeRequest m).payload.length ≤ srv.packetLimit := by omega
  refine ⟨small, by dsimp only; omega, ?_⟩
  rw [if_neg (by omega), Int.toNat_natCast]
  exact small

theorem decodeWrite_announced {srv : Server} {m : WriteRequest}
    (handle : m.handle.length = 2 * handleBytes) (within : m.data.length ≤ srv.writeLength)
    : decodeWrite (Message.writeRequest m).payload = .ok m := by
  have capped : m.data.length ≤ defaultLimit :=
    within.trans ((writeLength_le srv).trans (by decide))
  rw [Message.payload_eq_bytes]
  exact (decodeWrite_delimits (handle.trans_le (by decide)) capped).whole

-----------------------------------------------------------------------------------------
-- DATA replies
-----------------------------------------------------------------------------------------

/-- What a READ is answered with, whatever it asks for. -/
theorem answer_readReply {srv : Server} {t later : Handles} {payload : Bytes}
    {calls : List Event} {reply : Message}
    (runs : (answer srv t fxpRead payload).Runs calls (reply, later))
    (short : ∀ event ∈ calls, ShortRead event)
    : ReadReply maxReadLength reply := by
  have preparation := prepare_preparation srv t fxpRead payload
  unfold answer at runs
  generalize kind : fxpRead = typ at preparation runs
  generalize prepare srv t typ payload = prepared at preparation runs
  cases preparation with
  | barrier noRead => exact absurd kind.symm noRead
  | refused _ _ small =>
      obtain ⟨_, same⟩ := Interaction.runs_ret_iff.mp runs
      cases same
      exact .refused (small.trans (by decide))
  | readsNothing =>
      obtain ⟨_, same⟩ := Interaction.runs_ret_iff.mp runs
      cases same
      exact .data (Nat.zero_le _)
  | readsAt =>
      obtain ⟨inner, seen, runs⟩ := runs_keeping runs
      have reads := lockedReadAt_readReply runs fun event member => short event (seen member)
      exact reads.mono (readLength_le srv _)
  | readsWhole =>
      obtain ⟨inner, _, runs⟩ := runs_keeping runs
      exact (lockedReadWhole_readReply runs).mono (readLength_le srv _)
  | writesAt => exact nomatch kind
  | rewrites => exact nomatch kind

/-- As it is sent: the length, the type, the id and the data with its own length. -/
theorem frame_data (m : DataReply) (short : m.data.length ≤ maxReadLength) (out : Bytes)
    : ∃ framed,
        (frame (.dataReply m) out).1 = .ok framed ∧ framed.length = 13 + m.data.length := by
  have fits : Fits (.dataReply m) := fits_data m.id short
  refine ⟨_, writePacket_frame (p := ⟨fxpData, (Message.dataReply m).payload⟩) fits out, ?_⟩
  simp only [Packet.length_frame, Message.payload_eq_bytes, Message.bytes, List.length_append,
    BigEndian.length_encode, length_lengthPrefixed]
  omega

/-- The announced lengths work. Under every packet limit that a WRITE of one byte fits, a WRITE
of the announced length or less through a handle of the table is within the limit, is read as
one packet from any stream and buffer, and is decoded with its data. Under every packet limit
and for every READ, with a driver whose `ReadAt` keeps to its buffer, the DATA that is sent is,
with its length in front, within 256 KiB and within `wire.MaxPacket`.
-/
theorem announced_lengths_work (srv : Server)
    : (leastWriteLimit ≤ srv.packetLimit
        → ∀ (t later : Handles) (h : OpenFile) (calls : List Event) (m : WriteRequest),
          (t.add h).Runs calls (.ok (m.handle, later))
          → 1 ≤ m.data.length → m.data.length ≤ srv.writeLength
          → let packet : Packet := ⟨fxpWrite, (Message.writeRequest m).payload⟩
            (∀ out, (send (.writeRequest m) out).1 = .ok packet.frame)
            ∧ 1 + packet.payload.length ≤ srv.packetLimit
            ∧ (∀ (σ : Type) (source : Source σ) (s : σ) (buf rest : Bytes),
                source.unread s = packet.frame ++ rest
                → (readPacket source buf srv.packetLimit s).packet = .ok packet)
            ∧ decodeWrite packet.payload = .ok m)
      ∧ ∀ (t later : Handles) (payload : Bytes) (calls : List Event) (reply : DataReply),
          (answer srv t fxpRead payload).Runs calls (.dataReply reply, later)
          → (∀ event ∈ calls, ShortRead event)
          → ∀ out, ∃ framed,
              (frame (.dataReply reply) out).1 = .ok framed
              ∧ framed.length ≤ sftpMaxMsgLength ∧ framed.length ≤ maxPacket := by
  constructor
  · intro room t later h calls m added _ within packet
    have handle := length_of_added added
    obtain ⟨small, fits⟩ := write_packet_fits room handle within
    refine ⟨writePacket_frame (p := packet) fits.1, small, ?_, decodeWrite_announced handle within⟩
    intro σ source s buf rest unread
    exact (readPacket_whole fits unread buf).1
  · intro t later payload calls reply runs short out
    have bounded : reply.data.length ≤ maxReadLength := by
      cases answer_readReply runs short with
      | data small => exact small
    have limit : maxReadLength = 261120 := rfl
    have message : sftpMaxMsgLength = 262144 := rfl
    have bound : maxPacket = 266240 := rfl
    obtain ⟨framed, sent, length⟩ := frame_data reply bounded out
    exact ⟨framed, sent, by omega, by omega⟩

/-- A table with one file, open for reading under the token `readThree` names. -/
def readableTable : Handles :=
  AList.insert (List.replicate 32 0x30) { path := [slash], file := some ⟨0, false⟩ } ∅

/-- Under the smallest limit, one byte is written and two are read. -/
theorem announced_lengths_work_least
    : let srv : Server := ⟨true, false, false, false, false, 54, 0⟩
      let m : WriteRequest := {
        id := 1
        handle := List.replicate 32 0x30
        offset := 0
        data := [7]
      }
      leastWriteLimit ≤ srv.packetLimit
      ∧ 1 + (Message.writeRequest m).payload.length ≤ 54
      ∧ decodeWrite (Message.writeRequest m).payload = .ok m
      ∧ ∀ out, ∃ framed,
          (frame (.dataReply { id := 2, data := [7, 8] }) out).1 = .ok framed
          ∧ framed.length ≤ sftpMaxMsgLength := by
  intro srv m
  obtain ⟨written, read⟩ := announced_lengths_work srv
  have added : (Handles.add ∅ { path := [slash] }).Runs
      [⟨.randRead, .ok (Vector.replicate 16 0)⟩]
      (.ok (m.handle, AList.insert m.handle { path := [slash] } ∅)) :=
    .ask (.ret _)
  have reads : (answer srv readableTable fxpRead readThree).Runs
      [⟨.lock .lockIo, ()⟩, ⟨.driver (.fileReadAt ⟨0, false⟩ 3 0), ([7, 8], none)⟩,
        ⟨.lock .unlockIo, ()⟩]
      (.dataReply { id := 2, data := [7, 8] }, readableTable) :=
    .ask (.ask (.ask (.ret _)))
  obtain ⟨_, small, _, decodes⟩ := written (by decide) _ _ _ _ m added (by decide) (by decide)
  refine ⟨by decide, small, decodes, fun out => ?_⟩
  obtain ⟨framed, sent, within, _⟩ := read _ _ _ _ _ reads (by simp [ShortRead]) out
  exact ⟨framed, sent, within⟩

end SftpServer.Sftp
