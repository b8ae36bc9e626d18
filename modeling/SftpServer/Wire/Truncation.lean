import SftpServer.Wire.RoundTrip

/-! Neither a part of a message nor a message with bytes after it is a message. The exceptions
are the decoders that ask what is left: STATUS may stop before its strings, INIT and VERSION
between their pairs.
-/

namespace SftpServer.Wire

open SftpServer.Foundations

/-- A decoder that asks what is left, and then reads, fails where the reading does. -/
theorem fails_remaining {α : Type} {next : Int → Decode α} {rest : Bytes} {err : WireError}
    (fails : Fails (next rest.length) rest err)
    : Fails (Decode.remaining >>= next) rest err :=
  (reads_remaining rest).fails fails

-----------------------------------------------------------------------------------------
-- STATUS
-----------------------------------------------------------------------------------------

/-- Where a string of STATUS starts: at the end of the payload it is left out. -/
theorem fails_optional {α : Type} {absent : Decode α} {present : Bytes → Decode α}
    {rest : Bytes} {err : WireError} (more : rest ≠ [])
    (fails : Fails (Decode.string >>= present) rest err)
    : Fails
        (do
          let left ← Decode.remaining
          if left = 0 then absent
          else do
            let s ← Decode.string
            present s)
        rest err := by
  have left : ¬ ((rest.length : Int) = 0) := by
    have positive := List.length_pos_iff.mpr more
    omega
  refine fails_remaining ?_
  rw [if_neg left]
  exact fails

theorem decodeStatus_trailing {m : StatusReply} (message : m.message.length ≤ defaultLimit)
    (lang : m.lang.length ≤ defaultLimit) {extra : Bytes} (more : extra ≠ [])
    : decodeStatus ((Message.statusReply m).bytes ++ extra) = .error .errTrailing := by
  refine Fails.run ?_
  simp only [Message.bytes, List.append_assoc]
  refine ((field_uint32 _).reads _).fails ?_
  refine ((field_uint32 _).reads _).fails ?_
  refine fails_optional (by simp [more]) ?_
  refine ((field_blob message).reads _).fails ?_
  refine fails_optional (by simp [more]) ?_
  refine ((field_blob lang).reads _).fails ?_
  exact (exact_done _).trailing extra more

/-- A STATUS cut short is accepted right after the code and right after the message. -/
theorem decodeStatus_cut {m : StatusReply} (message : m.message.length ≤ defaultLimit)
    (lang : m.lang.length ≤ defaultLimit) {cut : Bytes}
    (inside : cut <+: (Message.statusReply m).bytes)
    (strict : cut ≠ (Message.statusReply m).bytes)
    : decodeStatus cut = .error .errShort
      ∨ cut = BigEndian.encode 4 m.id.toNat ++ BigEndian.encode 4 m.code.toNat
      ∨ cut
        = BigEndian.encode 4 m.id.toNat
          ++ (BigEndian.encode 4 m.code.toNat ++ lengthPrefixed m.message) := by
  rcases cut_cases inside strict with ⟨early, less⟩ | ⟨rest, rfl, inside, strict⟩
  · exact .inl ((field_uint32 m.id).needs cut early less).bind.run
  rcases cut_cases inside strict with ⟨early, less⟩ | ⟨rest, rfl, inside, strict⟩
  · refine .inl (Fails.run ?_)
    exact ((field_uint32 _).reads _).fails ((field_uint32 m.code).needs rest early less).bind
  rcases eq_or_ne rest [] with rfl | more
  · exact .inr (.inl (by simp))
  rcases cut_cases inside strict with ⟨early, less⟩ | ⟨rest, rfl, inside, strict⟩
  · refine .inl (Fails.run ?_)
    refine ((field_uint32 _).reads _).fails (((field_uint32 _).reads _).fails ?_)
    exact fails_optional more ((field_blob message).needs rest early less).bind
  rcases eq_or_ne rest [] with rfl | most
  · exact .inr (.inr (by simp))
  · refine .inl (Fails.run ?_)
    refine ((field_uint32 _).reads _).fails (((field_uint32 _).reads _).fails ?_)
    refine fails_optional more (((field_blob message).reads _).fails ?_)
    exact fails_optional most ((field_blob lang).needs rest inside strict).bind

theorem decodeStatus_bare (id : UInt32) (code : Status)
    : decodeStatus (BigEndian.encode 4 id.toNat ++ BigEndian.encode 4 code.toNat)
      = .ok { id, code, message := [], lang := [] } := by
  refine Reads.run_whole ?_
  refine ((field_uint32 id).reads _).bind (((field_uint32 code).reads _).then ?_)
  exact (reads_remaining []).then (Reads.pure _ _)

theorem decodeStatus_unlabelled (id : UInt32) (code : Status) {message : Bytes}
    (short : message.length ≤ defaultLimit)
    : decodeStatus
        (BigEndian.encode 4 id.toNat
          ++ (BigEndian.encode 4 code.toNat ++ lengthPrefixed message))
      = .ok { id, code, message, lang := [] } := by
  have written : ¬ (((lengthPrefixed message ++ []).length : Int) = 0) := by
    simp [lengthPrefixed]
    omega
  rw [← List.nil_append (lengthPrefixed message)]
  refine Reads.run_whole ?_
  refine ((field_uint32 id).reads _).bind (((field_uint32 code).reads _).bind ?_)
  refine (reads_remaining _).bind ?_
  rw [if_neg written]
  refine ((field_blob short).reads _).then ?_
  exact (reads_remaining []).then (Reads.pure _ _)

-----------------------------------------------------------------------------------------
-- INIT and VERSION
-----------------------------------------------------------------------------------------

/-- A cut through the pairs is between two of them or makes the decoder run short, by
induction on the pairs.
-/
theorem decodePairs_cut (ps : List ExtendedPair) (room : Nat) (fits : ps.length ≤ room)
    (within : ∀ p ∈ ps, p.WithinLimits) {cut : Bytes}
    (inside : cut <+: ps.flatMap ExtendedPair.bytes)
    : (∃ k, cut = (ps.take k).flatMap ExtendedPair.bytes)
      ∨ Fails (decodePairs room) cut .errShort := by
  induction ps generalizing room cut with
  | nil => exact .inl ⟨0, List.prefix_nil.mp inside⟩
  | cons p rest ih =>
      cases room with
      | zero => simp at fits
      | succ room =>
          rcases eq_or_ne cut [] with rfl | some_left
          · exact .inl ⟨0, rfl⟩
          rcases eq_or_ne cut ((p :: rest).flatMap ExtendedPair.bytes) with rfl | strict
          · exact .inl ⟨rest.length + 1, by simp⟩
          have asked (fails : Fails (decodePair >>= fun first => do
                let others ← decodePairs room
                pure (first :: others)) cut .errShort)
              : Fails (decodePairs (room + 1)) cut .errShort := by
            have positive : 0 < (cut.length : Int) := by
              have length := List.length_pos_iff.mpr some_left
              omega
            refine fails_remaining ?_
            rw [if_pos positive]
            exact fails
          rcases cut_cases inside strict with ⟨early, less⟩ | ⟨later, rfl, after, _⟩
          · exact .inr (asked ((field_pair (within p (by simp))).needs cut early less).bind)
          · rcases ih room (by simpa using fits) (fun q member => within q (by simp [member]))
              after with ⟨k, whole⟩ | fails
            · exact .inl ⟨k + 1, by simp [whole]⟩
            · refine .inr (asked ?_)
              exact ((field_pair (within p (by simp))).reads later).fails fails.bind

theorem decodeInit_cut {m : InitRequest} (fits : m.extensions.length ≤ maxExtendedPairs)
    (within : ∀ p ∈ m.extensions, p.WithinLimits) {cut : Bytes}
    (inside : cut <+: (Message.initRequest m).bytes)
    (strict : cut ≠ (Message.initRequest m).bytes)
    : decodeInit cut = .error .errShort
      ∨ ∃ k, cut
        = (Message.initRequest { m with extensions := m.extensions.take k }).bytes := by
  rcases cut_cases inside strict with ⟨early, less⟩ | ⟨rest, rfl, inside, strict⟩
  · exact .inl ((field_uint32 m.version).needs cut early less).bind.run
  rcases decodePairs_cut m.extensions maxExtendedPairs fits within inside with ⟨k, rfl⟩ | fails
  · exact .inr ⟨k, rfl⟩
  · exact .inl (((field_uint32 m.version).reads _).fails fails.bind).run

/-- An INIT is accepted up to any of its pairs, and nowhere between. -/
theorem decodeInit_cut_iff {m : InitRequest} (fits : m.extensions.length ≤ maxExtendedPairs)
    (within : ∀ p ∈ m.extensions, p.WithinLimits) {cut : Bytes}
    (inside : cut <+: (Message.initRequest m).bytes)
    (strict : cut ≠ (Message.initRequest m).bytes)
    : (∃ r, decodeInit cut = .ok r)
      ↔ ∃ k, cut
        = (Message.initRequest { m with extensions := m.extensions.take k }).bytes := by
  constructor
  · intro accepted
    obtain ⟨r, accepts⟩ := accepted
    rcases decodeInit_cut fits within inside strict with short | between
    · rw [short] at accepts
      cases accepts
    · exact between
  · intro between
    obtain ⟨k, rfl⟩ := between
    rw [← Message.payload_eq_bytes]
    refine ⟨_, decodeInit_payload ?_ ?_⟩
    · exact (List.length_take_le' k _).trans fits
    · exact fun p member => within p (List.mem_of_mem_take member)

/-- VERSION has INIT's layout and shares its decoder. -/
theorem decodeVersion_accepts_iff (payload : Bytes)
    : (∃ r, decodeVersion payload = .ok r) ↔ ∃ r, decodeInit payload = .ok r := by
  rw [decodeVersion]
  rcases decodeInit payload with err | init
  · exact iff_of_false (not_exists.mpr fun _ same => by cases same)
      (not_exists.mpr fun _ same => by cases same)
  · exact ⟨fun _ => ⟨init, rfl⟩, fun _ => ⟨_, rfl⟩⟩

-----------------------------------------------------------------------------------------
-- All messages
-----------------------------------------------------------------------------------------

theorem map_accepts_iff {α : Type} {wrap : α → Message} {outcome : Except WireError α}
    : (∃ r, wrap <$> outcome = .ok r) ↔ ∃ r, outcome = .ok r := by
  rcases outcome with err | value
  · exact iff_of_false (not_exists.mpr fun _ same => by cases same)
      (not_exists.mpr fun _ same => by cases same)
  · exact ⟨fun _ => ⟨value, rfl⟩, fun _ => ⟨wrap value, rfl⟩⟩

/-- No strict prefix of a message of fixed shape is a message, nor is a message with bytes
after it. A STATUS may be cut after its code or its message, an INIT or VERSION after its
version or a pair, and nowhere else.
-/
theorem message_boundaries (m : Message) (within : m.WithinLimits)
    : (m.FixedShape →
        (∀ cut, cut <+: m.payload → cut ≠ m.payload → m.decodeAs cut = .error .errShort)
        ∧ ∀ extra, extra ≠ [] → m.decodeAs (m.payload ++ extra) = .error .errTrailing)
      ∧ (∀ s, m = .statusReply s →
        (∀ extra, extra ≠ [] → m.decodeAs (m.payload ++ extra) = .error .errTrailing)
        ∧ ∀ cut, cut <+: m.payload → cut ≠ m.payload →
          ((∃ r, m.decodeAs cut = .ok r)
            ↔ cut = ((newEncoder.uint32 s.id).uint32 s.code).buf
              ∨ cut = (((newEncoder.uint32 s.id).uint32 s.code).string s.message).buf))
      ∧ (∀ i, m = .initRequest i →
        ∀ cut, cut <+: m.payload → cut ≠ m.payload →
          ((∃ r, m.decodeAs cut = .ok r)
            ↔ ∃ k, cut
              = (Message.initRequest { i with extensions := i.extensions.take k }).payload))
      ∧ (∀ v, m = .versionReply v →
        ∀ cut, cut <+: m.payload → cut ≠ m.payload →
          ((∃ r, m.decodeAs cut = .ok r)
            ↔ ∃ k, cut
              = (Message.versionReply { v with extensions := v.extensions.take k }).payload))
      := by
  refine ⟨?_, ?_, ?_, ?_⟩
  · intro fixed
    exact ⟨(m.delimits fixed within).short, (m.delimits fixed within).trailing⟩
  · intro s same
    subst same
    rw [Message.payload_eq_bytes]
    refine ⟨?_, ?_⟩
    · intro extra more
      rw [Message.decodeAs, decodeStatus_trailing within.1 within.2 more]
      rfl
    · intro cut inside strict
      have ends : ((newEncoder.uint32 s.id).uint32 s.code).buf
          = BigEndian.encode 4 s.id.toNat ++ BigEndian.encode 4 s.code.toNat := rfl
      rw [Message.decodeAs, map_accepts_iff, Encoder.string_buf, ends, List.append_assoc]
      constructor
      · intro accepted
        obtain ⟨r, accepts⟩ := accepted
        rcases decodeStatus_cut within.1 within.2 inside strict with short | between
        · rw [short] at accepts
          cases accepts
        · exact between
      · intro between
        rcases between with rfl | rfl
        · exact ⟨_, decodeStatus_bare s.id s.code⟩
        · exact ⟨_, decodeStatus_unlabelled s.id s.code within.1⟩
  · intro i same cut inside strict
    subst same
    rw [Message.payload_eq_bytes] at inside strict
    simp only [Message.decodeAs, map_accepts_iff, Message.payload_eq_bytes]
    exact decodeInit_cut_iff within.1 within.2 inside strict
  · intro v same cut inside strict
    subst same
    rw [Message.payload_eq_bytes] at inside strict
    simp only [Message.decodeAs, map_accepts_iff, decodeVersion_accepts_iff,
      Message.payload_eq_bytes]
    exact decodeInit_cut_iff (m := ⟨v.version, v.extensions⟩) within.1 within.2 inside strict

/-- A REALPATH of one byte, cut inside that byte's length and continued by another byte, and
a STATUS that ends after its code.
-/
theorem message_boundaries_realpath_and_status
    : let path : Message := .pathRequest { packetType := fxpRealpath, id := 7, path := [46] }
      let status : Message := .statusReply { id := 7, code := 4, message := [46], lang := [] }
      path.decodeAs [0, 0, 0, 7, 0, 0] = .error .errShort
      ∧ path.decodeAs (path.payload ++ [0]) = .error .errTrailing
      ∧ ∃ r, status.decodeAs [0, 0, 0, 7, 0, 0, 0, 4] = .ok r := by
  intro path status
  have small : path.WithinLimits := Nat.le_of_ble_eq_true rfl
  have short : status.WithinLimits :=
    ⟨Nat.le_of_ble_eq_true rfl, Nat.le_of_ble_eq_true rfl⟩
  have fixed := (message_boundaries path small).1 trivial
  have cut := ((message_boundaries status short).2.1 _ rfl).2 [0, 0, 0, 7, 0, 0, 0, 4]
    (by decide) (by decide)
  exact ⟨fixed.1 _ (by decide) (by decide), fixed.2 _ (by decide), cut.mpr (.inl (by decide))⟩

end SftpServer.Wire
