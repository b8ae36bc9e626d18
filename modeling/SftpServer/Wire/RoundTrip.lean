import SftpServer.Wire.Fields

/-! Decoding undoes encoding for every message of the format, and the messages of fixed shape
end where their fields do.
-/

namespace SftpServer.Wire

open SftpServer.Foundations

@[simp]
theorem newEncoder_buf : newEncoder.buf = [] := rfl

/-- What each message puts on the wire, field by field. -/
def Message.bytes : Message → Bytes
  | .initRequest m =>
      BigEndian.encode 4 m.version.toNat ++ m.extensions.flatMap ExtendedPair.bytes
  | .versionReply m =>
      BigEndian.encode 4 m.version.toNat ++ m.extensions.flatMap ExtendedPair.bytes
  | .pathRequest m => BigEndian.encode 4 m.id.toNat ++ lengthPrefixed m.path
  | .handleRequest m => BigEndian.encode 4 m.id.toNat ++ lengthPrefixed m.handle
  | .openRequest m =>
      BigEndian.encode 4 m.id.toNat
      ++ (lengthPrefixed m.path
      ++ (BigEndian.encode 4 m.pflags.toNat
      ++ m.attrs.bytes))
  | .readRequest m =>
      BigEndian.encode 4 m.id.toNat
      ++ (lengthPrefixed m.handle
      ++ (BigEndian.encode 8 m.offset.toNat
      ++ BigEndian.encode 4 m.length.toNat))
  | .writeRequest m =>
      BigEndian.encode 4 m.id.toNat
      ++ (lengthPrefixed m.handle
      ++ (BigEndian.encode 8 m.offset.toNat
      ++ lengthPrefixed m.data))
  | .setstatRequest m =>
      BigEndian.encode 4 m.id.toNat ++ (lengthPrefixed m.path ++ m.attrs.bytes)
  | .fsetstatRequest m =>
      BigEndian.encode 4 m.id.toNat ++ (lengthPrefixed m.handle ++ m.attrs.bytes)
  | .renameRequest m =>
      BigEndian.encode 4 m.id.toNat ++ (lengthPrefixed m.oldPath ++ lengthPrefixed m.newPath)
  | .symlinkRequest m =>
      BigEndian.encode 4 m.id.toNat
      ++ (lengthPrefixed m.targetPath
      ++ lengthPrefixed m.linkPath)
  | .extendedRequest m =>
      BigEndian.encode 4 m.id.toNat ++ lengthPrefixed m.name ++ m.data
  | .statusReply m =>
      BigEndian.encode 4 m.id.toNat
      ++ (BigEndian.encode 4 m.code.toNat
      ++ (lengthPrefixed m.message
      ++ lengthPrefixed m.lang))
  | .handleReply m => BigEndian.encode 4 m.id.toNat ++ lengthPrefixed m.handle
  | .dataReply m => BigEndian.encode 4 m.id.toNat ++ lengthPrefixed m.data
  | .nameReply m =>
      BigEndian.encode 4 m.id.toNat
      ++ (BigEndian.encode 4 (UInt32.ofNat m.items.length).toNat
      ++ m.items.flatMap NameItem.bytes)
  | .attrsReply m => BigEndian.encode 4 m.id.toNat ++ m.attrs.bytes
  | .extendedReply m => BigEndian.encode 4 m.id.toNat ++ m.data

/-- The encoders append exactly that, by cases on the message. -/
theorem Message.payload_eq_bytes (m : Message) : m.payload = m.bytes := by
  cases m with
  | initRequest m =>
      simp [payload, encodePayload, bytes, InitRequest.encodePayload,
        foldl_buf ExtendedPair.encode_buf]
  | versionReply m =>
      simp [payload, encodePayload, bytes, VersionReply.encodePayload,
        foldl_buf ExtendedPair.encode_buf]
  | pathRequest m => simp [payload, encodePayload, bytes, PathRequest.encodePayload]
  | handleRequest m => simp [payload, encodePayload, bytes, HandleRequest.encodePayload]
  | openRequest m =>
      simp [payload, encodePayload, bytes, OpenRequest.encodePayload, Attributes.encode_buf]
  | readRequest m => simp [payload, encodePayload, bytes, ReadRequest.encodePayload]
  | writeRequest m => simp [payload, encodePayload, bytes, WriteRequest.encodePayload]
  | setstatRequest m =>
      simp [payload, encodePayload, bytes, SetstatRequest.encodePayload,
        Attributes.encode_buf]
  | fsetstatRequest m =>
      simp [payload, encodePayload, bytes, FsetstatRequest.encodePayload,
        Attributes.encode_buf]
  | renameRequest m => simp [payload, encodePayload, bytes, RenameRequest.encodePayload]
  | symlinkRequest m => simp [payload, encodePayload, bytes, SymlinkRequest.encodePayload]
  | extendedRequest m => simp [payload, encodePayload, bytes, ExtendedRequest.encodePayload]
  | statusReply m => simp [payload, encodePayload, bytes, StatusReply.encodePayload]
  | handleReply m => simp [payload, encodePayload, bytes, HandleReply.encodePayload]
  | dataReply m => simp [payload, encodePayload, bytes, DataReply.encodePayload]
  | nameReply m =>
      simp [payload, encodePayload, bytes, NameReply.encodePayload,
        foldl_buf NameItem.encode_buf]
  | attrsReply m =>
      simp [payload, encodePayload, bytes, AttrsReply.encodePayload, Attributes.encode_buf]
  | extendedReply m => simp [payload, encodePayload, bytes, ExtendedReply.encodePayload]

/-- A format whose messages end where `front` ends: the whole is decoded, every strict prefix
runs short and every extension is refused for its trailing bytes.
-/
structure Delimits {α : Type} (decode : Bytes → Except WireError α) (front : Bytes)
    (value : α)
    : Prop where
  whole : decode front = .ok value
  short : ∀ cut, cut <+: front → cut ≠ front → decode cut = .error .errShort
  trailing : ∀ extra, extra ≠ [] → decode (front ++ extra) = .error .errTrailing

/-- The steps of such a decoder, from some field to its `End`. -/
structure Exact {α : Type} (decode : Decode α) (front : Bytes) (value : α) : Prop where
  reads : Reads decode front [] value
  needs : Needs decode front
  trailing : ∀ extra, extra ≠ [] → Fails decode (front ++ extra) .errTrailing

theorem Exact.run {α : Type} {decode : Decode α} {front : Bytes} {value : α}
    (exact : Exact decode front value)
    : Delimits (fun payload => Decode.run payload decode) front value :=
  ⟨exact.reads.run_whole, fun cut inside strict => (exact.needs cut inside strict).run,
    fun extra more => (exact.trailing extra more).run⟩

theorem Field.exact {α β : Type} {decode : Decode α} {next : α → Decode β}
    {front middle : Bytes} {value : α} {result : β} (field : Field decode front value)
    (later : Exact (next value) middle result)
    : Exact (decode >>= next) (front ++ middle) result := by
  refine ⟨(field.reads _).bind later.reads, field.needs_bind later.needs, ?_⟩
  intro extra more
  rw [List.append_assoc]
  exact (field.reads _).fails (later.trailing extra more)

theorem exact_done {α : Type} (value : α)
    : Exact
        (do
          Decode.done
          pure value)
        [] value := by
  refine ⟨reads_done.then (Reads.pure _ _), Needs.nil, ?_⟩
  intro extra more
  refine Fails.bind ?_
  intro d _ within unread
  have left := d.length_rest within
  have some_left : 0 < extra.length := List.length_pos_iff.mpr more
  rw [unread, List.nil_append] at left
  rw [Decode.done, if_pos (by omega)]

/-- The last field of a message is followed by `End`. -/
theorem Field.last {α β : Type} {decode : Decode α} {next : α → Decode β} {front : Bytes}
    {value : α} {result : β} (field : Field decode front value)
    (ended : Exact (next value) [] result)
    : Exact (decode >>= next) front result := by
  have both := field.exact ended
  rwa [List.append_nil] at both

theorem decodeInit_payload {m : InitRequest} (fits : m.extensions.length ≤ maxExtendedPairs)
    (within : ∀ p ∈ m.extensions, p.WithinLimits)
    : decodeInit (Message.initRequest m).payload = .ok m := by
  rw [Message.payload_eq_bytes, Message.bytes]
  apply Reads.run_whole
  refine (reads_uint32 _ _).bind ?_
  refine (reads_pairs m.extensions maxExtendedPairs fits within).then ?_
  exact Reads.pure _ _

/-- VERSION has INIT's layout and shares its decoder. -/
theorem decodeVersion_payload {m : VersionReply}
    (fits : m.extensions.length ≤ maxExtendedPairs)
    (within : ∀ p ∈ m.extensions, p.WithinLimits)
    : decodeVersion (Message.versionReply m).payload = .ok m := by
  have same : (Message.versionReply m).payload
      = (Message.initRequest { version := m.version, extensions := m.extensions }).payload :=
    rfl
  rw [decodeVersion, same, decodeInit_payload fits within]
  rfl

theorem decodePath_delimits {m : PathRequest} (path : m.path.length ≤ defaultLimit)
    : Delimits (decodePath m.packetType) (Message.pathRequest m).bytes m := by
  refine Exact.run ?_
  refine (field_uint32 _).exact ?_
  exact (field_blob path).last (exact_done _)

theorem decodeHandle_delimits {m : HandleRequest}
    (handle : m.handle.length ≤ defaultLimit)
    : Delimits (decodeHandle m.packetType) (Message.handleRequest m).bytes m := by
  refine Exact.run ?_
  refine (field_uint32 _).exact ?_
  exact (field_blob handle).last (exact_done _)

theorem decodeOpen_delimits {m : OpenRequest}
    (path : m.path.length ≤ defaultLimit)
    (attrs : m.attrs.WithinLimits)
    : Delimits decodeOpen (Message.openRequest m).bytes
        { m with attrs := m.attrs.announced } := by
  refine Exact.run ?_
  refine (field_uint32 _).exact ?_
  refine (field_blob path).exact ?_
  refine (field_uint32 _).exact ?_
  exact (field_attributes attrs).last (exact_done _)

theorem decodeRead_delimits {m : ReadRequest}
    (handle : m.handle.length ≤ defaultLimit)
    : Delimits decodeRead (Message.readRequest m).bytes m := by
  refine Exact.run ?_
  refine (field_uint32 _).exact ?_
  refine (field_blob handle).exact ?_
  refine (field_uint64 _).exact ?_
  exact (field_uint32 _).last (exact_done _)

theorem decodeWrite_delimits {m : WriteRequest}
    (handle : m.handle.length ≤ defaultLimit)
    (data : m.data.length ≤ defaultLimit)
    : Delimits decodeWrite (Message.writeRequest m).bytes m := by
  refine Exact.run ?_
  refine (field_uint32 _).exact ?_
  refine (field_blob handle).exact ?_
  refine (field_uint64 _).exact ?_
  exact (field_blob data).last (exact_done _)

theorem decodeSetstat_delimits {m : SetstatRequest}
    (path : m.path.length ≤ defaultLimit)
    (attrs : m.attrs.WithinLimits)
    : Delimits (decodeSetstat m.packetType) (Message.setstatRequest m).bytes
        { m with attrs := m.attrs.announced } := by
  refine Exact.run ?_
  refine (field_uint32 _).exact ?_
  refine (field_blob path).exact ?_
  exact (field_attributes attrs).last (exact_done _)

theorem decodeFsetstat_delimits {m : FsetstatRequest}
    (handle : m.handle.length ≤ defaultLimit)
    (attrs : m.attrs.WithinLimits)
    : Delimits decodeFsetstat (Message.fsetstatRequest m).bytes
        { m with attrs := m.attrs.announced } := by
  refine Exact.run ?_
  refine (field_uint32 _).exact ?_
  refine (field_blob handle).exact ?_
  exact (field_attributes attrs).last (exact_done _)

theorem decodeRename_delimits {m : RenameRequest}
    (old : m.oldPath.length ≤ defaultLimit)
    (new : m.newPath.length ≤ defaultLimit)
    : Delimits decodeRename (Message.renameRequest m).bytes m := by
  refine Exact.run ?_
  refine (field_uint32 _).exact ?_
  refine (field_blob old).exact ?_
  exact (field_blob new).last (exact_done _)

theorem decodeSymlink_delimits {m : SymlinkRequest}
    (target : m.targetPath.length ≤ defaultLimit)
    (link : m.linkPath.length ≤ defaultLimit)
    : Delimits decodeSymlink (Message.symlinkRequest m).bytes m := by
  refine Exact.run ?_
  refine (field_uint32 _).exact ?_
  refine (field_blob target).exact ?_
  exact (field_blob link).last (exact_done _)

/-- The data of an extension has no length of its own: it is all that is left. -/
theorem decodeExtended_payload {m : ExtendedRequest} (name : m.name.length ≤ defaultLimit)
    : decodeExtended (Message.extendedRequest m).payload = .ok m := by
  rw [Message.payload_eq_bytes, Message.bytes]
  apply Reads.run
  refine (reads_uint32 _ _).bind ?_
  refine ((field_blob name).reads _).then ?_
  exact (reads_tail m.data).then (Reads.pure m _)

/-- The two optional strings of STATUS are always written, so each is still there when
the decoder asks what is left.
-/
theorem decodeStatus_payload {m : StatusReply} (message : m.message.length ≤ defaultLimit)
    (lang : m.lang.length ≤ defaultLimit)
    : decodeStatus (Message.statusReply m).payload = .ok m := by
  have bytes : (Message.statusReply m).payload
      = BigEndian.encode 4 m.id.toNat
        ++ (BigEndian.encode 4 m.code.toNat
        ++ ([] ++ (lengthPrefixed m.message ++ ([] ++ lengthPrefixed m.lang)))) := by
    simp [Message.payload_eq_bytes, Message.bytes]
  -- A string is at least its length on the wire, even an empty one.
  have written (s after : Bytes) : ¬ ((lengthPrefixed s ++ after).length : Int) = 0 := by
    simp [lengthPrefixed]
    omega
  rw [bytes]
  apply Reads.run_whole
  refine (reads_uint32 _ _).bind ?_
  refine (reads_uint32 _ _).bind ?_
  refine (reads_remaining _).bind ?_
  rw [List.append_assoc, if_neg (written _ _)]
  refine ((field_blob message).reads _).bind ?_
  refine (reads_remaining _).bind ?_
  rw [if_neg (written _ _)]
  refine ((field_blob lang).reads _).then ?_
  exact reads_done.then (Reads.pure _ _)

theorem decodeHandleReply_delimits {m : HandleReply}
    (handle : m.handle.length ≤ defaultLimit)
    : Delimits decodeHandleReply (Message.handleReply m).bytes m := by
  refine Exact.run ?_
  refine (field_uint32 _).exact ?_
  exact (field_blob handle).last (exact_done _)

theorem decodeData_delimits {m : DataReply} (data : m.data.length ≤ defaultLimit)
    : Delimits decodeData (Message.dataReply m).bytes m := by
  refine Exact.run ?_
  refine (field_uint32 _).exact ?_
  exact (field_blob data).last (exact_done _)

theorem decodeName_delimits {m : NameReply} (fits : m.items.length ≤ maxNameItems)
    (within : ∀ it ∈ m.items, it.WithinLimits)
    : Delimits decodeName (Message.nameReply m).bytes
        { m with items := m.items.map NameItem.announced } := by
  have small : maxNameItems ≤ defaultLimit := by decide
  have items := field_counted m.items fun it member => field_item (within it member)
  refine Exact.run ?_
  refine (field_uint32 _).exact ?_
  refine (field_uint32 _).exact ?_
  rw [toNat_count (fits.trans small), if_neg (by omega)]
  exact items.last (exact_done _)

theorem decodeAttrs_delimits {m : AttrsReply} (attrs : m.attrs.WithinLimits)
    : Delimits decodeAttrs (Message.attrsReply m).bytes
        { m with attrs := m.attrs.announced } := by
  refine Exact.run ?_
  refine (field_uint32 _).exact ?_
  exact (field_attributes attrs).last (exact_done _)

theorem decodeExtendedReply_payload {m : ExtendedReply}
    : decodeExtendedReply (Message.extendedReply m).payload = .ok m := by
  rw [Message.payload_eq_bytes, Message.bytes]
  apply Reads.run
  refine (reads_uint32 _ _).then ?_
  exact (reads_tail m.data).then (Reads.pure m _)

/-- The matching decoder of a message, `Decode*` for its type. -/
def Message.decodeAs (m : Message) (payload : Bytes) : Except WireError Message :=
  match m with
  | .initRequest _ => .initRequest <$> decodeInit payload
  | .versionReply _ => .versionReply <$> decodeVersion payload
  | .pathRequest m => .pathRequest <$> decodePath m.packetType payload
  | .handleRequest m => .handleRequest <$> decodeHandle m.packetType payload
  | .openRequest _ => .openRequest <$> decodeOpen payload
  | .readRequest _ => .readRequest <$> decodeRead payload
  | .writeRequest _ => .writeRequest <$> decodeWrite payload
  | .setstatRequest m => .setstatRequest <$> decodeSetstat m.packetType payload
  | .fsetstatRequest _ => .fsetstatRequest <$> decodeFsetstat payload
  | .renameRequest _ => .renameRequest <$> decodeRename payload
  | .symlinkRequest _ => .symlinkRequest <$> decodeSymlink payload
  | .extendedRequest _ => .extendedRequest <$> decodeExtended payload
  | .statusReply _ => .statusReply <$> decodeStatus payload
  | .handleReply _ => .handleReply <$> decodeHandleReply payload
  | .dataReply _ => .dataReply <$> decodeData payload
  | .nameReply _ => .nameReply <$> decodeName payload
  | .attrsReply _ => .attrsReply <$> decodeAttrs payload
  | .extendedReply _ => .extendedReply <$> decodeExtendedReply payload

/-- Every string and blob is at most `DefaultLimit` bytes and every list within the count
its decoder accepts.
-/
def Message.WithinLimits : Message → Prop
  | .initRequest m =>
      m.extensions.length ≤ maxExtendedPairs ∧ ∀ p ∈ m.extensions, p.WithinLimits
  | .versionReply m =>
      m.extensions.length ≤ maxExtendedPairs ∧ ∀ p ∈ m.extensions, p.WithinLimits
  | .pathRequest m => m.path.length ≤ defaultLimit
  | .handleRequest m => m.handle.length ≤ defaultLimit
  | .openRequest m => m.path.length ≤ defaultLimit ∧ m.attrs.WithinLimits
  | .readRequest m => m.handle.length ≤ defaultLimit
  | .writeRequest m => m.handle.length ≤ defaultLimit ∧ m.data.length ≤ defaultLimit
  | .setstatRequest m => m.path.length ≤ defaultLimit ∧ m.attrs.WithinLimits
  | .fsetstatRequest m => m.handle.length ≤ defaultLimit ∧ m.attrs.WithinLimits
  | .renameRequest m => m.oldPath.length ≤ defaultLimit ∧ m.newPath.length ≤ defaultLimit
  | .symlinkRequest m =>
      m.targetPath.length ≤ defaultLimit ∧ m.linkPath.length ≤ defaultLimit
  | .extendedRequest m => m.name.length ≤ defaultLimit
  | .statusReply m => m.message.length ≤ defaultLimit ∧ m.lang.length ≤ defaultLimit
  | .handleReply m => m.handle.length ≤ defaultLimit
  | .dataReply m => m.data.length ≤ defaultLimit
  | .nameReply m => m.items.length ≤ maxNameItems ∧ ∀ it ∈ m.items, it.WithinLimits
  | .attrsReply m => m.attrs.WithinLimits
  | .extendedReply _ => True

/-- The message as its peer sees it: unannounced attributes are zero. -/
def Message.announced : Message → Message
  | .openRequest m => .openRequest { m with attrs := m.attrs.announced }
  | .setstatRequest m => .setstatRequest { m with attrs := m.attrs.announced }
  | .fsetstatRequest m => .fsetstatRequest { m with attrs := m.attrs.announced }
  | .nameReply m => .nameReply { m with items := m.items.map NameItem.announced }
  | .attrsReply m => .attrsReply { m with attrs := m.attrs.announced }
  | m => m

/-- The types whose fields say themselves where the message ends: all but INIT and VERSION,
whose pairs run to the end of the packet, STATUS, whose strings may be left out, and the
extension messages, whose data is whatever is left.
-/
def Message.FixedShape : Message → Prop
  | .initRequest _ | .versionReply _ | .statusReply _ => False
  | .extendedRequest _ | .extendedReply _ => False
  | _ => True

theorem Delimits.map {α β : Type} {decode : Bytes → Except WireError α} {front : Bytes}
    {value : α} (wrap : α → β) (delimits : Delimits decode front value)
    : Delimits (fun payload => wrap <$> decode payload) front (wrap value) where
  whole := by rw [delimits.whole]; rfl
  short cut inside strict := by rw [delimits.short cut inside strict]; rfl
  trailing extra more := by rw [delimits.trailing extra more]; rfl

/-- Messages of fixed shape are delimited by their fields, by cases on the message. -/
theorem Message.delimits (m : Message) (fixed : m.FixedShape) (within : m.WithinLimits)
    : Delimits m.decodeAs m.payload m.announced := by
  rw [Message.payload_eq_bytes]
  cases m with
  | initRequest _ | versionReply _ | statusReply _ => exact fixed.elim
  | extendedRequest _ | extendedReply _ => exact fixed.elim
  | pathRequest m => exact (decodePath_delimits within).map Message.pathRequest
  | handleRequest m => exact (decodeHandle_delimits within).map Message.handleRequest
  | openRequest m => exact (decodeOpen_delimits within.1 within.2).map Message.openRequest
  | readRequest m => exact (decodeRead_delimits within).map Message.readRequest
  | writeRequest m => exact (decodeWrite_delimits within.1 within.2).map Message.writeRequest
  | setstatRequest m =>
      exact (decodeSetstat_delimits within.1 within.2).map Message.setstatRequest
  | fsetstatRequest m =>
      exact (decodeFsetstat_delimits within.1 within.2).map Message.fsetstatRequest
  | renameRequest m =>
      exact (decodeRename_delimits within.1 within.2).map Message.renameRequest
  | symlinkRequest m =>
      exact (decodeSymlink_delimits within.1 within.2).map Message.symlinkRequest
  | handleReply m => exact (decodeHandleReply_delimits within).map Message.handleReply
  | dataReply m => exact (decodeData_delimits within).map Message.dataReply
  | nameReply m => exact (decodeName_delimits within.1 within.2).map Message.nameReply
  | attrsReply m => exact (decodeAttrs_delimits within).map Message.attrsReply

/-- Decoding what was encoded returns the message, with only unannounced attributes lost. -/
theorem decodeAs_payload (m : Message) (within : m.WithinLimits)
    : m.decodeAs m.payload = .ok m.announced := by
  by_cases fixed : m.FixedShape
  · exact (m.delimits fixed within).whole
  cases m with
  | initRequest m =>
      simp only [Message.decodeAs, decodeInit_payload within.1 within.2]
      rfl
  | versionReply m =>
      simp only [Message.decodeAs, decodeVersion_payload within.1 within.2]
      rfl
  | extendedRequest m =>
      simp only [Message.decodeAs, decodeExtended_payload within]
      rfl
  | statusReply m =>
      simp only [Message.decodeAs, decodeStatus_payload within.1 within.2]
      rfl
  | extendedReply m =>
      simp only [Message.decodeAs, decodeExtendedReply_payload]
      rfl
  | _ => exact absurd trivial fixed

/-- The size is not announced, so it is lost; the unknown flag bit 4 comes back. -/
theorem decodeAs_payload_unannounced
    : let m : Message :=
        .attrsReply { id := 7, attrs := { flags := 0x14, size := 9, permissions := 5 } }
      m.decodeAs m.payload
      = .ok (.attrsReply { id := 7, attrs := { flags := 0x14, permissions := 5 } }) :=
  decodeAs_payload
    (.attrsReply { id := 7, attrs := { flags := 0x14, size := 9, permissions := 5 } })
    ⟨by decide, by simp⟩

end SftpServer.Wire
