import SftpServer.Wire.RoundTrip

/-! The decoders accept canonical bytes only: a message that was decoded encodes to the very
bytes it was decoded from, apart from the strings a STATUS may leave out.
-/

namespace SftpServer.Wire

open SftpServer.Foundations

/-- Whenever `decode` accepts, it has moved past some `front`, and `post` holds of the value,
of `front` and of the bytes still unread.
-/
def Consumes {α : Type} (decode : Decode α) (post : α → Bytes → Bytes → Prop) : Prop :=
  ∀ d value later,
    d.off ≤ d.buf.length
    → decode d = (.ok value, later)
    → later.off ≤ later.buf.length
      ∧ ∃ front, d.rest = front ++ later.rest ∧ post value front later.rest

/-- Whatever `decode` accepts is spelled `bytes` of the value. -/
def Spells {α : Type} (decode : Decode α) (bytes : α → Bytes) : Prop :=
  Consumes decode fun value front _ => front = bytes value

theorem Consumes.pure {α : Type} {value : α} {post : α → Bytes → Bytes → Prop}
    (holds : ∀ after, post value [] after)
    : Consumes (Pure.pure value) post := by
  intro d result later within returns
  cases returns
  exact ⟨within, [], rfl, holds _⟩

theorem Consumes.throw {α : Type} {err : WireError} {post : α → Bytes → Bytes → Prop}
    : Consumes (MonadExcept.throw err) post := by
  intro d result later _ returns
  cases returns

theorem Consumes.mono {α : Type} {decode : Decode α} {strong weak : α → Bytes → Bytes → Prop}
    (consumes : Consumes decode strong)
    (weaker : ∀ value front after, strong value front after → weak value front after)
    : Consumes decode weak := by
  intro d value later within returns
  obtain ⟨inside, front, split, holds⟩ := consumes d value later within returns
  exact ⟨inside, front, split, weaker _ _ _ holds⟩

/-- What the two steps of a sequence consume stands one after the other. -/
theorem Consumes.bind {α β : Type} {decode : Decode α} {next : α → Decode β}
    {first : α → Bytes → Bytes → Prop} {post : β → Bytes → Bytes → Prop}
    (consumes : Consumes decode first)
    (later : ∀ value, Consumes (next value) fun result front after =>
      ∀ before, first value before (front ++ after) → post result (before ++ front) after)
    : Consumes (decode >>= next) post := by
  intro d result final within returns
  obtain ⟨value, middle, outcome, returns⟩ := Decode.bind_inv returns
  obtain ⟨inside, before, split, holds⟩ := consumes d value middle within outcome
  obtain ⟨bounded, front, rest, ends⟩ := later value middle result final inside returns
  rw [rest] at split holds
  exact ⟨bounded, before ++ front, by rw [split, List.append_assoc], ends before holds⟩

/-- The common case of `Consumes.bind`: the first step reads a field. -/
theorem Spells.bind {α β : Type} {decode : Decode α} {next : α → Decode β}
    {bytes : α → Bytes} {post : β → Bytes → Bytes → Prop} (spells : Spells decode bytes)
    (later : ∀ value, Consumes (next value) fun result front after =>
      post result (bytes value ++ front) after)
    : Consumes (decode >>= next) post := by
  refine Consumes.bind spells fun value => (later value).mono ?_
  intro result front after holds before spelled
  rwa [spelled]

/-- What a decoder's acceptance says of the consumed and the unread bytes together, it says
of the payload.
-/
theorem Consumes.run {α : Type} {decode : Decode α} {Q : α → Bytes → Prop} {payload : Bytes}
    {value : α} (consumes : Consumes decode fun value front after => Q value (front ++ after))
    (decodes : Decode.run payload decode = .ok value)
    : Q value payload := by
  have within : (newDecoder payload).off ≤ (newDecoder payload).buf.length := by
    simp [newDecoder]
  obtain ⟨final, accepts⟩ := Decode.run_inv decodes
  obtain ⟨_, front, split, holds⟩ := consumes _ _ _ within accepts
  rwa [← split] at holds

-----------------------------------------------------------------------------------------
-- Fields
-----------------------------------------------------------------------------------------

theorem consumes_done : Consumes Decode.done fun _ front after => front = [] ∧ after = [] := by
  intro d value later within returns
  unfold Decode.done at returns
  split at returns
  · cases returns
  · rename_i left
    cases returns
    have length := d.length_rest within
    have empty : d.rest = [] := List.length_eq_zero_iff.mp (by omega)
    exact ⟨within, [], rfl, rfl, empty⟩

theorem consumes_remaining
    : Consumes Decode.remaining fun left front after => front = [] ∧ left = after.length := by
  intro d value later within returns
  cases returns
  exact ⟨within, [], rfl, rfl, (d.length_rest within).symm⟩

theorem consumes_tail
    : Consumes Decode.tail fun value front after => front = [] ∧ value = after := by
  intro d value later within returns
  cases returns
  exact ⟨within, [], rfl, rfl, rfl⟩

/-- Moving past the first `n` unread bytes, of which there are enough. -/
theorem Decoder.rest_take (d : Decoder) {n : Nat} (within : d.off ≤ d.buf.length)
    (enough : (n : Int) ≤ d.remaining)
    : ({ d with off := d.off + n } : Decoder).off ≤ d.buf.length
      ∧ (d.rest.take n).length = n
      ∧ d.rest = d.rest.take n ++ ({ d with off := d.off + n } : Decoder).rest := by
  have length := d.length_rest within
  simp only [Decoder.remaining] at enough length
  refine ⟨by simp only; omega, by simp only [List.length_take]; omega, ?_⟩
  simp only [Decoder.rest]
  rw [← List.drop_drop, List.take_append_drop]

theorem spells_uint32 : Spells Decode.uint32 fun v => BigEndian.encode 4 v.toNat := by
  intro d value later within returns
  unfold Decode.uint32 at returns
  split at returns
  · cases returns
  · cases returns
    obtain ⟨inside, length, split⟩ := d.rest_take within (n := 4) (by omega)
    refine ⟨inside, d.rest.take 4, split, ?_⟩
    simp only [UInt32.toNat_ofNat_of_lt' (BigEndian.decode_lt length),
      BigEndian.encode_decode length]

theorem spells_uint64 : Spells Decode.uint64 fun v => BigEndian.encode 8 v.toNat := by
  intro d value later within returns
  unfold Decode.uint64 at returns
  split at returns
  · cases returns
  · cases returns
    obtain ⟨inside, length, split⟩ := d.rest_take within (n := 8) (by omega)
    refine ⟨inside, d.rest.take 8, split, ?_⟩
    simp only [UInt64.toNat_ofNat_of_lt' (BigEndian.decode_lt length),
      BigEndian.encode_decode length]

theorem consumes_take (n : Nat)
    : Consumes (Decode.take n) fun value front _ => front = value ∧ value.length = n := by
  intro d value later within returns
  unfold Decode.take at returns
  split at returns
  · cases returns
  · split at returns
    · cases returns
    · cases returns
      obtain ⟨inside, length, split⟩ := d.rest_take within (n := n) (by omega)
      exact ⟨inside, d.rest.take n, split, rfl, length⟩

/-- The length in front of a blob is the one its encoder would write. -/
theorem spells_blob : Spells Decode.blob lengthPrefixed := by
  refine Spells.bind spells_uint32 fun n => (consumes_take n.toNat).mono ?_
  intro body front after taken
  rw [lengthPrefixed, taken.2, UInt32.ofNat_toNat, taken.1]

theorem spells_flagged {α : Type} {field : Decode α} {bytes : α → Bytes} (present : Bool)
    (zero : α) (spells : Spells field bytes)
    : Spells (decodeFlagged present zero field) fun v => if present then bytes v else [] := by
  cases present with
  | true => exact spells
  | false => exact Consumes.pure fun _ => rfl

/-- A counted list is its elements, as many as were counted, by induction on the count. -/
theorem consumes_counted {α : Type} {item : Decode α} {bytes : α → Bytes}
    (spells : Spells item bytes) (n : Nat)
    : Consumes (decodeCounted item n) fun xs front _ =>
        xs.length = n ∧ front = xs.flatMap bytes := by
  induction n with
  | zero => exact Consumes.pure fun _ => ⟨rfl, rfl⟩
  | succ n ih =>
      refine spells.bind fun first => Consumes.bind ih fun others => Consumes.pure ?_
      intro after before counted
      simp [counted.1, counted.2]

theorem spells_pair : Spells decodePair ExtendedPair.bytes := by
  refine spells_blob.bind fun t => spells_blob.bind fun v => Consumes.pure fun _ => ?_
  simp [ExtendedPair.bytes]

/-- The counted extensions of an ATTRS structure. -/
theorem spells_extended
    : Spells
        (do
          let n ← Decode.uint32
          if maxExtendedPairs < n.toNat then throw .errLimit
          else decodeCounted decodePair n.toNat)
        fun ps =>
          BigEndian.encode 4 (UInt32.ofNat ps.length).toNat
          ++ ps.flatMap ExtendedPair.bytes := by
  refine spells_uint32.bind fun n => ?_
  split
  · exact Consumes.throw
  · refine (consumes_counted spells_pair n.toNat).mono ?_
    intro ps front after counted
    simp only [counted.1, counted.2, UInt32.ofNat_toNat]

theorem spells_attributes : Spells decodeAttributes Attributes.bytes := by
  refine spells_uint32.bind fun flags => ?_
  refine (spells_flagged _ _ spells_uint64).bind fun size => ?_
  refine (spells_flagged _ _ spells_uint32).bind fun uid => ?_
  refine (spells_flagged _ _ spells_uint32).bind fun gid => ?_
  refine (spells_flagged _ _ spells_uint32).bind fun permissions => ?_
  refine (spells_flagged _ _ spells_uint32).bind fun atime => ?_
  refine (spells_flagged _ _ spells_uint32).bind fun mtime => ?_
  refine (spells_flagged _ _ spells_extended).bind fun extended => Consumes.pure fun _ => ?_
  simp [Attributes.bytes, Attributes.has]

theorem spells_item : Spells decodeItem NameItem.bytes := by
  refine spells_blob.bind fun filename => spells_blob.bind fun longname => ?_
  refine spells_attributes.bind fun attrs => Consumes.pure fun _ => ?_
  simp [NameItem.bytes]

/-- The pairs of INIT run to the end of the payload, by induction on the room. -/
theorem consumes_pairs (room : Nat)
    : Consumes (decodePairs room) fun ps front after =>
        front ++ after = ps.flatMap ExtendedPair.bytes := by
  induction room with
  | zero =>
      refine Consumes.bind consumes_remaining fun left => ?_
      split
      · exact Consumes.throw
      · refine Consumes.pure fun after before asked => ?_
        obtain ⟨nothing, count⟩ := asked
        have empty : after = [] := List.length_eq_zero_iff.mp (by simp at count; omega)
        simp [nothing, empty]
  | succ room ih =>
      refine Consumes.bind consumes_remaining fun left => ?_
      split
      · refine spells_pair.bind fun first => Consumes.bind ih fun others => ?_
        refine Consumes.pure fun after front others before asked => ?_
        simp [asked.1, ← others]
      · refine Consumes.pure fun after before asked => ?_
        obtain ⟨nothing, count⟩ := asked
        have empty : after = [] := List.length_eq_zero_iff.mp (by simp at count; omega)
        simp [nothing, empty]

-----------------------------------------------------------------------------------------
-- Whole messages, in the order of `wire/messages.go`
-----------------------------------------------------------------------------------------

/-- A decoder that ends with `End` has read all there was. -/
theorem consumes_last {α : Type} {value : α} {post : α → Bytes → Bytes → Prop}
    (holds : post value [] [])
    : Consumes
        (do
          Decode.done
          pure value)
        post := by
  refine Consumes.bind consumes_done fun _ => Consumes.pure ?_
  intro after before ended
  obtain ⟨nothing, empty⟩ := ended
  obtain rfl : after = [] := by simpa using empty
  rw [nothing]
  exact holds

/-- A payload is its message's spelling when that is what the decoder consumes. -/
theorem Consumes.canonical {α : Type} {decode : Decode α} {wrap : α → Message}
    {payload : Bytes} {m : α}
    (consumes : Consumes decode fun m front after => (wrap m).payload = front ++ after)
    (decodes : Decode.run payload decode = .ok m)
    : (wrap m).payload = payload :=
  Consumes.run (Q := fun m whole => (wrap m).payload = whole) consumes decodes

theorem decodeInit_canonical {payload : Bytes} {m : InitRequest}
    (decodes : decodeInit payload = .ok m)
    : (Message.initRequest m).payload = payload := by
  refine Consumes.canonical ?_ decodes
  refine spells_uint32.bind fun version => ?_
  refine Consumes.bind (consumes_pairs maxExtendedPairs) fun extensions => Consumes.pure ?_
  intro after before pairs
  simp only [List.nil_append] at pairs
  simp [Message.payload_eq_bytes, Message.bytes, ← pairs]

theorem decodeVersion_canonical {payload : Bytes} {m : VersionReply}
    (decodes : decodeVersion payload = .ok m)
    : (Message.versionReply m).payload = payload := by
  rcases outcome : decodeInit payload with err | init
  · rw [decodeVersion, outcome] at decodes
    cases decodes
  · rw [decodeVersion, outcome] at decodes
    cases decodes
    exact decodeInit_canonical outcome

theorem decodePath_canonical {typ : UInt8} {payload : Bytes} {m : PathRequest}
    (decodes : decodePath typ payload = .ok m)
    : (Message.pathRequest m).payload = payload := by
  refine Consumes.canonical ?_ decodes
  refine spells_uint32.bind fun id => spells_blob.bind fun path => consumes_last ?_
  simp [Message.payload_eq_bytes, Message.bytes]

theorem decodeHandle_canonical {typ : UInt8} {payload : Bytes} {m : HandleRequest}
    (decodes : decodeHandle typ payload = .ok m)
    : (Message.handleRequest m).payload = payload := by
  refine Consumes.canonical ?_ decodes
  refine spells_uint32.bind fun id => spells_blob.bind fun handle => consumes_last ?_
  simp [Message.payload_eq_bytes, Message.bytes]

theorem decodeOpen_canonical {payload : Bytes} {m : OpenRequest}
    (decodes : decodeOpen payload = .ok m)
    : (Message.openRequest m).payload = payload := by
  refine Consumes.canonical ?_ decodes
  refine spells_uint32.bind fun id => spells_blob.bind fun path => ?_
  refine spells_uint32.bind fun pflags => spells_attributes.bind fun attrs => consumes_last ?_
  simp [Message.payload_eq_bytes, Message.bytes]

theorem decodeRead_canonical {payload : Bytes} {m : ReadRequest}
    (decodes : decodeRead payload = .ok m)
    : (Message.readRequest m).payload = payload := by
  refine Consumes.canonical ?_ decodes
  refine spells_uint32.bind fun id => spells_blob.bind fun handle => ?_
  refine spells_uint64.bind fun offset => spells_uint32.bind fun length => consumes_last ?_
  simp [Message.payload_eq_bytes, Message.bytes]

theorem decodeWrite_canonical {payload : Bytes} {m : WriteRequest}
    (decodes : decodeWrite payload = .ok m)
    : (Message.writeRequest m).payload = payload := by
  refine Consumes.canonical ?_ decodes
  refine spells_uint32.bind fun id => spells_blob.bind fun handle => ?_
  refine spells_uint64.bind fun offset => spells_blob.bind fun data => consumes_last ?_
  simp [Message.payload_eq_bytes, Message.bytes]

theorem decodeSetstat_canonical {typ : UInt8} {payload : Bytes} {m : SetstatRequest}
    (decodes : decodeSetstat typ payload = .ok m)
    : (Message.setstatRequest m).payload = payload := by
  refine Consumes.canonical ?_ decodes
  refine spells_uint32.bind fun id => spells_blob.bind fun path => ?_
  refine spells_attributes.bind fun attrs => consumes_last ?_
  simp [Message.payload_eq_bytes, Message.bytes]

theorem decodeFsetstat_canonical {payload : Bytes} {m : FsetstatRequest}
    (decodes : decodeFsetstat payload = .ok m)
    : (Message.fsetstatRequest m).payload = payload := by
  refine Consumes.canonical ?_ decodes
  refine spells_uint32.bind fun id => spells_blob.bind fun handle => ?_
  refine spells_attributes.bind fun attrs => consumes_last ?_
  simp [Message.payload_eq_bytes, Message.bytes]

theorem decodeRename_canonical {payload : Bytes} {m : RenameRequest}
    (decodes : decodeRename payload = .ok m)
    : (Message.renameRequest m).payload = payload := by
  refine Consumes.canonical ?_ decodes
  refine spells_uint32.bind fun id => spells_blob.bind fun oldPath => ?_
  refine spells_blob.bind fun newPath => consumes_last ?_
  simp [Message.payload_eq_bytes, Message.bytes]

theorem decodeSymlink_canonical {payload : Bytes} {m : SymlinkRequest}
    (decodes : decodeSymlink payload = .ok m)
    : (Message.symlinkRequest m).payload = payload := by
  refine Consumes.canonical ?_ decodes
  refine spells_uint32.bind fun id => spells_blob.bind fun targetPath => ?_
  refine spells_blob.bind fun linkPath => consumes_last ?_
  simp [Message.payload_eq_bytes, Message.bytes]

theorem decodeExtended_canonical {payload : Bytes} {m : ExtendedRequest}
    (decodes : decodeExtended payload = .ok m)
    : (Message.extendedRequest m).payload = payload := by
  refine Consumes.canonical ?_ decodes
  refine spells_uint32.bind fun id => spells_blob.bind fun name => ?_
  refine Consumes.bind consumes_tail fun data => Consumes.pure ?_
  intro after before left
  simp [Message.payload_eq_bytes, Message.bytes, left.1, left.2]

/-- The spellings of one STATUS that its decoder takes: whole, without the language, and
without message and language.
-/
def StatusReply.SpelledBy (m : StatusReply) (payload : Bytes) : Prop :=
  (Message.statusReply m).payload = payload
  ∨ m.lang = [] ∧ (Message.statusReply m).payload = payload ++ lengthPrefixed []
  ∨ m.message = []
    ∧ m.lang = []
    ∧ (Message.statusReply m).payload = payload ++ lengthPrefixed [] ++ lengthPrefixed []

/-- The decoder of STATUS tells the three spellings apart by what is left. -/
theorem decodeStatus_canonical {payload : Bytes} {m : StatusReply}
    (decodes : decodeStatus payload = .ok m)
    : m.SpelledBy payload := by
  refine Consumes.run ?_ decodes
  refine spells_uint32.bind fun id => spells_uint32.bind fun code => ?_
  refine Consumes.bind consumes_remaining fun left => ?_
  split
  · refine Consumes.pure fun after before asked => ?_
    have empty : after = [] := List.length_eq_zero_iff.mp (by simp at asked; omega)
    refine .inr (.inr ⟨rfl, rfl, ?_⟩)
    simp [Message.payload_eq_bytes, Message.bytes, asked.1, empty]
  · refine spells_blob.bind fun message => Consumes.bind consumes_remaining fun left => ?_
    split
    · refine Consumes.pure fun after before asked first earlier => ?_
      have empty : after = [] := List.length_eq_zero_iff.mp (by simp at asked; omega)
      refine .inr (.inl ⟨rfl, ?_⟩)
      simp [Message.payload_eq_bytes, Message.bytes, asked.1, earlier.1, empty]
    · refine spells_blob.bind fun lang => consumes_last ?_
      intro before asked first earlier
      exact .inl (by simp [Message.payload_eq_bytes, Message.bytes, asked.1, earlier.1])

theorem decodeHandleReply_canonical {payload : Bytes} {m : HandleReply}
    (decodes : decodeHandleReply payload = .ok m)
    : (Message.handleReply m).payload = payload := by
  refine Consumes.canonical ?_ decodes
  refine spells_uint32.bind fun id => spells_blob.bind fun handle => consumes_last ?_
  simp [Message.payload_eq_bytes, Message.bytes]

theorem decodeData_canonical {payload : Bytes} {m : DataReply}
    (decodes : decodeData payload = .ok m)
    : (Message.dataReply m).payload = payload := by
  refine Consumes.canonical ?_ decodes
  refine spells_uint32.bind fun id => spells_blob.bind fun data => consumes_last ?_
  simp [Message.payload_eq_bytes, Message.bytes]

theorem decodeName_canonical {payload : Bytes} {m : NameReply}
    (decodes : decodeName payload = .ok m)
    : (Message.nameReply m).payload = payload := by
  refine Consumes.canonical ?_ decodes
  refine spells_uint32.bind fun id => spells_uint32.bind fun n => ?_
  split
  · exact Consumes.throw
  · refine Consumes.bind (consumes_counted spells_item n.toNat) fun items => ?_
    refine consumes_last ?_
    intro before counted
    simp [Message.payload_eq_bytes, Message.bytes, counted.1, counted.2]

theorem decodeAttrs_canonical {payload : Bytes} {m : AttrsReply}
    (decodes : decodeAttrs payload = .ok m)
    : (Message.attrsReply m).payload = payload := by
  refine Consumes.canonical ?_ decodes
  refine spells_uint32.bind fun id => spells_attributes.bind fun attrs => consumes_last ?_
  simp [Message.payload_eq_bytes, Message.bytes]

theorem decodeExtendedReply_canonical {payload : Bytes} {m : ExtendedReply}
    (decodes : decodeExtendedReply payload = .ok m)
    : (Message.extendedReply m).payload = payload := by
  refine Consumes.canonical ?_ decodes
  refine spells_uint32.bind fun id => Consumes.bind consumes_tail fun data => ?_
  refine Consumes.pure fun after before left => ?_
  simp [Message.payload_eq_bytes, Message.bytes, left.1, left.2]

/-- What a decoder that is mapped into `Message` accepted. -/
theorem accepted_of_map {α : Type} {wrap : α → Message} {outcome : Except WireError α}
    {m : Message} (accepts : wrap <$> outcome = .ok m)
    : ∃ value, outcome = .ok value ∧ m = wrap value := by
  rcases outcome with err | value
  · cases accepts
  · cases accepts
    exact ⟨value, rfl, rfl⟩

/-- Whatever bytes a decoder accepts, the message it returns encodes to those bytes; a
STATUS may have left out the strings that are then empty. By cases on the decoder.
-/
theorem decodeAs_canonical (kind m : Message) (payload : Bytes)
    (accepts : kind.decodeAs payload = .ok m)
    : ((∀ s, kind ≠ .statusReply s) → m.payload = payload)
      ∧ (∀ s, kind = .statusReply s → ∃ r, m = .statusReply r ∧ r.SpelledBy payload) := by
  cases kind with
  | statusReply s =>
      obtain ⟨r, decodes, rfl⟩ := accepted_of_map accepts
      exact ⟨fun other => absurd rfl (other s),
        fun _ _ => ⟨r, rfl, decodeStatus_canonical decodes⟩⟩
  | initRequest _ =>
      obtain ⟨r, decodes, rfl⟩ := accepted_of_map accepts
      exact ⟨fun _ => decodeInit_canonical decodes, nofun⟩
  | versionReply _ =>
      obtain ⟨r, decodes, rfl⟩ := accepted_of_map accepts
      exact ⟨fun _ => decodeVersion_canonical decodes, nofun⟩
  | pathRequest _ =>
      obtain ⟨r, decodes, rfl⟩ := accepted_of_map accepts
      exact ⟨fun _ => decodePath_canonical decodes, nofun⟩
  | handleRequest _ =>
      obtain ⟨r, decodes, rfl⟩ := accepted_of_map accepts
      exact ⟨fun _ => decodeHandle_canonical decodes, nofun⟩
  | openRequest _ =>
      obtain ⟨r, decodes, rfl⟩ := accepted_of_map accepts
      exact ⟨fun _ => decodeOpen_canonical decodes, nofun⟩
  | readRequest _ =>
      obtain ⟨r, decodes, rfl⟩ := accepted_of_map accepts
      exact ⟨fun _ => decodeRead_canonical decodes, nofun⟩
  | writeRequest _ =>
      obtain ⟨r, decodes, rfl⟩ := accepted_of_map accepts
      exact ⟨fun _ => decodeWrite_canonical decodes, nofun⟩
  | setstatRequest _ =>
      obtain ⟨r, decodes, rfl⟩ := accepted_of_map accepts
      exact ⟨fun _ => decodeSetstat_canonical decodes, nofun⟩
  | fsetstatRequest _ =>
      obtain ⟨r, decodes, rfl⟩ := accepted_of_map accepts
      exact ⟨fun _ => decodeFsetstat_canonical decodes, nofun⟩
  | renameRequest _ =>
      obtain ⟨r, decodes, rfl⟩ := accepted_of_map accepts
      exact ⟨fun _ => decodeRename_canonical decodes, nofun⟩
  | symlinkRequest _ =>
      obtain ⟨r, decodes, rfl⟩ := accepted_of_map accepts
      exact ⟨fun _ => decodeSymlink_canonical decodes, nofun⟩
  | extendedRequest _ =>
      obtain ⟨r, decodes, rfl⟩ := accepted_of_map accepts
      exact ⟨fun _ => decodeExtended_canonical decodes, nofun⟩
  | handleReply _ =>
      obtain ⟨r, decodes, rfl⟩ := accepted_of_map accepts
      exact ⟨fun _ => decodeHandleReply_canonical decodes, nofun⟩
  | dataReply _ =>
      obtain ⟨r, decodes, rfl⟩ := accepted_of_map accepts
      exact ⟨fun _ => decodeData_canonical decodes, nofun⟩
  | nameReply _ =>
      obtain ⟨r, decodes, rfl⟩ := accepted_of_map accepts
      exact ⟨fun _ => decodeName_canonical decodes, nofun⟩
  | attrsReply _ =>
      obtain ⟨r, decodes, rfl⟩ := accepted_of_map accepts
      exact ⟨fun _ => decodeAttrs_canonical decodes, nofun⟩
  | extendedReply _ =>
      obtain ⟨r, decodes, rfl⟩ := accepted_of_map accepts
      exact ⟨fun _ => decodeExtendedReply_canonical decodes, nofun⟩

/-- An ATTRS reply with an unknown flag bit spells its bytes; a STATUS that ends after its
code spells a message whose encoding is two empty strings longer.
-/
theorem decodeAs_canonical_flagged_and_bare
    : let attrs : Message := .attrsReply { id := 7, attrs := { flags := 0x10 } }
      let bare : StatusReply := { id := 7, code := statusFailure, message := [], lang := [] }
      attrs.decodeAs [0, 0, 0, 7, 0, 0, 0, 16] = .ok attrs
      ∧ attrs.payload = [0, 0, 0, 7, 0, 0, 0, 16]
      ∧ (Message.statusReply bare).decodeAs [0, 0, 0, 7, 0, 0, 0, 4] = .ok (.statusReply bare)
      ∧ ∃ r, Message.statusReply bare = .statusReply r
          ∧ r.SpelledBy [0, 0, 0, 7, 0, 0, 0, 4] := by
  intro attrs bare
  have accepted : attrs.decodeAs [0, 0, 0, 7, 0, 0, 0, 16] = .ok attrs := rfl
  have stopped
      : (Message.statusReply bare).decodeAs [0, 0, 0, 7, 0, 0, 0, 4]
        = .ok (.statusReply bare) :=
    rfl
  exact ⟨accepted, (decodeAs_canonical attrs attrs _ accepted).1 nofun, stopped,
    (decodeAs_canonical (.statusReply bare) (.statusReply bare) _ stopped).2 bare rfl⟩

end SftpServer.Wire
