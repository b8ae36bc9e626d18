import SftpServer.Wire.Messages

/-! The fields of the format: what each occupies on the wire, the read that takes it back, and
that the read needs all of it. A decoder `Reads` some bytes when it consumes exactly those and
returns their value; it `Fails` on others. Both compose along the reads of a message, so each
message is the list of its fields.
-/

namespace SftpServer.Wire

open SftpServer.Foundations

/-- Where the unread bytes are `front` and then `after`, `decode` succeeds with `value`
and consumes `front`. Message decoders run under the default limit.
-/
def Reads {α : Type} (decode : Decode α) (front after : Bytes) (value : α) : Prop :=
  ∀ d : Decoder,
    d.limit ≤ 0
    → d.off ≤ d.buf.length
    → d.rest = front ++ after
    → decode d = (.ok value, { d with off := d.off + front.length })

/-- The bytes still unread add up to what is left of the buffer. -/
theorem Decoder.length_rest (d : Decoder) (within : d.off ≤ d.buf.length)
    : (d.rest.length : Int) = d.remaining := by
  simp only [Decoder.rest, Decoder.remaining, List.length_drop]
  omega

/-- Consuming `front` leaves `after` to read. -/
theorem Decoder.rest_advance {d : Decoder} {front after : Bytes}
    (split : d.rest = front ++ after)
    : ({ d with off := d.off + front.length } : Decoder).rest = after := by
  simp only [Decoder.rest] at split ⊢
  rw [← List.drop_drop, split, List.drop_left]

theorem Reads.pure {α : Type} (value : α) (after : Bytes)
    : Reads (Pure.pure value) [] after value := by
  intro d _ _ _
  rfl

/-- Reads in sequence consume their bytes in sequence. -/
theorem Reads.bind {α β : Type} {decode : Decode α} {next : α → Decode β}
    {front middle after : Bytes} {value : α} {result : β}
    (first : Reads decode front (middle ++ after) value)
    (second : Reads (next value) middle after result)
    : Reads (decode >>= next) (front ++ middle) after result := by
  intro d limit within split
  rw [List.append_assoc] at split
  have length := congrArg List.length split
  simp only [Decoder.rest, List.length_drop, List.length_append] at length
  have later := second { d with off := d.off + front.length } limit
    (by simp only; omega) (Decoder.rest_advance split)
  rw [Decode.bind_ok (first d limit within split), later, List.length_append,
    Nat.add_assoc]

/-- A read followed by a step that consumes nothing. -/
theorem Reads.then {α β : Type} {decode : Decode α} {next : α → Decode β}
    {front after : Bytes} {value : α} {result : β}
    (first : Reads decode front after value) (second : Reads (next value) [] after result)
    : Reads (decode >>= next) front after result := by
  have both : Reads (decode >>= next) (front ++ []) after result := first.bind second
  rwa [List.append_nil] at both

/-- A payload read whole is decoded. -/
theorem Reads.run {α : Type} {decode : Decode α} {front after : Bytes} {value : α}
    (reads : Reads decode front after value)
    : Decode.run (front ++ after) decode = .ok value := by
  have ok := reads (newDecoder (front ++ after)) (by simp [newDecoder])
    (by simp [newDecoder]) (by simp [newDecoder, Decoder.rest])
  simp only [Decode.run, ok]

theorem Reads.run_whole {α : Type} {decode : Decode α} {front : Bytes} {value : α}
    (reads : Reads decode front [] value)
    : Decode.run front decode = .ok value := by
  simpa only [List.append_nil] using reads.run

/-- Where the unread bytes are `rest`, `decode` fails with `err`. -/
def Fails {α : Type} (decode : Decode α) (rest : Bytes) (err : WireError) : Prop :=
  ∀ d : Decoder,
    d.limit ≤ 0
    → d.off ≤ d.buf.length
    → d.rest = rest
    → (decode d).1 = .error err

theorem Fails.bind {α β : Type} {decode : Decode α} {next : α → Decode β} {rest : Bytes}
    {err : WireError} (fails : Fails decode rest err)
    : Fails (decode >>= next) rest err := by
  intro d limit within unread
  have failed : decode d = (.error err, (decode d).2) :=
    Prod.ext (fails d limit within unread) rfl
  rw [Decode.bind_error failed]

/-- A sequence fails where its second step does, after what the first has read. -/
theorem Reads.fails {α β : Type} {decode : Decode α} {next : α → Decode β}
    {front after : Bytes} {value : α} {err : WireError}
    (reads : Reads decode front after value) (fails : Fails (next value) after err)
    : Fails (decode >>= next) (front ++ after) err := by
  intro d limit within unread
  have length := congrArg List.length unread
  simp only [Decoder.rest, List.length_drop, List.length_append] at length
  rw [Decode.bind_ok (reads d limit within unread)]
  exact fails _ limit (by simp only; omega) (Decoder.rest_advance unread)

theorem Fails.run {α : Type} {decode : Decode α} {payload : Bytes} {err : WireError}
    (fails : Fails decode payload err)
    : Decode.run payload decode = .error err := by
  apply fails
  · simp [newDecoder]
  · simp [newDecoder]
  · simp [newDecoder, Decoder.rest]

/-- `decode` needs all of `front`: on every strict prefix it runs short. -/
def Needs {α : Type} (decode : Decode α) (front : Bytes) : Prop :=
  ∀ cut, cut <+: front → cut ≠ front → Fails decode cut .errShort

/-- A field: `decode` takes `front` back as `value`, whatever follows, and needs all of it. -/
structure Field {α : Type} (decode : Decode α) (front : Bytes) (value : α) : Prop where
  reads : ∀ after, Reads decode front after value
  needs : Needs decode front

/-- A cut through two parts is inside the first, or the first is whole. -/
theorem cut_cases {front middle cut : Bytes} (inside : cut <+: front ++ middle)
    (strict : cut ≠ front ++ middle)
    : (cut <+: front ∧ cut ≠ front)
      ∨ ∃ later, cut = front ++ later ∧ later <+: middle ∧ later ≠ middle := by
  obtain ⟨rest, whole⟩ := inside
  rcases List.append_eq_append_iff.mp whole with ⟨missing, split, _⟩ | ⟨later, split, parts⟩
  · by_cases all : cut = front
    · subst all
      exact .inr ⟨[], by simp, List.nil_prefix, by rintro rfl; simp at strict⟩
    · exact .inl ⟨⟨missing, split.symm⟩, all⟩
  · refine .inr ⟨later, split, ⟨rest, parts.symm⟩, ?_⟩
    rintro rfl
    exact strict split

theorem Needs.nil {α : Type} {decode : Decode α} : Needs decode [] := by
  intro cut inside strict
  exact absurd (List.prefix_nil.mp inside) strict

/-- Two parts are needed when each is. -/
theorem Field.needs_bind {α β : Type} {decode : Decode α} {next : α → Decode β}
    {front middle : Bytes} {value : α} (field : Field decode front value)
    (later : Needs (next value) middle)
    : Needs (decode >>= next) (front ++ middle) := by
  intro cut inside strict
  rcases cut_cases inside strict with ⟨early, less⟩ | ⟨rest, rfl, early, less⟩
  · exact (field.needs cut early less).bind
  · exact (field.reads rest).fails (later rest early less)

theorem Field.bind {α β : Type} {decode : Decode α} {next : α → Decode β}
    {front middle : Bytes} {value : α} {result : β} (field : Field decode front value)
    (later : Field (next value) middle result)
    : Field (decode >>= next) (front ++ middle) result :=
  ⟨fun after => (field.reads _).bind (later.reads after), field.needs_bind later.needs⟩

theorem Field.pure {α : Type} (value : α) : Field (Pure.pure value) [] value :=
  ⟨Reads.pure value, Needs.nil⟩

/-- The last field before a result that reads nothing more. -/
theorem Field.then {α β : Type} {decode : Decode α} {next : α → Decode β} {front : Bytes}
    {value : α} {result : β} (field : Field decode front value)
    (later : Field (next value) [] result)
    : Field (decode >>= next) front result := by
  have both := field.bind later
  rwa [List.append_nil] at both

-----------------------------------------------------------------------------------------
-- Numbers and strings
-----------------------------------------------------------------------------------------

theorem reads_done : Reads Decode.done [] [] () := by
  intro d _ within split
  have left := d.length_rest within
  rw [split] at left
  simp only [Decode.done, ← left]
  rfl

theorem reads_remaining (after : Bytes)
    : Reads Decode.remaining [] after after.length := by
  intro d _ within split
  have left := d.length_rest within
  rw [split, List.nil_append] at left
  simp only [Decode.remaining, ← left]
  rfl

theorem reads_tail (after : Bytes) : Reads Decode.tail [] after after := by
  intro d _ _ split
  simp only [Decode.tail, split]
  rfl

theorem reads_uint32 (v : UInt32) (after : Bytes)
    : Reads Decode.uint32 (BigEndian.encode 4 v.toNat) after v := by
  intro d _ within split
  have left := d.length_rest within
  rw [split, List.length_append, BigEndian.length_encode] at left
  have value : UInt32.ofNat (v.toNat % 256 ^ 4) = v := by
    rw [Nat.mod_eq_of_lt (lt_of_lt_of_eq v.toNat_lt (by norm_num)), UInt32.ofNat_toNat]
  simp only [Decode.uint32, split, BigEndian.length_encode,
    List.take_left' (BigEndian.length_encode 4 v.toNat), BigEndian.decode_encode, value]
  rw [if_neg (by omega)]

theorem reads_uint64 (v : UInt64) (after : Bytes)
    : Reads Decode.uint64 (BigEndian.encode 8 v.toNat) after v := by
  intro d _ within split
  have left := d.length_rest within
  rw [split, List.length_append, BigEndian.length_encode] at left
  have value : UInt64.ofNat (v.toNat % 256 ^ 8) = v := by
    rw [Nat.mod_eq_of_lt (lt_of_lt_of_eq v.toNat_lt (by norm_num)), UInt64.ofNat_toNat]
  simp only [Decode.uint64, split, BigEndian.length_encode,
    List.take_left' (BigEndian.length_encode 8 v.toNat), BigEndian.decode_encode, value]
  rw [if_neg (by omega)]

/-- The body of a blob is taken back when it is within the limit. -/
theorem reads_take {body : Bytes} (short : body.length ≤ defaultLimit) (after : Bytes)
    : Reads (Decode.take body.length) body after body := by
  intro d limit within split
  have left := d.length_rest within
  rw [split, List.length_append] at left
  have ceiling : ¬ d.cap < body.length := by
    simp only [Decoder.cap, if_pos limit]
    omega
  simp only [Decode.take, if_neg ceiling, split, List.take_left]
  rw [if_neg (by omega)]

/-- What a string or blob adds to the buffer: its length, then its bytes. -/
def lengthPrefixed (s : Bytes) : Bytes :=
  BigEndian.encode 4 (UInt32.ofNat s.length).toNat ++ s

/-- A count below the limits is not mis-stated by its `uint32`. -/
theorem toNat_count {n : Nat} (small : n ≤ defaultLimit) : (UInt32.ofNat n).toNat = n := by
  have bound : defaultLimit = 262144 := rfl
  simp only [UInt32.toNat_ofNat']
  omega

/-- Fewer bytes are left than a strict prefix was cut from. -/
theorem remaining_lt {d : Decoder} {front : Bytes} (within : d.off ≤ d.buf.length)
    (inside : d.rest <+: front) (strict : d.rest ≠ front)
    : d.remaining < front.length := by
  have length := d.length_rest within
  have less : d.rest.length < front.length := by
    refine lt_of_le_of_ne inside.length_le fun same => strict ?_
    exact inside.eq_of_length same
  omega

theorem field_uint32 (v : UInt32) : Field Decode.uint32 (BigEndian.encode 4 v.toNat) v := by
  refine ⟨reads_uint32 v, ?_⟩
  intro cut inside strict d _ within unread
  subst unread
  have few := remaining_lt within inside strict
  rw [BigEndian.length_encode] at few
  rw [Decode.uint32, if_pos (by omega)]

theorem field_uint64 (v : UInt64) : Field Decode.uint64 (BigEndian.encode 8 v.toNat) v := by
  refine ⟨reads_uint64 v, ?_⟩
  intro cut inside strict d _ within unread
  subst unread
  have few := remaining_lt within inside strict
  rw [BigEndian.length_encode] at few
  rw [Decode.uint64, if_pos (by omega)]

theorem field_take {body : Bytes} (short : body.length ≤ defaultLimit)
    : Field (Decode.take body.length) body body := by
  refine ⟨reads_take short, ?_⟩
  intro cut inside strict d limit within unread
  subst unread
  have few := remaining_lt within inside strict
  have ceiling : ¬ d.cap < body.length := by
    simp only [Decoder.cap, if_pos limit]
    omega
  rw [Decode.take, if_neg ceiling, if_pos few]

@[simp]
theorem Encoder.uint32_buf (e : Encoder) (v : UInt32)
    : (e.uint32 v).buf = e.buf ++ BigEndian.encode 4 v.toNat :=
  rfl

@[simp]
theorem Encoder.uint64_buf (e : Encoder) (v : UInt64)
    : (e.uint64 v).buf = e.buf ++ BigEndian.encode 8 v.toNat :=
  rfl

@[simp]
theorem Encoder.blob_buf (e : Encoder) (b : Bytes)
    : (e.blob b).buf = e.buf ++ lengthPrefixed b := by
  simp [Encoder.blob, lengthPrefixed]

@[simp]
theorem Encoder.string_buf (e : Encoder) (s : Bytes)
    : (e.string s).buf = e.buf ++ lengthPrefixed s := by
  simp [Encoder.string, lengthPrefixed]

@[simp]
theorem Encoder.raw_buf (e : Encoder) (data : Bytes)
    : (e.raw data).buf = e.buf ++ data :=
  rfl

/-- Encoding a list appends what each element appends, by list induction. -/
theorem foldl_buf {α : Type} {encode : Encoder → α → Encoder} {bytes : α → Bytes}
    (one : ∀ e x, (encode e x).buf = e.buf ++ bytes x) (e : Encoder) (xs : List α)
    : (xs.foldl encode e).buf = e.buf ++ xs.flatMap bytes := by
  induction xs generalizing e with
  | nil => simp
  | cons x rest ih => simp [ih, one]

theorem field_blob {s : Bytes} (short : s.length ≤ defaultLimit)
    : Field Decode.blob (lengthPrefixed s) s := by
  refine (field_uint32 (UInt32.ofNat s.length)).bind ?_
  rw [toNat_count short]
  exact field_take short

theorem field_flagged {α : Type} {field : Decode α} {bytes : Bytes} {value : α}
    (present : Bool) (zero : α) (whole : Field field bytes value)
    : Field (decodeFlagged present zero field) (if present then bytes else [])
        (if present then value else zero) := by
  cases present with
  | true => exact whole
  | false => exact Field.pure zero

/-- A counted list is needed whole, by induction on the list. -/
theorem field_counted {α : Type} {item : Decode α} {bytes : α → Bytes} {result : α → α}
    (xs : List α) (each : ∀ x ∈ xs, Field item (bytes x) (result x))
    : Field (decodeCounted item xs.length) (xs.flatMap bytes) (xs.map result) := by
  induction xs with
  | nil => exact Field.pure []
  | cons x rest ih =>
      have later := ih fun y member => each y (by simp [member])
      rw [List.flatMap_cons, List.map_cons]
      exact (each x (by simp)).bind (later.then (Field.pure _))

-----------------------------------------------------------------------------------------
-- Extension pairs and attributes
-----------------------------------------------------------------------------------------

def ExtendedPair.bytes (p : ExtendedPair) : Bytes :=
  lengthPrefixed p.type ++ lengthPrefixed p.data

/-- Both strings of a pair fit the codec. -/
def ExtendedPair.WithinLimits (p : ExtendedPair) : Prop :=
  p.type.length ≤ defaultLimit ∧ p.data.length ≤ defaultLimit

theorem ExtendedPair.encode_buf (e : Encoder) (p : ExtendedPair)
    : (ExtendedPair.encode e p).buf = e.buf ++ p.bytes := by
  simp [ExtendedPair.encode, ExtendedPair.bytes]

theorem field_pair {p : ExtendedPair} (within : p.WithinLimits)
    : Field decodePair p.bytes p :=
  (field_blob within.1).bind ((field_blob within.2).then (Field.pure p))

/-- The pairs of INIT are taken back until nothing is left, by induction on the list;
there is room for each of them, and a pair is never empty on the wire.
-/
theorem reads_pairs (ps : List ExtendedPair) (room : Nat) (fits : ps.length ≤ room)
    (within : ∀ p ∈ ps, p.WithinLimits)
    : Reads (decodePairs room) (ps.flatMap ExtendedPair.bytes) [] ps := by
  induction ps generalizing room with
  | nil =>
      cases room with
      | zero => exact (reads_remaining []).then (Reads.pure [] [])
      | succ room => exact (reads_remaining []).then (Reads.pure [] [])
  | cons p rest ih =>
      cases room with
      | zero => simp at fits
      | succ room =>
          have nonempty : 0 < p.bytes.length := by
            simp only [ExtendedPair.bytes, lengthPrefixed, List.length_append,
              BigEndian.length_encode]
            omega
          have positive
              : 0 < ((p.bytes ++ rest.flatMap ExtendedPair.bytes).length : Int) := by
            rw [List.length_append]
            omega
          have later := ih room (by simpa using fits)
            (fun q member => within q (by simp [member]))
          -- The question what remains consumes nothing, so nothing stands before the pair.
          rw [List.flatMap_cons,
            ← List.nil_append (p.bytes ++ rest.flatMap ExtendedPair.bytes)]
          refine (reads_remaining _).bind ?_
          rw [List.append_nil, if_pos positive]
          exact ((field_pair (within p (by simp))).reads _).bind (later.then (Reads.pure _ []))

def Attributes.bytes (a : Attributes) : Bytes :=
  BigEndian.encode 4 a.flags.toNat
  ++ ((if a.has attrSize then BigEndian.encode 8 a.size.toNat else [])
  ++ ((if a.has attrUIDGID then BigEndian.encode 4 a.uid.toNat else [])
  ++ ((if a.has attrUIDGID then BigEndian.encode 4 a.gid.toNat else [])
  ++ ((if a.has attrPermissions then BigEndian.encode 4 a.permissions.toNat else [])
  ++ ((if a.has attrACModTime then BigEndian.encode 4 a.atime.toNat else [])
  ++ ((if a.has attrACModTime then BigEndian.encode 4 a.mtime.toNat else [])
  ++ (if a.has attrExtended then
        BigEndian.encode 4 (UInt32.ofNat a.extended.length).toNat
        ++ a.extended.flatMap ExtendedPair.bytes
      else [])))))))

/-- The attributes a peer is told: what no flag announces is zero. -/
def Attributes.announced (a : Attributes) : Attributes :=
  {
    flags := a.flags
    size := if a.has attrSize then a.size else 0
    uid := if a.has attrUIDGID then a.uid else 0
    gid := if a.has attrUIDGID then a.gid else 0
    permissions := if a.has attrPermissions then a.permissions else 0
    atime := if a.has attrACModTime then a.atime else 0
    mtime := if a.has attrACModTime then a.mtime else 0
    extended := if a.has attrExtended then a.extended else []
  }

def Attributes.WithinLimits (a : Attributes) : Prop :=
  a.extended.length ≤ maxExtendedPairs ∧ ∀ p ∈ a.extended, p.WithinLimits

theorem Attributes.encode_buf (a : Attributes) (e : Encoder)
    : (a.encode e).buf = e.buf ++ a.bytes := by
  have pairs := fun e : Encoder => foldl_buf ExtendedPair.encode_buf e a.extended
  simp only [Attributes.encode, Attributes.bytes]
  -- Each flag adds its fields or nothing, whatever the other flags are.
  cases a.has attrSize <;> cases a.has attrUIDGID <;> cases a.has attrPermissions
    <;> cases a.has attrACModTime <;> cases a.has attrExtended <;> simp [pairs]

/-- The counted extensions of an ATTRS structure. -/
theorem field_extended {ps : List ExtendedPair} (fits : ps.length ≤ maxExtendedPairs)
    (within : ∀ p ∈ ps, p.WithinLimits)
    : Field
        (do
          let n ← Decode.uint32
          if maxExtendedPairs < n.toNat then throw .errLimit
          else decodeCounted decodePair n.toNat)
        (BigEndian.encode 4 (UInt32.ofNat ps.length).toNat
          ++ ps.flatMap ExtendedPair.bytes)
        ps := by
  have small : maxExtendedPairs ≤ defaultLimit := by decide
  refine (field_uint32 (UInt32.ofNat ps.length)).bind ?_
  rw [toNat_count (fits.trans small), if_neg (by omega)]
  have all : Field (decodeCounted decodePair ps.length) (ps.flatMap ExtendedPair.bytes)
      (ps.map id) :=
    field_counted ps fun p member => field_pair (within p member)
  rwa [List.map_id] at all

theorem field_attributes {a : Attributes} (within : a.WithinLimits)
    : Field decodeAttributes a.bytes a.announced := by
  have extended := field_extended within.1 within.2
  refine (field_uint32 a.flags).bind ?_
  refine (field_flagged _ _ (field_uint64 a.size)).bind ?_
  refine (field_flagged _ _ (field_uint32 a.uid)).bind ?_
  refine (field_flagged _ _ (field_uint32 a.gid)).bind ?_
  refine (field_flagged _ _ (field_uint32 a.permissions)).bind ?_
  refine (field_flagged _ _ (field_uint32 a.atime)).bind ?_
  refine (field_flagged _ _ (field_uint32 a.mtime)).bind ?_
  exact (field_flagged _ _ extended).then (Field.pure a.announced)

-----------------------------------------------------------------------------------------
-- Entries of a NAME reply
-----------------------------------------------------------------------------------------

def NameItem.bytes (it : NameItem) : Bytes :=
  lengthPrefixed it.filename ++ (lengthPrefixed it.longname ++ it.attrs.bytes)

def NameItem.announced (it : NameItem) : NameItem :=
  { it with attrs := it.attrs.announced }

def NameItem.WithinLimits (it : NameItem) : Prop :=
  it.filename.length ≤ defaultLimit
  ∧ it.longname.length ≤ defaultLimit
  ∧ it.attrs.WithinLimits

theorem NameItem.encode_buf (e : Encoder) (it : NameItem)
    : (NameItem.encode e it).buf = e.buf ++ it.bytes := by
  simp [NameItem.encode, NameItem.bytes, Attributes.encode_buf]

theorem field_item {it : NameItem} (within : it.WithinLimits)
    : Field decodeItem it.bytes it.announced := by
  refine (field_blob within.1).bind ?_
  refine (field_blob within.2.1).bind ?_
  exact (field_attributes within.2.2).then (Field.pure it.announced)

end SftpServer.Wire
