import SftpServer.Foundations.BigEndian

/-! Byte streams as a reader sees them: a source hands out its bytes in pieces of its own
choosing and then reports the end. `readFull` is Go's `io.ReadFull`; a `Buffered` source is
a `bufio.Reader` with its one-byte `Peek`.
-/

namespace SftpServer.Foundations

/-- How a read can end: `io.EOF`, `io.ErrUnexpectedEOF`, `io.ErrNoProgress`. -/
inductive ReadError where
  | eof
  | unexpectedEof
  | noProgress
  deriving DecidableEq, Repr

/-- What a read of at most `room` bytes returned, and the state it left. -/
structure ReadResult (σ : Type) where
  got : Bytes
  err : Option ReadError := none
  later : σ

/-- A finite source: each read takes bytes off the front of what is unread. A read without
an error comes closer to the end; the only error is the end itself.
-/
structure Source (σ : Type) where
  read : (room : Nat) → σ → ReadResult σ
  unread : σ → Bytes
  size : σ → Nat
  splits : ∀ {room s}, 0 < room → unread s = (read room s).got ++ unread (read room s).later
  bounded : ∀ {room s}, 0 < room → (read room s).got.length ≤ room
  shrinks : ∀ {room s}, 0 < room → (read room s).err = none → size (read room s).later < size s
  ends : ∀ {room s} {err : ReadError}, 0 < room → (read room s).err = some err
    → err = .eof ∧ unread (read room s).later = []

namespace Source

variable {σ : Type} (source : Source σ)

/-- The loop of `io.ReadAtLeast`: reads until `want` bytes are there or a read fails. -/
def readLoop (want : Nat) (s : σ) : ReadResult σ :=
  if _positive : 0 < want then
    let first := source.read want s
    if _goesOn : first.err = none then
      let rest := readLoop (want - first.got.length) first.later
      { rest with got := first.got ++ rest.got }
    else
      first
  else
    { got := [], later := s }
termination_by source.size s
decreasing_by exact source.shrinks _positive _goesOn

/-- `io.ReadFull`: an end inside the bytes wanted is unexpected, one before them is not. -/
def readFull (want : Nat) (s : σ) : ReadResult σ :=
  let all := source.readLoop want s
  if want ≤ all.got.length then { all with err := none }
  else if 0 < all.got.length ∧ all.err = some .eof then { all with err := some .unexpectedEof }
  else all

/-- The loop takes bytes off the front, and stops short only at the end; by induction along
the loop.
-/
theorem readLoop_spec (want : Nat) (s : σ)
    : source.unread s
        = (source.readLoop want s).got ++ source.unread (source.readLoop want s).later
      ∧ (source.readLoop want s).got.length ≤ want
      ∧ ((source.readLoop want s).got.length = want
        ∨ ((source.readLoop want s).err = some .eof
          ∧ source.unread (source.readLoop want s).later = [])) := by
  fun_induction source.readLoop want s with
  | case1 want s positive first goesOn later ih =>
      have taken : first.got.length ≤ want := source.bounded positive
      have split : source.unread s = first.got ++ source.unread first.later :=
        source.splits positive
      obtain ⟨rest, bounded, stops⟩ := ih
      simp only [later, List.length_append, List.append_assoc]
      refine ⟨?_, ?_, ?_⟩
      · rw [← rest]
        exact split
      · omega
      · rcases stops with whole | ended
        · exact .inl (by omega)
        · exact .inr ended
  | case2 want s positive first failed =>
      have split := source.splits (s := s) positive
      have taken := source.bounded (s := s) positive
      obtain ⟨err, found⟩ := Option.ne_none_iff_exists'.mp failed
      obtain ⟨rfl, empty⟩ := source.ends positive found
      exact ⟨split, taken, .inr ⟨found, empty⟩⟩
  | case3 want s none_wanted =>
      simp only [List.nil_append, List.length_nil]
      exact ⟨trivial, by omega, .inl (by omega)⟩

/-- What every read keeps, a full read keeps. -/
theorem readFull_keeps {P : σ → Prop} (want : Nat) {s : σ} (holds : P s)
    (keeps : ∀ {room s}, 0 < room → P s → P (source.read room s).later)
    : P (source.readFull want s).later := by
  have loop : P (source.readLoop want s).later := by
    fun_induction source.readLoop want s with
    | case1 want s positive first goesOn later ih => exact ih (keeps positive holds)
    | case2 want s positive first failed => exact keeps positive holds
    | case3 want s none_wanted => exact holds
  simp only [readFull]
  split_ifs <;> exact loop

/-- Bytes that are there are read whole, whatever the pieces they come in. -/
theorem readFull_whole (want : Nat) (s : σ) (enough : want ≤ (source.unread s).length)
    : (source.readFull want s).got = (source.unread s).take want
      ∧ (source.readFull want s).err = none
      ∧ source.unread (source.readFull want s).later = (source.unread s).drop want := by
  obtain ⟨split, bounded, stops⟩ := source.readLoop_spec want s
  have length : (source.readLoop want s).got.length = want := by
    rcases stops with whole | ended
    · exact whole
    · rw [ended.2, List.append_nil] at split
      rw [split] at enough
      omega
  have read : source.readFull want s = { source.readLoop want s with err := none } := by
    simp only [readFull, length, le_refl, if_true]
  rw [read]
  refine ⟨?_, rfl, ?_⟩
  · rw [split, List.take_left' length]
  · rw [split, List.drop_left' length]

/-- Too few bytes are all read, and how the read ends tells whether there were any. -/
theorem readFull_short (want : Nat) (s : σ) (few : (source.unread s).length < want)
    : (source.readFull want s).err
        = some (if source.unread s = [] then .eof else .unexpectedEof)
      ∧ source.unread (source.readFull want s).later = [] := by
  obtain ⟨split, bounded, stops⟩ := source.readLoop_spec want s
  have length := congrArg List.length split
  rw [List.length_append] at length
  obtain ⟨found, empty⟩ : (source.readLoop want s).err = some .eof
      ∧ source.unread (source.readLoop want s).later = [] := by
    rcases stops with whole | ended
    · omega
    · exact ended
  rw [empty, List.append_nil] at split
  have short : ¬ want ≤ (source.readLoop want s).got.length := by
    rw [← split]
    omega
  by_cases nothing : source.unread s = []
  · have none_got : ¬ (0 < (source.readLoop want s).got.length
        ∧ (source.readLoop want s).err = some .eof) := by
      rw [← split, nothing]
      simp
    simp only [readFull, if_neg short, if_neg none_got]
    exact ⟨by rw [found, if_pos nothing], empty⟩
  · have some_got : 0 < (source.readLoop want s).got.length :=
      List.length_pos_iff.mpr fun got => nothing (split.trans got)
    simp only [readFull, if_neg short, some_got, found, and_self, if_true, nothing, if_false,
      empty]

end Source

-----------------------------------------------------------------------------------------
-- A stream that arrives in pieces
-----------------------------------------------------------------------------------------

/-- What is still to come, a piece for each read that has room for it; a piece may be empty.
With `eager`, the read that takes the last bytes reports the end beside them.
-/
structure Stream where
  chunks : List Bytes
  eager : Bool := false
  deriving DecidableEq, Repr

namespace Stream

def unread (s : Stream) : Bytes := s.chunks.flatten

/-- The pieces after one read of at most `room` bytes. -/
def remaining (room : Nat) : List Bytes → List Bytes
  | [] => []
  | piece :: rest => if piece.drop room = [] then rest else piece.drop room :: rest

def read (room : Nat) (s : Stream) : ReadResult Stream :=
  match s.chunks with
  | [] => { got := [], err := some .eof, later := s }
  | piece :: rest =>
      let chunks := remaining room (piece :: rest)
      {
        got := piece.take room
        err := if s.eager ∧ chunks = [] then some .eof else none
        later := { s with chunks }
      }

theorem flatten_remaining (room : Nat) (piece : Bytes) (rest : List Bytes)
    : piece ++ rest.flatten = piece.take room ++ (remaining room (piece :: rest)).flatten := by
  have whole := List.take_append_drop room piece
  by_cases all : piece.drop room = []
  · rw [all, List.append_nil] at whole
    simp only [remaining, if_pos all, whole]
  · simp only [remaining, if_neg all, List.flatten_cons, ← List.append_assoc, whole]

/-- A bound on the reads to come: the bytes and the pieces that are left. -/
def size (s : Stream) : Nat := s.unread.length + s.chunks.length

/-- A read pays for the bytes it takes, and an unfailing one for the read itself: a piece
that is not used up has given a byte.
-/
theorem size_read {room : Nat} (positive : 0 < room) (s : Stream)
    : (s.read room).later.size + (s.read room).got.length ≤ s.size
      ∧ ((s.read room).err = none → (s.read room).later.size < s.size) := by
  rcases s with ⟨_ | ⟨piece, rest⟩, eager⟩
  · exact ⟨le_refl _, nofun⟩
  · have taken := congrArg List.length (flatten_remaining room piece rest)
    simp only [List.length_append] at taken
    have pieces : (remaining room (piece :: rest)).length ≤ rest.length + 1
        ∧ ((remaining room (piece :: rest)).length < rest.length + 1
          ∨ 0 < (piece.take room).length) := by
      by_cases all : piece.drop room = []
      · simp only [remaining, if_pos all]
        omega
      · have more : 0 < (piece.drop room).length := List.length_pos_iff.mpr all
        rw [List.length_drop] at more
        simp only [remaining, if_neg all, List.length_cons, List.length_take]
        omega
    simp only [read, size, unread, List.flatten_cons, List.length_append, List.length_cons]
    refine ⟨by omega, fun _ => by omega⟩

/-- Any stream of pieces is a source of its bytes. -/
def source : Source Stream where
  read := read
  unread := unread
  size := size
  splits {room s} _ := by
    rcases s with ⟨_ | ⟨piece, rest⟩, eager⟩
    · rfl
    · exact flatten_remaining room piece rest
  bounded {room s} _ := by
    rcases s with ⟨_ | ⟨piece, rest⟩, eager⟩
    · exact Nat.zero_le _
    · exact List.length_take_le room piece
  shrinks {room s} positive goesOn := (size_read positive s).2 goesOn
  ends {room s err} _ failed := by
    rcases s with ⟨_ | ⟨piece, rest⟩, eager⟩
    · cases failed
      exact ⟨rfl, rfl⟩
    · simp only [read] at failed ⊢
      split at failed
      · rename_i last
        cases failed
        exact ⟨rfl, by simp only [unread, last.2, List.flatten_nil]⟩
      · cases failed

/-- How many reads in a row return nothing. -/
def idle (chunks : List Bytes) : Nat := (chunks.takeWhile List.isEmpty).length

/-- How many such reads a `bufio.Reader` puts up with, `maxConsecutiveEmptyReads`. -/
def maxEmptyReads : Nat := 100

/-- No hundred reads in a row return nothing. -/
def Lively (s : Stream) : Prop := ∀ rest, rest <:+ s.chunks → idle rest < maxEmptyReads

theorem Lively.read {s : Stream} (lively : s.Lively) (room : Nat)
    : (s.read room).later.Lively := by
  rcases s with ⟨_ | ⟨piece, rest⟩, eager⟩
  · exact lively
  · intro later inside
    simp only [Stream.read, remaining] at inside
    split at inside
    · exact lively later (inside.trans (List.suffix_cons piece rest))
    · rename_i some_left
      rcases List.suffix_cons_iff.mp inside with rfl | inside
      · have busy : (piece.drop room).isEmpty = false := by simpa using some_left
        simp [idle, busy, maxEmptyReads]
      · exact lively later (inside.trans (List.suffix_cons piece rest))

/-- The reads of `bufio.Reader.fill`: until bytes or an error arrive. -/
def fill : (tries room : Nat) → Stream → ReadResult Stream
  | 0, _, s => { got := [], err := some .noProgress, later := s }
  | tries + 1, room, s =>
      let first := s.read room
      if first.err = none ∧ first.got = [] then fill tries room first.later else first

/-- What `fill` brings is the front of the stream, and an error beside bytes is the end; by
induction on the tries.
-/
theorem fill_spec {room : Nat} (positive : 0 < room) (tries : Nat) (s : Stream)
    : s.unread = (s.fill tries room).got ++ (s.fill tries room).later.unread
      ∧ ((s.fill tries room).got ≠ [] →
        ∀ err, (s.fill tries room).err = some err
          → err = .eof ∧ (s.fill tries room).later.unread = [])
      ∧ (s.Lively → (s.fill tries room).later.Lively) := by
  induction tries generalizing s with
  | zero => exact ⟨rfl, by simp [fill], id⟩
  | succ tries ih =>
      have split : s.unread = (s.read room).got ++ (s.read room).later.unread :=
        source.splits positive
      rw [fill]
      split
      · rename_i nothing
        obtain ⟨rest, ends, lively⟩ := ih (s.read room).later
        refine ⟨?_, ends, fun fit => lively (fit.read room)⟩
        rw [split, nothing.2, List.nil_append]
        exact rest
      · exact ⟨split, fun _ err failed => source.ends positive failed,
          fun fit => fit.read room⟩

/-- On a stream that does not idle too long, `fill` brings bytes or the end. -/
theorem fill_progress {room : Nat} (positive : 0 < room) (tries : Nat) (s : Stream)
    (busy : idle s.chunks < tries)
    : ((s.fill tries room).got = [] → (s.fill tries room).err = some .eof)
      ∧ (s.unread = [] ↔ (s.fill tries room).got = []) := by
  induction tries generalizing s with
  | zero => omega
  | succ tries ih =>
      rcases s with ⟨_ | ⟨piece, rest⟩, eager⟩
      · simp [fill, read, unread]
      · have split := flatten_remaining room piece rest
        rcases eq_or_ne piece [] with rfl | some_bytes
        · have after : (Stream.mk ([] :: rest) eager).read room
              = {
                got := []
                err := if eager ∧ rest = [] then some .eof else none
                later := { chunks := rest, eager }
              } := by
            simp [read, remaining]
          have fewer : idle rest < tries := by
            simp only [idle, List.takeWhile_cons, List.isEmpty_nil, if_true,
              List.length_cons] at busy ⊢
            omega
          rw [fill, after]
          split_ifs with last again again
          · simp at again
          · simp [unread, last.2]
          · exact ih _ fewer
          · simp at again
        · have some_read : piece.take room ≠ [] := by
            simp only [ne_eq, List.take_eq_nil_iff, some_bytes, or_false]
            omega
          have first : (Stream.mk (piece :: rest) eager).fill (tries + 1) room
              = (Stream.mk (piece :: rest) eager).read room := by
            rw [fill, if_neg fun both => some_read both.2]
          rw [first]
          simp [read, unread, some_bytes, some_read]

end Stream

-----------------------------------------------------------------------------------------
-- A buffered reader
-----------------------------------------------------------------------------------------

/-- A `bufio.Reader`: bytes read ahead of the caller, and the error that came with them. Only
the end of the stream is ever kept, since any other error has no bytes beside it.
-/
structure Buffered where
  capacity : Nat
  hasRoom : 0 < capacity
  buf : Bytes := []
  err : Option ReadError := none
  stream : Stream
  ended : ∀ e, err = some e → e = .eof ∧ stream.unread = []

namespace Buffered

def unread (b : Buffered) : Bytes := b.buf ++ b.stream.unread

/-- The reader after its error was reported. -/
def reported (b : Buffered) : Buffered := { b with err := none, ended := nofun }

/-- The reader after a read of the stream that leaves `buf` to the next call. -/
def refilled (b : Buffered) (buf : Bytes) (stream : Stream) : Buffered :=
  { b with buf, err := none, stream, ended := nofun }

/-- `Reader.Read`: what is buffered, else one read of the stream, straight into the caller's
room if that is no smaller than the buffer.
-/
def read (room : Nat) (b : Buffered) : ReadResult Buffered :=
  if room = 0 then
    if b.buf = [] then { got := [], err := b.err, later := b.reported }
    else { got := [], later := b }
  else if b.buf ≠ [] then
    { got := b.buf.take room, later := { b with buf := b.buf.drop room } }
  else if b.err ≠ none then
    { got := [], err := b.err, later := b.reported }
  else if b.capacity ≤ room then
    let direct := b.stream.read room
    { got := direct.got, err := direct.err, later := b.refilled [] direct.later }
  else
    let ahead := b.stream.read b.capacity
    if ahead.got = [] then
      { got := [], err := ahead.err, later := b.refilled [] ahead.later }
    else
      {
        got := ahead.got.take room
        later := {
          b with
          buf := ahead.got.drop room
          err := ahead.err
          stream := ahead.later
          ended := fun _ failed => Stream.source.ends b.hasRoom failed
        }
      }

/-- `Peek(1)`: no error when a byte is buffered, which it is read for if need be. -/
def peek (b : Buffered) : Option ReadError × Buffered :=
  if b.buf ≠ [] then (none, b)
  else if b.err ≠ none then (b.err, b.reported)
  else
    let ahead := b.stream.fill Stream.maxEmptyReads b.capacity
    if some_bytes : ahead.got ≠ [] then
      (none, {
        b with
        buf := ahead.got
        err := ahead.err
        stream := ahead.later
        ended := (Stream.fill_spec b.hasRoom _ b.stream).2.1 some_bytes
      })
    else
      (ahead.err, b.refilled [] ahead.later)

def size (b : Buffered) : Nat := b.buf.length + b.stream.size

/-- What one read of a buffered stream does, in each of the places its bytes come from. -/
structure ReadsFront (b : Buffered) (room : Nat) (result : ReadResult Buffered) : Prop where
  splits : b.unread = result.got ++ result.later.unread
  bounded : result.got.length ≤ room
  shrinks : result.err = none → result.later.size < b.size
  ends : ∀ e, result.err = some e → e = .eof ∧ result.later.unread = []
  lively : b.stream.Lively → result.later.stream.Lively

theorem read_spec {room : Nat} (positive : 0 < room) (b : Buffered)
    : b.ReadsFront room (b.read room) := by
  have some_room : ¬ room = 0 := by omega
  unfold read
  rw [if_neg some_room]
  split
  · rename_i buffered
    have some_left : 0 < b.buf.length := List.length_pos_iff.mpr buffered
    refine ⟨?_, List.length_take_le _ _, fun _ => ?_, nofun, id⟩
    · simp only [unread, ← List.append_assoc, List.take_append_drop]
    · simp only [size, List.length_drop]
      omega
  rename_i drained
  have nothing : b.buf = [] := by simpa using drained
  split
  · rename_i failed
    refine ⟨by simp [unread, reported, nothing], Nat.zero_le _, fun none_left => ?_, ?_, id⟩
    · exact absurd none_left failed
    · intro e found
      exact ⟨(b.ended e found).1, by simp [unread, reported, nothing, (b.ended e found).2]⟩
  split
  · -- The caller has as much room as the buffer: the stream reads straight into it.
    have taken := Stream.size_read positive b.stream
    refine ⟨?_, Stream.source.bounded positive, fun goesOn => ?_, fun e failed => ?_,
      fun fit => fit.read room⟩
    · simp only [unread, nothing, refilled, List.nil_append]
      exact Stream.source.splits positive
    · simp only [size, refilled, List.length_nil]
      have less := taken.2 goesOn
      omega
    · exact Stream.source.ends positive failed
  have taken := Stream.size_read b.hasRoom b.stream
  have split : b.stream.unread
      = (b.stream.read b.capacity).got ++ (b.stream.read b.capacity).later.unread :=
    Stream.source.splits b.hasRoom
  dsimp only
  split
  · rename_i empty
    refine ⟨?_, Nat.zero_le _, fun goesOn => ?_, fun e failed => ?_, fun fit => fit.read _⟩
    · simp only [unread, nothing, refilled, List.nil_append]
      rw [split, empty, List.nil_append]
    · simp only [size, refilled, List.length_nil]
      have less := taken.2 goesOn
      omega
    · exact Stream.source.ends b.hasRoom failed
  · rename_i some_read
    have some_got : 0 < (b.stream.read b.capacity).got.length :=
      List.length_pos_iff.mpr some_read
    refine ⟨?_, List.length_take_le _ _, fun _ => ?_, nofun, fun fit => fit.read _⟩
    · simp only [unread, nothing, List.nil_append]
      rw [split, ← List.append_assoc, List.take_append_drop]
    · simp only [size, List.length_drop]
      omega

/-- A buffered stream is a source of the same bytes. -/
def source : Source Buffered where
  read := read
  unread := unread
  size := size
  splits positive := (read_spec positive _).splits
  bounded positive := (read_spec positive _).bounded
  shrinks positive := (read_spec positive _).shrinks
  ends positive := (read_spec positive _).ends _

/-- A look at the next byte fails only at the end of the stream, and takes nothing. -/
theorem peek_spec {b : Buffered} (lively : b.stream.Lively)
    : b.peek.1 = (if b.unread = [] then some .eof else none)
      ∧ b.peek.2.unread = b.unread
      ∧ b.peek.2.stream.Lively := by
  by_cases buffered : b.buf ≠ []
  · simp [peek, unread, buffered, lively]
  have nothing : b.buf = [] := by simpa using buffered
  by_cases failed : b.err ≠ none
  · obtain ⟨e, found⟩ := Option.ne_none_iff_exists'.mp failed
    obtain ⟨rfl, empty⟩ := b.ended e found
    simp [peek, unread, reported, nothing, empty, found, lively]
  obtain ⟨split, _, fit⟩ :=
    Stream.fill_spec b.hasRoom Stream.maxEmptyReads b.stream
  obtain ⟨ends, empty_iff⟩ := Stream.fill_progress b.hasRoom Stream.maxEmptyReads b.stream
    (lively _ List.suffix_rfl)
  rw [peek, if_neg buffered, if_neg failed]
  dsimp only
  by_cases some_read : (b.stream.fill Stream.maxEmptyReads b.capacity).got ≠ []
  · have some_left : b.stream.unread ≠ [] := fun empty => some_read (empty_iff.mp empty)
    rw [dif_pos some_read]
    refine ⟨by simp [unread, nothing, some_left], ?_, fit lively⟩
    simp only [unread, nothing, List.nil_append]
    exact split.symm
  · have empty : (b.stream.fill Stream.maxEmptyReads b.capacity).got = [] := by
      simpa using some_read
    rw [dif_neg some_read]
    refine ⟨?_, ?_, fit lively⟩
    · simp [unread, nothing, ends empty, empty_iff.mpr empty]
    · rw [empty, List.nil_append] at split
      simp only [unread, refilled, nothing, List.nil_append]
      exact split.symm

end Buffered

end SftpServer.Foundations
