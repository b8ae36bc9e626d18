import SftpServer.Correctness.PacketServing

/-! Files come back as they were sent. Clients send requests, which are served one at a time;
some of them write the pieces of a file, in any order and on any handles, while others are busy
with other files. Whoever then reads the file to its end, in chunks and again in any order, has
what was sent.
-/

namespace SftpServer.Sftp

open SftpServer.Foundations
open SftpServer.Wire

-----------------------------------------------------------------------------------------
-- Conversations
-----------------------------------------------------------------------------------------

/-- A request of a client that was answered, with the handles the client had. -/
structure Entry (ι : Type) where
  client : ι
  grants : Grants
  adrift : Adrift
  typ : UInt8
  payload : Bytes
  reply : Message

namespace Entry

variable {ι : Type}

def command (e : Entry ι) : Command := .ofPacket e.grants e.typ e.payload

/-- It touches neither the path nor what lies above it. -/
def Apart (path : Bytes) (e : Entry ι) : Prop :=
  ∀ top ∈ e.command.touches e.grants e.adrift, ¬Below top path

/-- The client's handle is on the file at the path. -/
def On (path : Bytes) (e : Entry ι) (token : Bytes) : Prop :=
  (e.grants token).map Grant.path = some path ∧ e.adrift token = false

instance (path : Bytes) (e : Entry ι) (token : Bytes) : Decidable (e.On path token) :=
  inferInstanceAs (Decidable (_ ∧ _))

/-- What a WRITE to the path that was acknowledged has written. -/
def written (path : Bytes) (e : Entry ι) : Option (Nat × Bytes) :=
  match e.command with
  | .write m =>
      if e.On path m.handle ∧ e.reply = status m.id statusOK [] then
        some (m.offset.toNat, m.data)
      else none
  | _ => none

/-- What a READ of the path was given. -/
def given (path : Bytes) (e : Entry ι) : Option (Nat × Bytes) :=
  match e.command, e.reply with
  | .read m, .dataReply r =>
      if e.On path m.handle ∧ 0 < m.length ∧ r.id = m.id then some (m.offset.toNat, r.data)
      else none
  | _, _ => none

/-- Where a READ of the path was told that the file ends. -/
def ended (path : Bytes) (e : Entry ι) : Option Nat :=
  match e.command with
  | .read m =>
      if e.On path m.handle ∧ e.reply = status m.id statusEOF [] then some m.offset.toNat
      else none
  | _ => none

end Entry

/-- The files that served requests lead through. -/
inductive Entry.Chain {ι : Type} (srv : Server) : Contents → List (Entry ι) → Contents → Prop where
  | nil (files : Contents) : Chain srv files [] files
  | cons {files middle later : Contents} {e : Entry ι} {rest : List (Entry ι)} {granted : Grants}
    (served : Serves srv files e.grants e.adrift e.typ e.payload e.reply middle granted)
    (onwards : Chain srv middle rest later)
    : Chain srv files (e :: rest) later

section Files

variable {ι : Type} {srv : Server} {files later : Contents} {entries : List (Entry ι)}
  {path content : Bytes}

/-- A chain in two parts, by induction on the first. -/
theorem Entry.Chain.split {early late : List (Entry ι)}
    (chain : Entry.Chain srv files (early ++ late) later)
    : ∃ middle, Entry.Chain srv files early middle ∧ Entry.Chain srv middle late later := by
  induction early generalizing files with
  | nil => exact ⟨files, .nil files, chain⟩
  | cons e early ih =>
      cases chain with
      | cons served onwards =>
          obtain ⟨middle, first, second⟩ := ih onwards
          exact ⟨middle, .cons served first, second⟩

section Entries

variable {e : Entry ι} {granted : Grants} {off : Nat} {data : Bytes}
  (served : Serves srv files e.grants e.adrift e.typ e.payload e.reply later granted)

theorem Entry.On.path_eq {token : Bytes} {grant : Grant} (on : e.On path token)
    (found : e.grants token = some grant)
    : grant.path = path := by
  rw [Entry.On, found] at on
  exact Option.some.inj on.1

include served in
/-- A WRITE that was acknowledged is in the file. -/
theorem Serves.stores (wrote : e.written path = some (off, data)) (nonempty : data ≠ [])
    (stored : files path = some content)
    : later path = some (writeAt true 0 content off data) := by
  unfold Entry.written at wrote
  split at wrote
  case h_2 => cases wrote
  case h_1 m writes =>
    obtain ⟨⟨on, acknowledged⟩, same⟩ := Option.ite_none_right_eq_some.mp wrote
    cases same
    have tells := served.tells
    rw [show Command.ofPacket e.grants e.typ e.payload = .write m from writes] at tells
    obtain ⟨grant, found, _, _, does⟩ := tells acknowledged
    rw [on.path_eq found] at does
    obtain ⟨pads, rfl⟩ := does content on.2 stored
    rw [Function.update_self]
    cases pads with
    | true => rfl
    | false => rw [writeAt_padding_iff.mpr (.inl nonempty)]

include served in
/-- What a READ was given is in the file. -/
theorem Serves.gives (gave : e.given path = some (off, data)) (stored : files path = some content)
    (small : content.length < 2 ^ 63)
    : data <+: content.drop off := by
  unfold Entry.given at gave
  split at gave
  case h_2 => cases gave
  case h_1 m r reads replied =>
    obtain ⟨⟨on, asks, own⟩, same⟩ := Option.ite_none_right_eq_some.mp gave
    cases same
    have tells := served.tells
    rw [show Command.ofPacket e.grants e.typ e.payload = .read m from reads] at tells
    have reply : e.reply = .dataReply { id := m.id, data := r.data } := by rw [replied, ← own]
    obtain ⟨grant, found, _, shows⟩ := tells.1 r.data reply asks
    rw [on.path_eq found] at shows
    exact (shows content on.2 stored small).2.trans (List.take_prefix _ _)

include served in
/-- A READ that was told of the end was at the end. -/
theorem Serves.ends (finished : e.ended path = some off) (stored : files path = some content)
    (small : content.length < 2 ^ 63)
    : content.length ≤ off := by
  unfold Entry.ended at finished
  split at finished
  case h_2 => cases finished
  case h_1 m reads =>
    obtain ⟨⟨on, replied⟩, same⟩ := Option.ite_none_right_eq_some.mp finished
    cases same
    have tells := served.tells
    rw [show Command.ofPacket e.grants e.typ e.payload = .read m from reads] at tells
    obtain ⟨grant, found, _, shows⟩ := tells.2 replied
    rw [on.path_eq found] at shows
    exact shows content on.2 stored small

end Entries

/-- WRITEs to the path, whoever's they are, are in the file one after the other, whatever
happens to other files in between, by induction on the chain.
-/
theorem Entry.Chain.written (chain : Entry.Chain srv files entries later)
    (only : ∀ e ∈ entries, e.Apart path ∨ (e.written path).isSome = true)
    (some_data : ∀ write ∈ entries.filterMap (Entry.written path), write.2 ≠ [])
    (stored : files path = some content)
    : later path = some (writeAll true 0 content (entries.filterMap (Entry.written path))) := by
  induction chain generalizing content with
  | nil => exact stored
  | @cons files middle later e rest granted served _ ih =>
      have others := fun e member => only e (List.mem_cons_of_mem _ member)
      cases wrote : e.written path with
      | none =>
          have apart : e.Apart path := by simpa [wrote] using only e (List.mem_cons_self ..)
          rw [List.filterMap_cons_none wrote] at some_data ⊢
          exact ih others some_data ((served.others path apart).trans stored)
      | some write =>
          rw [List.filterMap_cons_some wrote] at some_data ⊢
          have nonempty := some_data write (List.mem_cons_self ..)
          exact ih others (fun write member => some_data write (List.mem_cons_of_mem _ member))
            (served.stores wrote nonempty stored)

/-- A file that every request leaves alone stays as it is, and is what READs are given of it, by
induction on the chain.
-/
theorem Entry.Chain.read (chain : Entry.Chain srv files entries later)
    (calm : ∀ e ∈ entries, e.Apart path) (stored : files path = some content)
    (small : content.length < 2 ^ 63)
    : (∀ chunk ∈ entries.filterMap (Entry.given path), chunk.2 <+: content.drop chunk.1)
      ∧ ∀ off ∈ entries.filterMap (Entry.ended path), content.length ≤ off := by
  induction chain with
  | nil => exact ⟨nofun, nofun⟩
  | @cons files middle later e rest granted served _ ih =>
      have kept := (served.others path (calm e (List.mem_cons_self ..))).trans stored
      obtain ⟨given, ended⟩ := ih (fun e member => calm e (List.mem_cons_of_mem _ member)) kept
      constructor
      · intro chunk member
        obtain ⟨from_, member, gave⟩ := List.mem_filterMap.mp member
        rcases List.mem_cons.mp member with rfl | later
        · exact served.gives gave stored small
        · exact given chunk (List.mem_filterMap.mpr ⟨from_, later, gave⟩)
      · intro off member
        obtain ⟨from_, member, finished⟩ := List.mem_filterMap.mp member
        rcases List.mem_cons.mp member with rfl | later
        · exact served.ends finished stored small
        · exact ended off (List.mem_filterMap.mpr ⟨from_, later, finished⟩)

end Files

end SftpServer.Sftp
