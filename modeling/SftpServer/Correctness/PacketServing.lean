import SftpServer.Correctness.HandleServing

/-! READ and WRITE on every path they may take, and with them every packet: whatever a client
sends is answered as the service of files answers it.
-/

namespace SftpServer.Sftp

open SftpServer.Foundations
open SftpServer.Wire

section Commands

variable {State : Type} {store : HonestStore State} {srv : Server} {t : Handles} {adrift : Adrift}
  {s : State} {command : Command} (names : store.Names s adrift t)

include names

-----------------------------------------------------------------------------------------
-- READ and WRITE
-----------------------------------------------------------------------------------------

section Jobs

variable {h : OpenFile}

omit names in
/-- What a READ on a handle is told. -/
theorem tells_read {m : ReadRequest} {files later : Contents} {reply : Message}
    (found : t.get m.handle = some h) (isFile : h.dir = false)
    (reads : ∀ data, reply = .dataReply { id := m.id, data }
      → ∀ content, adrift m.handle = false → files h.path = some content
        → content.length < 2 ^ 63
        → data ≠ [] ∧ data <+: window content m.offset.toNat (min m.length.toNat srv.readLength))
    (ends : reply = status m.id statusEOF []
      → ∀ content, adrift m.handle = false → files h.path = some content
        → content.length < 2 ^ 63
        → content.length ≤ m.offset.toNat)
    : (Command.read m).Tells srv files t.grants adrift reply later :=
  ⟨fun data same _ => ⟨h.grant, Handles.grants_of_get found, isFile, reads data same⟩,
    fun same => ⟨h.grant, Handles.grants_of_get found, isFile, ends same⟩⟩

omit names in
theorem ReadRequest.asked_pos {m : ReadRequest} (asks : m.length ≠ 0)
    : 0 < min m.length.toNat srv.readLength := by
  refine Nat.lt_min.mpr ⟨Nat.pos_of_ne_zero fun none => asks ?_, srv.readLength_pos⟩
  exact UInt32.toNat_inj.mp none

/-- A READ of an open file. -/
theorem fulfils_readAt {m : ReadRequest} {file : File} (found : t.get m.handle = some h)
    (isFile : h.dir = false) (opened : h.file = some file) (asks : m.length ≠ 0)
    : store.Fulfils srv t adrift s (.read m) (Interaction.exec store.respond s
        (keeping t (readAt m.id file m.offset (min m.length.toNat srv.readLength)))) := by
  have positive : 0 < min m.length.toNat srv.readLength := ReadRequest.asked_pos asks
  generalize count : min m.length.toNat srv.readLength = n at positive
  have spares := @HonestStore.exec_spares _ [] [] _ (readAt m.id file m.offset n) _ store s
    (readAt_calls m.id fun _ => .still trivial rfl)
  rw [exec_keeping]
  refine ⟨spares, fun _ => spares.untouched, rfl, ?_, names.casts spares⟩
  dsimp only
  unfold readAt
  by_cases beyond : maxInt64 < m.offset
  · rw [if_pos beyond]
    refine tells_read found isFile (fun _ same => by cases same) fun _ content _ _ sized => ?_
    rw [UInt64.lt_iff_toNat_lt] at beyond
    have largest : maxInt64.toNat = 2 ^ 63 - 1 := rfl
    omega
  rw [if_neg beyond]
  simp only [File.readAt, Interaction.exec_bind, Interaction.exec_ask, Interaction.exec_ret,
    FileStore.respond]
  have honest content (anchored : adrift m.handle = false) :=
    store.readsAt s file h.path n m.offset.toInt64 m.offset.toNat content
      (names m.handle h found anchored file (.inl opened)) (toInt_toInt64 beyond)
  obtain ⟨⟨got, err⟩, answered⟩ : ∃ answer : Bytes × Option DriverError,
      (store.serve s (.fileReadAt file n m.offset.toInt64)).1 = answer := ⟨_, rfl⟩
  simp only [answered] at honest ⊢
  have ended (reported : ∀ e ∈ err, DriverError.isEOF e = true) (none : got = []) (content : Bytes)
      (anchored : adrift m.handle = false) (stored : store.contents s h.path = some content)
      : content.length ≤ m.offset.toNat := by
    have empty := window_eq_nil_iff.mp ((honest content anchored stored).2 none reported)
    omega
  by_cases some : 0 < got.length
  · rw [if_pos some]
    refine tells_read found isFile (fun data same content anchored stored _ => ?_)
      fun same => by cases same
    cases same
    rw [count]
    exact ⟨List.length_pos_iff.mp some, (honest content anchored stored).1⟩
  have none : got = [] := by simpa using some
  rw [if_neg some]
  cases err with
  | none =>
      exact tells_read found isFile (fun _ same => by cases same) fun _ content anchored stored _ =>
        ended (fun _ same => by cases same) none content anchored stored
  | some err =>
      dsimp only
      by_cases atEnd : err.isEOF = true
      · rw [if_pos atEnd]
        refine tells_read found isFile (fun _ same => by cases same)
          fun _ content anchored stored _ =>
            ended (fun other same => ?_) none content anchored stored
        cases same
        exact atEnd
      · rw [if_neg atEnd]
        exact Command.tells_of_declines (declines_statusErr m.id err (by decide)) _

theorem fulfils_readWhole {m : ReadRequest} (found : t.get m.handle = some h)
    (isFile : h.dir = false) (asks : m.length ≠ 0)
    : store.Fulfils srv t adrift s (.read m) (Interaction.exec store.respond s
        (keeping t (readWhole m.id h.path m.offset (min m.length.toNat srv.readLength)))) := by
  have positive : 0 < min m.length.toNat srv.readLength := ReadRequest.asked_pos asks
  generalize count : min m.length.toNat srv.readLength = n at positive
  have spares := @HonestStore.exec_spares _ [] [] _ (readWhole m.id h.path m.offset n) _ store s
    (readWhole_calls m.id m.offset n (.still trivial rfl))
  rw [exec_keeping]
  refine ⟨spares, fun _ => spares.untouched, rfl, ?_, names.casts spares⟩
  simp only [readWhole, Fsys.readFile, Interaction.exec_bind, Interaction.exec_ask,
    Interaction.exec_ret, FileStore.respond]
  cases answered : (store.serve s (.readFile h.path)).1 with
  | error err => exact Command.tells_of_declines (declines_statusErr m.id err (by decide)) _
  | ok data =>
      have stored := store.reads s h.path data answered
      dsimp only
      by_cases ended : data.length ≤ m.offset.toNat
      · rw [if_pos ended]
        refine tells_read found isFile (fun _ same => by cases same) fun _ content _ same _ => ?_
        cases stored.symm.trans same
        exact ended
      rw [if_neg ended]
      refine tells_read found isFile (fun slice same content _ here sized => ?_)
        fun same => by cases same
      cases stored.symm.trans here
      cases same
      have room : satAdd m.offset.toNat n = m.offset.toNat + n
          ∨ data.length ≤ satAdd m.offset.toNat n := by
        unfold satAdd
        omega
      rw [count, window, List.drop_take]
      refine ⟨?_, (List.take_prefix_take_left ?_)⟩
      · rw [Ne, List.take_eq_nil_iff, List.drop_eq_nil_iff]
        omega
      · unfold satAdd
        omega

theorem fulfils_writeAt {m : WriteRequest} {file : File} (accepted : WriteAccepted srv t m h)
    (opened : h.writable = some file)
    : store.Fulfils srv t adrift s (.write m) (Interaction.exec store.respond s
        (keeping t (statusOf m.id (file.writeAt m.data m.offset.toInt64) statusFailure))) := by
  refine fulfils_statusOf names m.id (by decide) accepted.writable rfl ?_ fun wrote _ => ?_
  · exact ⟨.of_call (names.reaches accepted.found (.inr opened)) (List.nil_subset _),
      fun _ => trivial⟩
  refine ⟨h.grant, Handles.grants_of_get accepted.found, accepted.isFile, accepted.forWriting, ?_⟩
  intro old anchored stored
  exact store.writesAt s file h.path m.data m.offset.toInt64 m.offset.toNat old
    (names m.handle h accepted.found anchored file (.inr opened)) (toInt_toInt64 accepted.fits)
    stored wrote

omit names in
theorem writeSplice_settles {isAt : File → Bytes → Prop} {tops : List Bytes} {path : Bytes}
    (reaches : [slash] ∈ tops ∨ path ∈ tops) (id : UInt32) (off : UInt64) (data : Bytes)
    : (writeSplice id path off data).Asks (Touching isAt tops []) (Concludes id) := by
  refine .call (.still trivial rfl) fun answer => ?_
  cases answer with
  | error err => exact .inl (declines_statusErr id err (by decide))
  | ok old =>
      dsimp only
      split
      · exact .inl (declines_status _ _ (by decide))
      refine .call (.of_call reaches (List.nil_subset _)) fun written => ?_
      cases written with
      | none => exact .inr rfl
      | some err => exact .inl (declines_statusErr id err (by decide))

omit names in
/-- A handle reaches its path. -/
theorem path_mem_reach {token : Bytes} (found : t.get token = some h)
    : [slash] ∈ Command.reach t.grants adrift token
      ∨ h.path ∈ Command.reach t.grants adrift token := by
  rw [Handles.reach_of_get found]
  cases adrift token with
  | true => exact .inl (List.mem_singleton_self _)
  | false => exact .inr (List.mem_singleton_self _)

theorem fulfils_writeSplice {m : WriteRequest} (accepted : WriteAccepted srv t m h)
    : store.Fulfils srv t adrift s (.write m) (Interaction.exec store.respond s
        (keeping t (writeSplice m.id h.path m.offset m.data))) := by
  refine @fulfils_settled _ _ _ _ _ _ _ names _ m.id accepted.writable rfl ?_ fun ok _ => ?_
  · exact writeSplice_settles (path_mem_reach accepted.found) m.id m.offset m.data
  refine ⟨h.grant, Handles.grants_of_get accepted.found, accepted.isFile, accepted.forWriting, ?_⟩
  intro old _ stored
  obtain ⟨old', stored', wrote⟩ := store.writeSplice_ok ok
  cases stored.symm.trans stored'
  exact ⟨true, wrote⟩

end Jobs

-----------------------------------------------------------------------------------------
-- Packets
-----------------------------------------------------------------------------------------

theorem fulfils_malformed (payload : Bytes) (err : WireError)
    : store.Fulfils srv t adrift s .other ((badMessage (requestID payload) err, t), s) :=
  fulfils_declined names (declines_status _ _ (by decide)) rfl

/-- A request that is refused if it does not decode. -/
theorem fulfils_decoded {α : Type} {payload : Bytes} {request : Except WireError α}
    {command : α → Command} {op : α → Prog (Message × Handles)}
    (done : ∀ m, request = .ok m
      → store.Fulfils srv t adrift s (command m) (Interaction.exec store.respond s (op m)))
    : store.Fulfils srv t adrift s (.ofDecoded request command)
        (Interaction.exec store.respond s (decoded t (requestID payload) request op)) := by
  cases request with
  | error err => exact fulfils_malformed names payload err
  | ok m => exact done m rfl

/-- A request that asks nothing of the files, or is refused. -/
theorem fulfils_looked {α : Type} {payload : Bytes} {request : Except WireError α}
    {op : α → Prog Message}
    (asks : ∀ m, (op m).Asks (Touching (store.Steady s []) [] []) fun _ => True)
    : store.Fulfils srv t adrift s .other (Interaction.exec store.respond s
        (decoded t (requestID payload) request fun m => keeping t (op m))) := by
  cases request with
  | error err => exact fulfils_malformed names payload err
  | ok m => exact fulfils_looking names (asks m)

omit names in
/-- One comparison of the switch over packet types. -/
theorem ite_fulfils {c : Prop} [Decidable c] {chosen other : Prog (Message × Handles)}
    (yes : c → store.Fulfils srv t adrift s command (Interaction.exec store.respond s chosen))
    (no : ¬c → store.Fulfils srv t adrift s command (Interaction.exec store.respond s other))
    : store.Fulfils srv t adrift s command
        (Interaction.exec store.respond s (if c then chosen else other)) := by
  by_cases holds : c
  · rw [if_pos holds]
    exact yes holds
  · rw [if_neg holds]
    exact no holds

theorem fulfils_dispatch {typ : UInt8} (payload : Bytes) (noRead : typ ≠ fxpRead)
    (noWrite : typ ≠ fxpWrite)
    : store.Fulfils srv t adrift s (.ofPacket t.grants typ payload)
        (Interaction.exec store.respond s (dispatch srv t typ payload)) := by
  unfold dispatch
  refine ite_fulfils (fun same => ?_) fun noOpen => ?_
  · subst same
    exact fulfils_decoded names fun m _ => fulfils_opOpen names m
  refine ite_fulfils (fun same => ?_) fun noClose => ?_
  · subst same
    exact fulfils_decoded names fun m _ => fulfils_opClose names m
  refine ite_fulfils (fun kind => ?_) fun noStat => ?_
  · have other : Command.ofPacket t.grants typ payload = .other := by
      rcases kind with rfl | rfl <;> rfl
    rw [other]
    exact fulfils_looked names fun m => (opStat_section sharedCalls_touching m).touching
  refine ite_fulfils (fun same => ?_) fun noFstat => ?_
  · subst same
    exact fulfils_looked names fun m => (opFstat_section sharedCalls_touching m).touching
  refine ite_fulfils (fun same => ?_) fun noSetstat => ?_
  · subst same
    exact fulfils_decoded names fun m _ => fulfils_opSetstat names m.id m.path m.attrs
  refine ite_fulfils (fun same => ?_) fun noFsetstat => ?_
  · subst same
    exact fulfils_decoded names fun m _ => fulfils_opFsetstat names m
  refine ite_fulfils (fun same => ?_) fun noOpendir => ?_
  · subst same
    exact fulfils_decoded names fun m _ => fulfils_opOpendir names m
  refine ite_fulfils (fun same => ?_) fun noReaddir => ?_
  · subst same
    cases decodeHandle fxpReaddir payload with
    | error err => exact fulfils_malformed names payload err
    | ok m => exact fulfils_opReaddir names m
  refine ite_fulfils (fun kind => ?_) fun noRemove => ?_
  · have removes : Command.ofPacket t.grants typ payload
        = .ofDecoded (decodePath typ payload) fun m =>
          .ofPath m.path (if typ = fxpRmdir then .arrange else .remove m.id) := by
      rcases kind with rfl | rfl <;> rfl
    rw [removes]
    refine fulfils_decoded names fun m decodes => ?_
    rw [← decodePath_packetType decodes]
    exact fulfils_opRemove names m
  refine ite_fulfils (fun same => ?_) fun noMkdir => ?_
  · subst same
    exact fulfils_decoded names fun m _ => fulfils_opMkdir names m
  refine ite_fulfils (fun same => ?_) fun noRealpath => ?_
  · subst same
    exact fulfils_looked names fun m => (opRealpath_section m).touching
  refine ite_fulfils (fun same => ?_) fun noRename => ?_
  · subst same
    exact fulfils_decoded names fun m _ => fulfils_opRename names m
  refine ite_fulfils (fun same => ?_) fun noReadlink => ?_
  · subst same
    exact fulfils_looked names fun m => (opReadlink_section sharedCalls_touching m).touching
  refine ite_fulfils (fun same => ?_) fun noSymlink => ?_
  · subst same
    exact fulfils_decoded names fun m _ => fulfils_opSymlink names m
  refine ite_fulfils (fun same => ?_) fun noExtended => ?_
  · subst same
    exact fulfils_decoded names fun m _ => fulfils_opExtended names m
  have other : Command.ofPacket t.grants typ payload = .other := by
    simp only [Command.ofPacket, *]
    simp
  rw [other]
  exact fulfils_declined names (declines_status _ _ (by decide)) rfl

theorem fulfils_read (m : ReadRequest) (payload : Bytes)
    : store.Fulfils srv t adrift s (.read m) (Interaction.exec store.respond s
        (match readJob srv t m with
          | (some job, _) => keeping t job.run
          | (none, some early) => pure (early, t)
          | (none, none) => dispatch srv t fxpRead payload)) := by
  unfold readJob
  cases found : t.get m.handle with
  | none => exact fulfils_declined names (declines_status _ _ (by decide)) rfl
  | some h =>
      by_cases directory : h.dir = true
      · simp only [directory, if_true]
        exact fulfils_declined names (declines_status _ _ (by decide)) rfl
      have isFile : h.dir = false := by simpa using directory
      by_cases nothing : m.length = 0
      · simp only [isFile, nothing, Bool.false_eq_true, if_false, if_true]
        refine fulfils_plain names rfl rfl (.refl store s) (fun _ => rfl)
          ⟨fun _ _ asks => ?_, nofun⟩
        rw [nothing] at asks
        exact absurd asks (by decide)
      simp only [isFile, nothing, Bool.false_eq_true, if_false]
      cases opened : h.file with
      | some file => exact fulfils_withLock (fulfils_readAt names found isFile opened nothing)
      | none => exact fulfils_withLock (fulfils_readWhole names found isFile nothing)

theorem fulfils_write (m : WriteRequest) (payload : Bytes)
    : store.Fulfils srv t adrift s (.write m) (Interaction.exec store.respond s
        (match writeJob srv t m with
          | (some job, _) => keeping t job.run
          | (none, some early) => pure (early, t)
          | (none, none) => dispatch srv t fxpWrite payload)) := by
  have declined (code : Status) (msg : Bytes) (refusal : code ≠ statusOK ∧ code ≠ statusEOF)
      : store.Fulfils srv t adrift s (.write m) ((status m.id code msg, t), s) :=
    fulfils_declined names (declines_status m.id msg refusal) rfl
  unfold writeJob
  cases found : t.get m.handle with
  | none => exact declined statusFailure _ (by decide)
  | some h =>
      dsimp only
      by_cases directory : h.dir = true
      · rw [if_pos directory]
        exact declined statusFailure _ (by decide)
      rw [if_neg directory]
      by_cases readOnly : srv.ro = true
      · rw [if_pos readOnly]
        exact declined statusPermissionDenied _ (by decide)
      rw [if_neg readOnly]
      by_cases reading : (!h.write) = true
      · rw [if_pos reading]
        exact declined statusPermissionDenied _ (by decide)
      rw [if_neg reading]
      by_cases beyond : maxInt64 < m.offset
      · rw [if_pos beyond]
        exact declined statusFailure _ (by decide)
      rw [if_neg beyond]
      have accepted : WriteAccepted srv t m h := {
        found
        isFile := by simpa using directory
        writable := by simpa using readOnly
        forWriting := by simpa using reading
        fits := beyond
      }
      cases opened : h.writable with
      | some file => exact fulfils_withLock (fulfils_writeAt names accepted opened)
      | none => exact fulfils_withLock (fulfils_writeSplice names accepted)

/-- Every packet is served: the server is a service of files. -/
theorem fulfils_answer (typ : UInt8) (payload : Bytes)
    : store.Fulfils srv t adrift s (.ofPacket t.grants typ payload)
        (Interaction.exec store.respond s (answer srv t typ payload)) := by
  unfold answer
  by_cases reads : typ = fxpRead
  · subst reads
    rw [prepare_read]
    change store.Fulfils srv t adrift s (.ofDecoded (decodeRead payload) .read) _
    cases decodeRead payload with
    | error err => exact fulfils_malformed names payload err
    | ok m => exact fulfils_read names m payload
  by_cases writes : typ = fxpWrite
  · subst writes
    rw [prepare_write]
    change store.Fulfils srv t adrift s (.ofDecoded (decodeWrite payload) .write) _
    cases decodeWrite payload with
    | error err => exact fulfils_malformed names payload err
    | ok m => exact fulfils_write names m payload
  simp only [prepare, reads, writes, if_false]
  exact fulfils_dispatch names payload reads writes

omit names in
/-- What was done is what the service does. -/
theorem HonestStore.Fulfils.serves {typ : UInt8} {payload : Bytes} {reply : Message}
    {later : Handles} {final : State}
    (done : store.Fulfils srv t adrift s (.ofPacket t.grants typ payload)
      ((reply, later), final))
    : Serves srv (store.contents s) t.grants adrift typ payload reply (store.contents final)
        later.grants :=
  ⟨done.spares.others, done.readOnly, done.granted, done.tells⟩

end Commands

end SftpServer.Sftp
