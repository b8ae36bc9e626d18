import SftpServer.Correctness.SessionSafety

/-! Containment of paths in the export. Every handler resolves the paths it is sent, and
handles hold resolved paths, with one exception: SETSTAT passes its path on as it came.
-/

namespace SftpServer.Sftp

open SftpServer.Foundations
open SftpServer.Wire

/-- Every path argument of these calls is canonical. -/
def PathsCanonical (calls : List Event) : Prop :=
  ∀ event ∈ calls, ∀ call, event.question = .driver call → ∀ path ∈ call.paths, Canonical path

theorem pathsCanonical_of_sanctioned {srv : Server} {files : File → Prop}
    {calls : List Event}
    (sanctioned : ∀ event ∈ calls, Sanctioned srv Canonical files event.question)
    : PathsCanonical calls := by
  intro event member call asked path inside
  have within := sanctioned event member
  rw [asked] at within
  exact within.paths path inside

/-- A packet answered with nothing beside it makes sanctioned calls only. -/
theorem answer_asks {srv : Server} {t : Handles} {paths : Bytes → Prop}
    (within : ∀ path, Canonical path → paths path) (wellFormed : t.WellFormed srv)
    {typ : UInt8} {payload : Bytes} (packet : PacketWithin srv paths typ payload)
    : (answer srv t typ payload).Asks (Sanctioned srv paths fun _ => True)
        fun result => result.2.WellFormed srv := by
  unfold answer
  rcases prepare_cases within wellFormed typ payload with barrier | prepared
  · rw [barrier]
    exact ((dispatch_contract within wellFormed packet).sanctioned within wellFormed).mono
      (fun _ holds => holds) fun _ holds => holds.2
  · generalize prepare srv t typ payload = outcome at prepared
    cases prepared with
    | job asks =>
        exact (keeping_asks asks).mono (fun _ => Steady.sanctioned)
          fun _ holds => holds.2 ▸ wellFormed
    | early answers => exact wellFormed

@[simp]
theorem setAttribute_absent (id : UInt32) (call : Prog (Option DriverError))
    : setAttribute id false call = .ret none :=
  rfl

/-- An announced attribute is set by its call. -/
theorem asks_of_setAttribute {id : UInt32} {call : DriverCall}
    {next : call.Answer → Prog (Option DriverError)} {P : Effect → Prop}
    {Q : Option Message → Prop}
    (asks : (setAttribute id true (.ask (.driver call) next)).Asks P Q)
    : P (.driver call) :=
  asks.1

/-- A SETSTAT whose attributes lead to a call asks the driver about its path. The cases are
those of `setstatCalls`: the size comes first, then the announced attributes in turn.
-/
theorem canonical_of_opSetstat_asks {srv : Server} {id : UInt32} {path : Bytes}
    {a : Attributes} {P : Effect → Prop}
    (named : ∀ call, P (.driver call) → ∀ p ∈ call.paths, Canonical p)
    (asks : (opSetstat srv id path a).Asks P fun _ => True)
    (calls : setstatCalls srv a = true)
    : Canonical path := by
  have writable : srv.ro = false := by
    by_contra readOnly
    simp_all [setstatCalls]
  simp only [opSetstat, setMetadata, writable, locked, withLock, Interaction.asks_bind,
    Interaction.asks_ask, Bool.false_eq_true, if_false] at asks
  have body := asks.2 ()
  -- Each announced attribute is a call, and an absent one is passed over, so the first
  -- announced one is reached whatever the driver answers.
  by_cases sized : a.has attrSize = true
  · have able : srv.truncater = true ∧ a.size ≤ maxInt64 := by
      simpa [setstatCalls, writable, sized] using calls
    have fits : ¬maxInt64 < a.size := UInt64.not_lt.mpr able.2
    simp only [setSize, sized, able.1, fits, Bool.not_true, Bool.false_eq_true, if_false] at body
    exact named _ body.1 path (by simp [DriverCall.paths])
  have flags : srv.metadataSetter = true
      ∧ ((a.has attrPermissions = true ∨ a.has attrUIDGID = true)
        ∨ a.has attrACModTime = true) := by
    simpa [setstatCalls, writable, sized] using calls
  simp only [setSize, sized, Bool.not_false, if_true, Interaction.pure_eq, Interaction.asks_ret,
    flags.1, Bool.not_true, Bool.false_eq_true, if_false, Interaction.asks_bind] at body
  by_cases mode : a.has attrPermissions = true
  · rw [mode] at body
    exact named _ (asks_of_setAttribute body) path (by simp [DriverCall.paths])
  rw [Bool.not_eq_true] at mode
  simp only [mode, setAttribute_absent, Interaction.asks_ret, Interaction.asks_bind] at body
  by_cases owner : a.has attrUIDGID = true
  · rw [owner] at body
    exact named _ (asks_of_setAttribute body) path (by simp [DriverCall.paths])
  rw [Bool.not_eq_true] at owner
  have times : a.has attrACModTime = true := by simpa [mode, owner] using flags.2
  simp only [owner, times, setAttribute_absent, Interaction.asks_ret,
    Interaction.asks_bind] at body
  exact named _ (asks_of_setAttribute body) path (by simp [DriverCall.paths])

/-- Containment, and where it stops: from every reachable state, all path arguments of the
next packet are canonical exactly if it is not a SETSTAT that reaches the driver with a
path that is not.
-/
theorem paths_canonical_iff {srv : Server} {s : Session} {trace : List Observation}
    (run : Session.Run srv Session.initial trace s) (typ : UInt8) (payload : Bytes)
    : (∀ calls result, (answer srv s.handles typ payload).Runs calls result
        → PathsCanonical calls)
      ↔ PacketWithin srv Canonical typ payload := by
  constructor
  · intro contained m same decodes calls
    subst same
    have dispatched : answer srv s.handles fxpSetstat payload
        = keeping s.handles (opSetstat srv m.id m.path m.attrs) := by
      have chosen : answer srv s.handles fxpSetstat payload
          = decoded s.handles (requestID payload) (decodeSetstat fxpSetstat payload)
            fun m => keeping s.handles (opSetstat srv m.id m.path m.attrs) :=
        rfl
      rw [chosen, decodes]
      rfl
    -- All runs are contained, so the program is, and its first call names the path.
    have asks : (answer srv s.handles fxpSetstat payload).Asks
        (fun effect => ∀ call, effect = .driver call → ∀ path ∈ call.paths, Canonical path)
        fun _ => True :=
      .of_all_runs fun calls result runs event member => contained calls result runs event member
    rw [dispatched, keeping, Interaction.asks_bind] at asks
    exact canonical_of_opSetstat_asks (fun call named => named call rfl) asks calls
  · intro packet calls result runs
    have asks := answer_asks (fun _ canonical => canonical) run.wellFormed packet
    exact pathsCanonical_of_sanctioned (asks.of_runs runs).1

/-- A writable export whose driver can set permissions. -/
def chmodServer : Server where
  opener := false
  symlinker := false
  truncater := false
  metadataSetter := true
  ro := false

/-- SETSTAT of `../x` to mode 0777. -/
def escapingSetstat : Bytes :=
  [0, 0, 0, 1, 0, 0, 0, 4, 0x2e, 0x2e, 0x2f, 0x78, 0, 0, 0, 4, 0, 0, 1, 0xff]

/-- A fresh session hands `../x` to `Chmod`. -/
theorem setstat_escapes
    : Session.Run chmodServer Session.initial [] { Session.initial with phase := .serving }
      ∧ ∃ calls result,
          (answer chmodServer ∅ fxpSetstat escapingSetstat).Runs calls result
          ∧ (calls.map fun event => event.question)
            = [.lock .lock, .driver (.chmod [0x2e, 0x2e, 0x2f, 0x78] 0o777), .lock .unlock]
          ∧ ¬PathsCanonical calls := by
  refine ⟨.negotiating chmodServer, _, _,
    Interaction.interpret_runs (fun (_ : Unit) _ => (default, ())) () _, rfl, ?_⟩
  intro canonical
  have escaped := canonical ⟨.driver (.chmod [0x2e, 0x2e, 0x2f, 0x78] 0o777), none⟩
    (List.mem_cons_of_mem _ (List.mem_cons_self ..)) _ rfl _ (List.mem_singleton.mpr rfl)
  exact absurd escaped (by decide)

/-- The same request with the canonical path `/x` stays inside the export. -/
theorem paths_canonical_chmod
    : Session.Run chmodServer Session.initial [] { Session.initial with phase := .serving }
      ∧ ∀ calls result,
          (answer chmodServer ∅ fxpSetstat
            [0, 0, 0, 1, 0, 0, 0, 2, 0x2f, 0x78, 0, 0, 0, 4, 0, 0, 1, 0xff]).Runs calls result
          → PathsCanonical calls := by
  refine ⟨.negotiating chmodServer, ?_⟩
  refine (paths_canonical_iff (.negotiating chmodServer) fxpSetstat _).mpr ?_
  intro m _ decodes _
  obtain rfl := Except.ok.inj decodes
  decide

end SftpServer.Sftp
