import SftpServer.Foundations.Interleaving

/-! How the SSH front-end accepts connections and how it is shut down: `Serve`, `track` and
`Close`, with the goroutines that `Serve` and `HandleConn` start. Every use of the mutex, of the
wait group, of a listener and of a connection is one step, and the steps of all goroutines
interleave freely. `Accept` returns a new connection of a listener that is open, and fails
whenever it likes.
-/

namespace SftpServer.Sshd

open SftpServer.Foundations

/-- A `net.Listener`, by its identity. -/
abbrev Listener := Nat

/-- A `net.Conn`, by its identity. -/
abbrev Conn := Nat

/-- What the goroutines share: the fields of `sshd.Server`, and which connections were accepted
and what was closed so far.
-/
structure Shared where
  closed : Bool := false
  ln : Option Listener := none
  conns : List Conn := []
  wg : Nat := 0
  accepted : List Conn := []
  closedListeners : List Listener := []
  closedConns : List Conn := []

namespace Shared

/-- `net.Listener.Close`. -/
def closeListener (s : Shared) (ln : Listener) : Shared :=
  { s with closedListeners := ln :: s.closedListeners }

/-- `net.Conn.Close`. -/
def closeConn (s : Shared) (c : Conn) : Shared :=
  { s with closedConns := c :: s.closedConns }

def track (s : Shared) (c : Conn) (add : Bool) : Shared :=
  if add then
    -- Raced with `Close`: nothing will come back for the connection.
    if s.closed then s.closeConn c
    else { s with conns := c :: s.conns }
  else closeConn { s with conns := s.conns.filter (· ≠ c) } c

end Shared

inductive ServeError where
  | errServerClosed
  | accept
  deriving DecidableEq, Repr

/-- Where a call of `Serve` is. -/
inductive ServePhase where
  /-- It has not looked at the server yet, which is the first thing it does. -/
  | called
  /-- It found the server closed, and closes its listener next. -/
  | refused
  | accepting
  /-- `Accept` returned a connection. -/
  | accepted (c : Conn)
  /-- `track` has seen the connection. -/
  | tracked (c : Conn)
  /-- The wait group was raised for the connection. -/
  | counted (c : Conn)
  /-- `Accept` returned an error. -/
  | failed
  | returned (err : ServeError)
  deriving DecidableEq, Repr

/-- Between the registration of the listener and the end of the loop. -/
def ServePhase.inLoop : ServePhase → Bool
  | .accepting => true
  | .accepted _ => true
  | .tracked _ => true
  | .counted _ => true
  | _ => false

/-- Where the handler of a connection is. -/
inductive HandlerPhase where
  /-- Inside `HandleConn`. -/
  | running
  /-- `HandleConn` raised the wait group for a session it is about to start. -/
  | opening
  | untracked
  deriving DecidableEq, Repr

/-- Where a call of `Close` is. -/
inductive ClosePhase where
  | called
  /-- The mutex is released; the listener and the connections to close are copied. -/
  | took (ln : Option Listener) (left : List Conn)
  | dropping (left : List Conn)
  | returned
  deriving DecidableEq, Repr

inductive Goroutine where
  | serve (ln : Listener) (phase : ServePhase)
  | handler (c : Conn) (phase : HandlerPhase)
  | session (c : Conn)
  | close (phase : ClosePhase)
  deriving DecidableEq, Repr

/-- A call of `Serve`. -/
def Goroutine.isServe : Goroutine → Bool
  | .serve _ _ => true
  | _ => false

/-- A call of `Close`. -/
def Goroutine.isClose : Goroutine → Bool
  | .close _ => true
  | _ => false

/-- What a goroutine does in one step. -/
inductive Action where
  | refuse (ln : Listener)
  | closeRefused (ln : Listener)
  | register (ln : Listener)
  | accept (ln : Listener) (c : Conn)
  | track (c : Conn)
  | add (c : Conn)
  | start (c : Conn)
  | acceptFails (ln : Listener)
  | returnError (ln : Listener)
  | addSession (c : Conn)
  | startSession (c : Conn)
  | endSession (c : Conn)
  | untrack (c : Conn)
  | done (c : Conn)
  | foundClosed
  | take
  | closeListener
  | closeConn (c : Conn)
  | waitReturns
  deriving DecidableEq, Repr

/-- A step of a goroutine: the state it leaves, and the goroutines that are left of it. -/
inductive Act : Shared → Goroutine → Action → Shared → List Goroutine → Prop where
  | refuse {s : Shared} {ln : Listener} (closed : s.closed = true)
    : Act s (.serve ln .called) (.refuse ln) s [.serve ln .refused]
  | closeRefused {s : Shared} {ln : Listener}
    : Act s (.serve ln .refused) (.closeRefused ln) (s.closeListener ln)
        [.serve ln (.returned .errServerClosed)]
  | register {s : Shared} {ln : Listener} (opened : s.closed = false)
    : Act s (.serve ln .called) (.register ln) { s with ln := some ln } [.serve ln .accepting]
  | accept {s : Shared} {ln : Listener} {c : Conn} (listening : ln ∉ s.closedListeners)
    (new : c ∉ s.accepted)
    : Act s (.serve ln .accepting) (.accept ln c) { s with accepted := c :: s.accepted }
        [.serve ln (.accepted c)]
  | track {s : Shared} {ln : Listener} {c : Conn}
    : Act s (.serve ln (.accepted c)) (.track c) (s.track c true) [.serve ln (.tracked c)]
  | add {s : Shared} {ln : Listener} {c : Conn}
    : Act s (.serve ln (.tracked c)) (.add c) { s with wg := s.wg + 1 }
        [.serve ln (.counted c)]
  | start {s : Shared} {ln : Listener} {c : Conn}
    : Act s (.serve ln (.counted c)) (.start c) s [.serve ln .accepting, .handler c .running]
  | acceptFails {s : Shared} {ln : Listener}
    : Act s (.serve ln .accepting) (.acceptFails ln) s [.serve ln .failed]
  | returnError {s : Shared} {ln : Listener}
    : Act s (.serve ln .failed) (.returnError ln) s
        [.serve ln (.returned (if s.closed then .errServerClosed else .accept))]
  | addSession {s : Shared} {c : Conn}
    : Act s (.handler c .running) (.addSession c) { s with wg := s.wg + 1 }
        [.handler c .opening]
  | startSession {s : Shared} {c : Conn}
    : Act s (.handler c .opening) (.startSession c) s [.handler c .running, .session c]
  | endSession {s : Shared} {c : Conn}
    : Act s (.session c) (.endSession c) { s with wg := s.wg - 1 } []
  | untrack {s : Shared} {c : Conn}
    : Act s (.handler c .running) (.untrack c) (s.track c false) [.handler c .untracked]
  | done {s : Shared} {c : Conn}
    : Act s (.handler c .untracked) (.done c) { s with wg := s.wg - 1 } []
  | foundClosed {s : Shared} (closed : s.closed = true)
    : Act s (.close .called) .foundClosed s [.close .returned]
  -- The connections are copied in the order the map is ranged over.
  | take {s : Shared} {left : List Conn} (opened : s.closed = false) (same : left.Perm s.conns)
    : Act s (.close .called) .take { s with closed := true } [.close (.took s.ln left)]
  | closeListener {s : Shared} {ln : Option Listener} {left : List Conn}
    : Act s (.close (.took ln left)) .closeListener (ln.elim s s.closeListener)
        [.close (.dropping left)]
  | closeConn {s : Shared} {c : Conn} {left : List Conn}
    : Act s (.close (.dropping (c :: left))) (.closeConn c) (s.closeConn c)
        [.close (.dropping left)]
  | waitReturns {s : Shared} (ended : s.wg = 0)
    : Act s (.close (.dropping [])) .waitReturns s [.close .returned]

/-- A server that serves: what is shared, and its goroutines. -/
abbrev Serving := Parallel Shared Goroutine

namespace Serving

/-- One call of `Serve` beside one of `Close`, on a new server. -/
def one (ln : Listener) (gone : List Listener) : Serving :=
  ⟨{ closedListeners := gone }, [.serve ln .called, .close .called]⟩

/-- Any calls of `Serve` and `Close`, on a new server. -/
structure Fresh (start : Serving) : Prop where
  new : ∃ gone, start.shared = { closedListeners := gone }
  calls : ∀ g ∈ start.threads, g = .close .called ∨ ∃ ln, g = .serve ln .called

end Serving

-----------------------------------------------------------------------------------------
-- What one step can do
-----------------------------------------------------------------------------------------

/-- `track` touches the connections alone, and opens none again. -/
theorem Shared.track_eq (s : Shared) (c : Conn) (add : Bool)
    : ∃ conns now,
        s.track c add = { s with conns := conns, closedConns := now ++ s.closedConns } := by
  cases add with
  | false => exact ⟨s.conns.filter (· ≠ c), [c], rfl⟩
  | true =>
      cases closed : s.closed with
      | true => exact ⟨s.conns, [c], by simp [track, closeConn, closed]⟩
      | false => exact ⟨c :: s.conns, [], by simp [track, closed]⟩

/-- A connection that is not tracked any more is closed. -/
theorem Shared.untrack_closedConns (s : Shared) (c : Conn)
    : c ∈ (s.track c false).closedConns :=
  List.mem_cons_self

/-- What is closed stays closed; `Close` alone closes the server, and `Serve` registers its
listener while the server is open.
-/
structure Follows (g : Goroutine) (action : Action) (s later : Shared) : Prop where
  flag : later.closed = s.closed ∨ g = .close .called ∧ later.closed = true
  ln : later.ln = s.ln
    ∨ ∃ ln, g = .serve ln .called ∧ action = .register ln ∧ s.closed = false
      ∧ later.ln = some ln
  listeners : ∀ ln ∈ s.closedListeners, ln ∈ later.closedListeners
  conns : ∀ c ∈ s.closedConns, c ∈ later.closedConns

section

variable {s later : Shared} {g : Goroutine} {action : Action} {next : List Goroutine}

theorem Act.follows (acts : Act s g action later next) : Follows g action s later := by
  cases acts
  case refuse | accept | add | start | acceptFails | returnError | addSession | startSession
      | endSession | done | foundClosed | waitReturns =>
    exact ⟨.inl rfl, .inl rfl, fun _ => id, fun _ => id⟩
  case closeRefused =>
    exact ⟨.inl rfl, .inl rfl, fun _ => List.mem_cons_of_mem _, fun _ => id⟩
  case register ln opened =>
    exact ⟨.inl rfl, .inr ⟨ln, rfl, rfl, opened, rfl⟩, fun _ => id, fun _ => id⟩
  case track c | untrack c =>
    obtain ⟨conns, now, same⟩ := s.track_eq c _
    rw [same]
    exact ⟨.inl rfl, .inl rfl, fun _ => id, fun _ => List.mem_append_right now⟩
  case take =>
    exact ⟨.inr ⟨rfl, rfl⟩, .inl rfl, fun _ => id, fun _ => id⟩
  case closeListener ln left =>
    cases ln with
    | none => exact ⟨.inl rfl, .inl rfl, fun _ => id, fun _ => id⟩
    | some ln => exact ⟨.inl rfl, .inl rfl, fun _ => List.mem_cons_of_mem _, fun _ => id⟩
  case closeConn =>
    exact ⟨.inl rfl, .inl rfl, fun _ => id, fun _ => List.mem_cons_of_mem _⟩

theorem Follows.closed (follows : Follows g action s later) (closed : s.closed = true)
    : later.closed = true := by
  rcases follows.flag with same | ⟨_, now⟩
  · exact same.trans closed
  · exact now

/-- No step leaves a call where it began. -/
theorem Act.begun (acts : Act s g action later next)
    : (∀ ln, .serve ln .called ∉ next) ∧ .close .called ∉ next := by
  cases acts <;> simp

/-- Calls neither appear nor disappear. -/
theorem Act.calls (acts : Act s g action later next)
    : g.isServe.toNat = Parallel.total (fun g => g.isServe.toNat) next
      ∧ g.isClose.toNat = Parallel.total (fun g => g.isClose.toNat) next := by
  cases acts <;> exact ⟨rfl, rfl⟩

end

end SftpServer.Sshd
