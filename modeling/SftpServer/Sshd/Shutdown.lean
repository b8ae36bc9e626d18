import SftpServer.Sshd.Serving

/-! What `Close` leaves behind. A connection is counted by the wait group only some steps after
it was accepted, so `Close` may return in between; and a listener is closed through one field,
which a second call of `Serve` overwrites. When neither happens, nothing runs and nothing is
open once `Close` has returned.
-/

namespace SftpServer.Sshd

open SftpServer.Foundations
open Parallel

-----------------------------------------------------------------------------------------
-- Handlers and the wait group
-----------------------------------------------------------------------------------------

/-- What a goroutine has added to the wait group, or inherited. -/
def Goroutine.weight : Goroutine → Nat
  | .serve _ (.counted _) => 1
  | .handler _ .opening => 2
  | .handler _ _ => 1
  | .session _ => 1
  | _ => 0

/-- A connection that a goroutine is going to close. -/
def Goroutine.Holds : Goroutine → Conn → Prop
  | .serve _ (.accepted own), c => own = c
  | .serve _ (.tracked own), c => own = c
  | .serve _ (.counted own), c => own = c
  | .handler own .running, c => own = c
  | .handler own .opening, c => own = c
  | _, _ => False

section

variable {meets : Serving → Action → Prop} {start p : Serving} {s later : Shared}
  {g : Goroutine} {action : Action} {next : List Goroutine}

theorem Act.balance (acts : Act s g action later next) (counted : g.weight ≤ s.wg)
    : later.wg + g.weight = s.wg + total Goroutine.weight next := by
  cases acts
  case endSession | done =>
    simp only [Goroutine.weight, total] at counted ⊢
    omega
  case track c | untrack c =>
    obtain ⟨conns, now, same⟩ := s.track_eq c _
    rw [same]
    rfl
  case closeListener ln left =>
    cases ln <;> rfl
  all_goals
    simp [Goroutine.weight, total, Shared.closeListener, Shared.closeConn, Nat.add_assoc]

/-- The wait group is at what the goroutines have added to it. -/
theorem wg_eq_total (fresh : start.Fresh) (reached : Reaches Act meets start p)
    : p.shared.wg = total Goroutine.weight p.threads := by
  refine reached.counts Shared.wg ?_ Act.balance
  obtain ⟨gone, new⟩ := fresh.new
  rw [new, eq_comm]
  refine total_eq_zero_iff.mpr fun g member => ?_
  rcases fresh.calls g member with rfl | ⟨ln, rfl⟩
  · rfl
  · rfl

/-- An accepted connection is closed, or will be by the goroutine that has it. -/
theorem accepted_held (fresh : start.Fresh) (reached : Reaches Act meets start p) {c : Conn}
    (accepted : c ∈ p.shared.accepted)
    : c ∈ p.shared.closedConns ∨ ∃ g ∈ p.threads, g.Holds c := by
  refine reached.entrusted (fun s c => c ∈ s.accepted) (fun s c => c ∈ s.closedConns)
    Goroutine.Holds ?_ (fun acts => acts.follows.conns _) ?_ ?_ accepted
  · intro c accepted
    obtain ⟨gone, new⟩ := fresh.new
    rw [new] at accepted
    exact nomatch accepted
  · intro s g action later next c acts accepted
    cases acts
    case accept own listening new =>
      rcases List.mem_cons.mp accepted with rfl | old
      · exact .inr ⟨_, List.mem_singleton_self _, rfl⟩
      · exact .inl old
    case track own | untrack own =>
      obtain ⟨conns, now, same⟩ := s.track_eq own _
      rw [same] at accepted
      exact .inl accepted
    case closeListener ln left =>
      cases ln <;> exact .inl accepted
    all_goals exact .inl accepted
  · intro s g action later next c acts held
    cases acts
    case untrack own =>
      cases held
      exact .inl (s.untrack_closedConns c)
    case track | add | addSession | startSession =>
      exact .inr ⟨_, List.mem_cons_self, held⟩
    case start =>
      exact .inr ⟨_, List.mem_cons_of_mem _ List.mem_cons_self, held⟩
    all_goals exact False.elim held

end

-----------------------------------------------------------------------------------------
-- The listener that is registered
-----------------------------------------------------------------------------------------

/-- No listener is left behind: one that is still open is not replaced by another, and `Close`
does not return at once before another call has closed it.
-/
def KeepsListener (p : Serving) : Action → Prop
  | .register ln => ∀ old, p.shared.ln = some old → old = ln ∨ old ∈ p.shared.closedListeners
  | .foundClosed => ∀ ln, p.shared.ln = some ln → ln ∈ p.shared.closedListeners
  | _ => True

/-- What a goroutine relies on: the listener of a loop is the one that is registered, or
closed; and once `Close` is past it, the registered one is closed.
-/
def Covered (s : Shared) : Goroutine → Prop
  | .serve ln phase => phase.inLoop = true → ln ∈ s.closedListeners ∨ s.ln = some ln
  | .close (.took ln _) => s.closed = true ∧ s.ln = ln
  | .close (.dropping _) => s.closed = true ∧ ∀ ln, s.ln = some ln → ln ∈ s.closedListeners
  | .close .returned => s.closed = true ∧ ∀ ln, s.ln = some ln → ln ∈ s.closedListeners
  | _ => True

section

variable {meets : Serving → Action → Prop} {start p : Serving} {s later : Shared}
  {g : Goroutine} {action : Action} {next : List Goroutine}

/-- A listener is closed or registered, and stays so. -/
theorem Act.listener_stays {threads : List Goroutine} (acts : Act s g action later next)
    (keeps : KeepsListener ⟨s, threads⟩ action) {ln : Listener}
    (covered : ln ∈ s.closedListeners ∨ s.ln = some ln)
    : ln ∈ later.closedListeners ∨ later.ln = some ln := by
  have follows := acts.follows
  rcases covered with closed | registered
  · exact .inl (follows.listeners ln closed)
  rcases follows.ln with same | ⟨new, _, rfl, _, replaced⟩
  · exact .inr (same.trans registered)
  · rcases keeps ln registered with rfl | closed
    · exact .inr replaced
    · exact .inl (follows.listeners ln closed)

/-- Once the server is closed the registered listener does not change. -/
theorem Act.ln_stays (acts : Act s g action later next) (closed : s.closed = true)
    : later.ln = s.ln := by
  rcases acts.follows.ln with same | ⟨_, _, _, opened, _⟩
  · exact same
  · rw [closed] at opened
    exact nomatch opened

theorem Act.closed_listener_stays (acts : Act s g action later next)
    (passed : s.closed = true ∧ ∀ ln, s.ln = some ln → ln ∈ s.closedListeners)
    : later.closed = true ∧ ∀ ln, later.ln = some ln → ln ∈ later.closedListeners := by
  refine ⟨acts.follows.closed passed.1, fun ln registered => ?_⟩
  rw [acts.ln_stays passed.1] at registered
  exact acts.follows.listeners ln (passed.2 ln registered)

theorem Act.covered_stays {threads : List Goroutine} (acts : Act s g action later next)
    (keeps : KeepsListener ⟨s, threads⟩ action) {other : Goroutine} (covered : Covered s other)
    : Covered later other := by
  unfold Covered at covered ⊢
  split at covered
  · exact fun loops => acts.listener_stays keeps (covered loops)
  · exact ⟨acts.follows.closed covered.1, (acts.ln_stays covered.1).trans covered.2⟩
  · exact acts.closed_listener_stays covered
  · exact acts.closed_listener_stays covered
  · trivial

theorem Act.covered_next {threads : List Goroutine} (acts : Act s g action later next)
    (keeps : KeepsListener ⟨s, threads⟩ action) (covered : Covered s g)
    : ∀ other ∈ next, Covered later other := by
  have stays := @Act.listener_stays _ _ _ _ _ _ acts keeps
  cases acts
  case register =>
    exact List.forall_mem_singleton.mpr fun _ => .inr rfl
  case accept | track | add =>
    exact List.forall_mem_singleton.mpr fun _ => stays (covered rfl)
  case start =>
    exact List.forall_mem_cons.mpr ⟨covered, List.forall_mem_singleton.mpr trivial⟩
  case foundClosed closed =>
    exact List.forall_mem_singleton.mpr ⟨closed, keeps⟩
  case take =>
    exact List.forall_mem_singleton.mpr ⟨rfl, rfl⟩
  case closeListener ln left =>
    refine List.forall_mem_singleton.mpr ?_
    obtain ⟨closed, rfl⟩ := covered
    cases registered : s.ln with
    | none => exact ⟨closed, fun ln some => by simp [registered] at some⟩
    | some ln =>
        refine ⟨closed, fun own some => ?_⟩
        have same : ln = own := by simpa [Shared.closeListener, registered] using some
        exact same ▸ List.mem_cons_self
  case closeConn | waitReturns =>
    exact List.forall_mem_singleton.mpr covered
  all_goals simp [Covered, ServePhase.inLoop]

/-- In every run that leaves no listener behind. -/
theorem covered_of_reaches (fresh : start.Fresh)
    (keeps : ∀ {p action}, meets p action → KeepsListener p action)
    (reached : Reaches Act meets start p)
    : ∀ g ∈ p.threads, Covered p.shared g := by
  refine reached.each Covered ?_ ?_ ?_
  · intro g member
    rcases fresh.calls g member with rfl | ⟨ln, rfl⟩
    · trivial
    · exact nofun
  · exact fun met acts => acts.covered_next (keeps met)
  · exact fun met acts => acts.covered_stays (keeps met)

end

-----------------------------------------------------------------------------------------
-- One call of `Serve` and one of `Close`
-----------------------------------------------------------------------------------------

theorem Serving.fresh_one (ln : Listener) (gone : List Listener) : (one ln gone).Fresh where
  new := ⟨gone, rfl⟩
  calls g member := by
    rcases List.mem_pair.mp member with rfl | rfl
    · exact .inr ⟨ln, rfl⟩
    · exact .inl rfl

/-- What one call of each can rely on before it begins. -/
structure Single (p : Serving) : Prop where
  unregistered : ∀ ln, .serve ln .called ∈ p.threads → p.shared.ln = none
  opened : .close .called ∈ p.threads → p.shared.closed = false

section

variable {meets : Serving → Action → Prop} {p q : Serving} {ln : Listener}
  {gone : List Listener} {action : Action}

/-- There is one call of each, before and after every step. -/
theorem calls_of_one (reached : Reaches Act meets (Serving.one ln gone) p)
    : 1 = total (fun g => g.isServe.toNat) p.threads
      ∧ 1 = total (fun g => g.isClose.toNat) p.threads :=
  ⟨reached.counts (fun _ => 1) rfl fun acts _ => by rw [acts.calls.1],
    reached.counts (fun _ => 1) rfl fun acts _ => by rw [acts.calls.2]⟩

theorem single_of_one (reached : Reaches Act meets (Serving.one ln gone) p) : Single p := by
  induction reached with
  | start => exact ⟨fun _ _ => rfl, fun _ => rfl⟩
  | step reached _ step single =>
      obtain ⟨serves, closes⟩ := calls_of_one reached
      cases step with
      | @mk s later before after next g action acts =>
          have begun := acts.begun
          have kept : before ++ after ⊆ before ++ g :: after :=
            ((List.sublist_cons_self g after).append_left before).subset
          constructor
          · intro own member
            have others : .serve own .called ∈ before ++ after := by
              simpa [begun.1 own] using member
            have waits : s.ln = none := single.unregistered own (kept others)
            rcases acts.follows.ln with same | ⟨new, rfl, _⟩
            · exact same.trans waits
            · exact nomatch weight_of_others serves.symm rfl others
          · intro member
            have others : .close .called ∈ before ++ after := by
              simpa [begun.2] using member
            have waits : s.closed = false := single.opened (kept others)
            rcases acts.follows.flag with same | ⟨rfl, _⟩
            · exact same.trans waits
            · exact nomatch weight_of_others closes.symm rfl others

/-- With one call of each, no listener is left behind. -/
theorem keepsListener_of_one (reached : Reaches Act meets (Serving.one ln gone) p)
    (step : Step Act p action q)
    : KeepsListener p action := by
  have single := single_of_one reached
  cases step with
  | mk acts =>
      cases acts
      case register own opened =>
        intro old registered
        rw [single.unregistered own (by simp)] at registered
        exact nomatch registered
      case foundClosed closed =>
        rw [single.opened (by simp)] at closed
        exact nomatch closed
      all_goals trivial

end

/-- `Wait` returns only while no call of `Serve` has a connection that it has not counted. -/
def Settled (p : Serving) : Action → Prop
  | .waitReturns => ∀ ln c,
      .serve ln (.accepted c) ∉ p.threads ∧ .serve ln (.tracked c) ∉ p.threads
  | _ => True

/-- A goroutine that serves no connection, and will not accept one. -/
def Quiet (s : Shared) : Goroutine → Prop
  | .serve ln .accepting => ln ∈ s.closedListeners
  | .serve _ .called | .serve _ .refused | .serve _ .failed | .serve _ (.returned _) => True
  | .close _ => True
  | _ => False

section

variable {s later : Shared} {g : Goroutine} {action : Action} {next : List Goroutine}

theorem Act.quiet_stays (acts : Act s g action later next) {other : Goroutine}
    (quiet : Quiet s other)
    : Quiet later other := by
  unfold Quiet at quiet ⊢
  split at quiet
  · exact acts.follows.listeners _ quiet
  all_goals exact quiet

/-- `Close` returns at once, or after `Wait`. -/
theorem Act.returned (acts : Act s g action later next) (returned : .close .returned ∈ next)
    : (g = .close .called ∧ s.closed = true)
      ∨ (g = .close (.dropping []) ∧ action = .waitReturns ∧ s.wg = 0) := by
  cases acts
  case foundClosed closed => exact .inl ⟨rfl, closed⟩
  case waitReturns ended => exact .inr ⟨rfl, rfl, ended⟩
  all_goals simp at returned

/-- Nothing starts again once the server is closed. -/
theorem Act.quiet_next (acts : Act s g action later next) (closed : s.closed = true)
    (quiet : Quiet s g)
    : ∀ other ∈ next, Quiet later other := by
  cases acts
  case register opened =>
    rw [closed] at opened
    exact nomatch opened
  case accept listening _ =>
    exact absurd quiet listening
  case track | add | start | addSession | startSession | endSession | untrack | done =>
    exact nomatch quiet
  all_goals simp [Quiet]

end

section

variable {p q : Serving} {ln : Listener} {gone : List Listener}

/-- When `Wait` returns, every goroutine is quiet. -/
theorem quiet_of_waited (reached : Reaches Act Settled (Serving.one ln gone) p)
    (settled : Settled p .waitReturns) (ended : p.shared.wg = 0)
    (waiting : .close (.dropping []) ∈ p.threads)
    : p.shared.closed = true ∧ ∀ g ∈ p.threads, Quiet p.shared g := by
  have fresh := Serving.fresh_one ln gone
  have idle := total_eq_zero_iff.mp ((wg_eq_total fresh reached).symm.trans ended)
  have kept : Reaches Act KeepsListener (Serving.one ln gone) p :=
    reached.mono fun reached _ step => keepsListener_of_one reached step
  have covered := covered_of_reaches fresh id kept
  refine ⟨(covered _ waiting).1, fun g member => ?_⟩
  have still := idle g member
  match g with
  | .serve own .accepting =>
      rcases covered _ member rfl with closed | registered
      · exact closed
      · exact (covered _ waiting).2 own registered
  | .serve own .called => trivial
  | .serve own .refused => trivial
  | .serve own .failed => trivial
  | .serve own (.returned _) => trivial
  | .close phase => trivial
  | .serve own (.accepted c) => exact absurd member (settled own c).1
  | .serve own (.tracked c) => exact absurd member (settled own c).2
  | .serve own (.counted c) => exact nomatch still
  | .handler c .running => exact nomatch still
  | .handler c .opening => exact nomatch still
  | .handler c .untracked => exact nomatch still
  | .session c => exact nomatch still

theorem quiet_after_close (reached : Reaches Act Settled (Serving.one ln gone) p)
    (returned : .close .returned ∈ p.threads)
    : p.shared.closed = true ∧ ∀ g ∈ p.threads, Quiet p.shared g := by
  induction reached with
  | start => simp [Serving.one] at returned
  | step reached met step ih =>
      cases step with
      | @mk s later before after next g action acts =>
          have calm : s.closed = true ∧ ∀ u ∈ before ++ g :: after, Quiet s u := by
            by_cases earlier : .close .returned ∈ before ++ g :: after
            · exact ih earlier
            have new : .close .returned ∈ next := by
              simp only [List.mem_append, List.mem_cons, not_or] at earlier returned
              tauto
            rcases acts.returned new with ⟨rfl, closed⟩ | ⟨rfl, rfl, ended⟩
            · rw [(single_of_one reached).opened (by simp)] at closed
              exact nomatch closed
            · exact quiet_of_waited reached met ended (by simp)
          refine ⟨acts.follows.closed calm.1, ?_⟩
          exact forall_threads calm.2 acts.quiet_stays (acts.quiet_next calm.1)

/-- A goroutine that is quiet has no connection. -/
theorem Quiet.holds {s : Shared} {g : Goroutine} (quiet : Quiet s g) (c : Conn)
    : ¬g.Holds c := by
  intro held
  unfold Goroutine.Holds at held
  split at held
  · exact nomatch quiet
  · exact nomatch quiet
  · exact nomatch quiet
  · exact nomatch quiet
  · exact nomatch quiet
  · exact held

end

/-- One call of `Serve` and one of `Close`, on a new server and with any connections. In every
run in which `Wait` returns only while no accepted connection waits to be counted: once `Close`
has returned no handler and no session runs, then or later, and every connection that was
accepted is closed.
-/
theorem close_waits_for_handlers (ln : Listener) (gone : List Listener) {p q : Serving}
    (reached : Reaches Act Settled (Serving.one ln gone) p)
    (returned : .close .returned ∈ p.threads) (later : Reaches Act Settled p q)
    : (∀ c phase, .handler c phase ∉ q.threads)
      ∧ (∀ c, .session c ∉ q.threads)
      ∧ ∀ c ∈ q.shared.accepted, c ∈ q.shared.closedConns := by
  have whole := reached.trans later
  have still : .close .returned ∈ q.threads := later.stays (fun acts => nomatch acts) returned
  obtain ⟨_, quiet⟩ := quiet_after_close whole still
  refine ⟨fun c phase => quiet _, fun c => quiet _, fun c accepted => ?_⟩
  rcases accepted_held (Serving.fresh_one ln gone) whole accepted with closed | ⟨g, member, held⟩
  · exact closed
  · exact absurd held ((quiet g member).holds c)

/-- A connection that is accepted, served and closed while `Close` waits. -/
theorem close_waits_for_one
    : ∃ p, Reaches Act Settled (Serving.one 0 []) p
      ∧ .close .returned ∈ p.threads
      ∧ p.shared.accepted = [7]
      ∧ (∀ c ∈ p.shared.accepted, c ∈ p.shared.closedConns)
      ∧ ∀ c phase, .handler c phase ∉ p.threads := by
  have begun : Reaches Act Settled (Serving.one 0 []) (Serving.one 0 []) := .start
  have accepted := (begun.next [] (.register rfl) trivial).next []
    (@Act.accept _ 0 7 (by simp) (by simp)) trivial
  have started : Reaches Act Settled (Serving.one 0 [])
      ⟨{ ln := some 0, conns := [7], wg := 1, accepted := [7] },
        [.serve 0 .accepting, .handler 7 .running, .close .called]⟩ :=
    ((accepted.next [] .track trivial).next [] .add trivial).next [] .start trivial
  have dropped : Reaches Act Settled (Serving.one 0 [])
      ⟨{ closed := true, ln := some 0, conns := [7], wg := 1, accepted := [7],
          closedListeners := [0], closedConns := [7] },
        [.serve 0 .accepting, .handler 7 .running, .close (.dropping [])]⟩ :=
    ((started.next [_, _] (.take rfl (.refl _)) trivial).next [_, _] .closeListener
      trivial).next [_, _] .closeConn trivial
  have ended : Reaches Act Settled (Serving.one 0 [])
      ⟨{ closed := true, ln := some 0, accepted := [7], closedListeners := [0],
          closedConns := [7, 7] },
        [.serve 0 .accepting, .close (.dropping [])]⟩ :=
    (dropped.next [_] .untrack trivial).next [_] .done trivial
  have returned := ended.next [_] (.waitReturns rfl) (by simp [Settled])
  have waited := close_waits_for_handlers 0 [] returned (by simp) .start
  exact ⟨_, returned, by simp, rfl, waited.2.2, waited.1⟩

/-- `Close` returns between `track` and `Add`, and the handler is started on a connection that
is closed; or it returns before `track`, with the connection open.
-/
theorem handler_starts_after_close
    : (∃ p, Reaches Act (fun _ _ => True) (Serving.one 0 []) p
        ∧ .close .returned ∈ p.threads ∧ .handler 7 .running ∈ p.threads)
      ∧ ∃ p, Reaches Act (fun _ _ => True) (Serving.one 0 []) p
        ∧ .close .returned ∈ p.threads ∧ 7 ∈ p.shared.accepted ∧ 7 ∉ p.shared.closedConns := by
  have begun : Reaches Act (fun _ _ => True) (Serving.one 0 []) (Serving.one 0 []) := .start
  have accepted : Reaches Act (fun _ _ => True) (Serving.one 0 [])
      ⟨{ ln := some 0, accepted := [7] }, [.serve 0 (.accepted 7), .close .called]⟩ :=
    (begun.next [] (.register rfl) trivial).next []
      (@Act.accept _ 0 7 (by simp) (by simp)) trivial
  have tracked : Reaches Act (fun _ _ => True) (Serving.one 0 [])
      ⟨{ ln := some 0, conns := [7], accepted := [7] },
        [.serve 0 (.tracked 7), .close .called]⟩ :=
    accepted.next [] .track trivial
  have late : Reaches Act (fun _ _ => True) (Serving.one 0 [])
      ⟨{ closed := true, ln := some 0, conns := [7], accepted := [7], closedListeners := [0],
          closedConns := [7] },
        [.serve 0 (.tracked 7), .close .returned]⟩ :=
    (((tracked.next [_] (.take rfl (.refl _)) trivial).next [_] .closeListener trivial).next [_]
      .closeConn trivial).next [_] (.waitReturns rfl) trivial
  have early : Reaches Act (fun _ _ => True) (Serving.one 0 [])
      ⟨{ closed := true, ln := some 0, accepted := [7], closedListeners := [0] },
        [.serve 0 (.accepted 7), .close .returned]⟩ :=
    ((accepted.next [_] (.take rfl (.refl _)) trivial).next [_] .closeListener trivial).next [_]
      (.waitReturns rfl) trivial
  have started := (late.next [] .add trivial).next [] .start trivial
  exact ⟨⟨_, started, by simp, by simp⟩, _, early, by simp, by simp, by simp⟩

-----------------------------------------------------------------------------------------
-- Any calls of `Serve` and `Close`
-----------------------------------------------------------------------------------------

/-- `Accept` fails only on a listener that is closed. -/
def FailsClosed (p : Serving) (action : Action) : Prop :=
  ∀ ln, action = .acceptFails ln → ln ∈ p.shared.closedListeners

/-- No call of `Serve` that finds the server closed still has its listener open once a call of
`Close` has returned: none does when `Close` returns, and none comes later.
-/
def NoneLate (p : Serving) : Action → Prop
  | .waitReturns | .foundClosed =>
      ∀ ln, .serve ln .refused ∈ p.threads → ln ∈ p.shared.closedListeners
  | .refuse ln => .close .returned ∈ p.threads → ln ∈ p.shared.closedListeners
  | _ => True

/-- No listener is left behind, `Accept` fails only on one that is closed, and no call of `Serve`
comes late.
-/
structure Orderly (p : Serving) (action : Action) : Prop where
  keeps : KeepsListener p action
  fails : FailsClosed p action
  none : NoneLate p action

/-- A call of `Serve` that is past its loop has a closed listener. -/
def Released (s : Shared) : Goroutine → Prop
  | .serve ln .failed => ln ∈ s.closedListeners
  | .serve ln (.returned _) => ln ∈ s.closedListeners
  | _ => True

section

variable {start p : Serving} {s later : Shared} {g : Goroutine} {action : Action}
  {next threads : List Goroutine}

theorem Act.released_stays (acts : Act s g action later next) {other : Goroutine}
    (released : Released s other)
    : Released later other := by
  unfold Released at released ⊢
  split at released
  · exact acts.follows.listeners _ released
  · exact acts.follows.listeners _ released
  · trivial

theorem Act.released_next (acts : Act s g action later next)
    (orderly : Orderly ⟨s, threads⟩ action) (released : Released s g)
    : ∀ other ∈ next, Released later other := by
  cases acts
  case closeRefused =>
    exact List.forall_mem_singleton.mpr List.mem_cons_self
  case acceptFails ln =>
    exact List.forall_mem_singleton.mpr (orderly.fails ln rfl)
  case returnError =>
    exact List.forall_mem_singleton.mpr released
  all_goals simp [Released]

theorem released_of_reaches (fresh : start.Fresh) (reached : Reaches Act Orderly start p)
    : ∀ g ∈ p.threads, Released p.shared g := by
  refine reached.each Released ?_ ?_ ?_
  · intro g member
    rcases fresh.calls g member with rfl | ⟨ln, rfl⟩
    · trivial
    · trivial
  · exact fun met acts => acts.released_next met
  · exact fun _ acts => acts.released_stays

theorem Act.ends (acts : Act s g action later next) (ended : .close .returned ∈ next)
    : (action = .waitReturns ∨ action = .foundClosed) ∧ ∀ ln, .serve ln .refused ∉ next := by
  cases acts <;> simp_all

theorem Act.refuses (acts : Act s g action later next) {ln : Listener}
    (refused : .serve ln .refused ∈ next)
    : action = .refuse ln := by
  cases acts <;> simp_all

/-- Once a call of `Close` has returned, a call of `Serve` that found the server closed has
closed its listener, by induction on the steps.
-/
theorem refused_of_reaches (fresh : start.Fresh) (reached : Reaches Act Orderly start p)
    (returned : .close .returned ∈ p.threads) {ln : Listener}
    (refused : .serve ln .refused ∈ p.threads)
    : ln ∈ p.shared.closedListeners := by
  induction reached with
  | start =>
      rcases fresh.calls _ returned with same | ⟨_, same⟩ <;> cases same
  | step reached met step ih =>
      cases step with
      | @mk s later before after next g action acts =>
          have split {other : Goroutine} (member : other ∈ before ++ (next ++ after))
              : other ∈ before ++ g :: after ∨ other ∈ next := by
            simp only [List.mem_append, List.mem_cons] at member ⊢
            tauto
          refine acts.follows.listeners ln ?_
          rcases split returned with already | ended
          · rcases split refused with waits | enters
            · exact ih already waits
            · have late := met.none
              rw [acts.refuses enters] at late
              exact late already
          · obtain ⟨returns, others⟩ := acts.ends ended
            have waits := (split refused).resolve_right (others ln)
            have late := met.none
            rcases returns with rfl | rfl <;> exact late ln waits

/-- Any calls of `Serve` and `Close` on a new server, on any listeners. In every run in which no
listener is left behind, `Accept` fails only on a closed one and no call of `Serve` comes late:
a call of `Serve` that has returned has closed its listener; and once a call of `Close` has
returned the listener of every call of `Serve` that has looked at the server is closed.
-/
theorem listeners_are_closed (fresh : start.Fresh) (reached : Reaches Act Orderly start p)
    : (∀ ln err, .serve ln (.returned err) ∈ p.threads → ln ∈ p.shared.closedListeners)
      ∧ (.close .returned ∈ p.threads → ∀ ln phase, .serve ln phase ∈ p.threads
        → phase ≠ .called → ln ∈ p.shared.closedListeners) := by
  have released := released_of_reaches fresh reached
  have covered := covered_of_reaches fresh Orderly.keeps reached
  refine ⟨fun ln err member => released _ member, fun returned ln phase member begun => ?_⟩
  have loops : phase.inLoop = true → ln ∈ p.shared.closedListeners := by
    intro inLoop
    rcases covered _ member inLoop with closed | registered
    · exact closed
    · exact (covered _ returned).2 ln registered
  cases phase with
  | called => exact absurd rfl begun
  | refused => exact refused_of_reaches fresh reached returned member
  | accepting | accepted | tracked | counted => exact loops rfl
  | failed | returned => exact released _ member

end

/-- `Serve` returns after `Close` has closed its listener. -/
theorem listeners_are_closed_one
    : ∃ p, Reaches Act Orderly (Serving.one 0 []) p
      ∧ .serve 0 (.returned .errServerClosed) ∈ p.threads
      ∧ .close .returned ∈ p.threads
      ∧ 0 ∈ p.shared.closedListeners := by
  have plain : ∀ {p : Serving} {action}, KeepsListener p action
      → (∀ ln, action ≠ .acceptFails ln) → NoneLate p action → Orderly p action :=
    fun keeps other none => ⟨keeps, fun ln same => absurd same (other ln), none⟩
  have begun : Reaches Act Orderly (Serving.one 0 []) (Serving.one 0 []) := .start
  have registered := begun.next [] (.register rfl) (plain nofun nofun trivial)
  have took := registered.next [_] (.take rfl (.refl _)) (plain trivial nofun trivial)
  have closed : Reaches Act Orderly (Serving.one 0 [])
      ⟨{ closed := true, ln := some 0, closedListeners := [0] },
        [.serve 0 .accepting, .close (.dropping [])]⟩ :=
    took.next [_] .closeListener (plain trivial nofun trivial)
  have failed := closed.next [] .acceptFails
    ⟨trivial, fun ln same => by cases same; simp, trivial⟩
  have ended := failed.next [] .returnError (plain trivial nofun trivial)
  have returned := ended.next [_] (.waitReturns rfl) (plain trivial nofun (by simp [NoneLate]))
  have released := (listeners_are_closed (Serving.fresh_one 0 []) returned).1 0
    .errServerClosed (by simp)
  exact ⟨_, returned, by simp, by simp, released⟩

/-- A listener stays open when `Accept` fails for another reason and when a second call of
`Serve` replaces it; and it is still open, for a while, when a second call of `Close` returns at
once, or when `Close` returns while a call of `Serve` that found the server closed is about to
close it.
-/
theorem listener_stays_open
    : (∃ p, Reaches Act (fun _ _ => True) ⟨{}, [.serve 0 .called]⟩ p
        ∧ .serve 0 (.returned .accept) ∈ p.threads ∧ 0 ∉ p.shared.closedListeners)
      ∧ (∃ p, Reaches Act (fun _ _ => True) ⟨{}, [.serve 0 .called, .serve 1 .called,
            .close .called]⟩ p
        ∧ .close .returned ∈ p.threads ∧ .serve 0 .accepting ∈ p.threads
        ∧ 0 ∉ p.shared.closedListeners)
      ∧ (∃ p, Reaches Act (fun _ _ => True) ⟨{}, [.serve 0 .called, .close .called,
            .close .called]⟩ p
        ∧ .close .returned ∈ p.threads ∧ .serve 0 .accepting ∈ p.threads
        ∧ 0 ∉ p.shared.closedListeners)
      ∧ ∃ p, Reaches Act (fun _ _ => True) (Serving.one 0 []) p
        ∧ .close .returned ∈ p.threads ∧ .serve 0 .refused ∈ p.threads
        ∧ 0 ∉ p.shared.closedListeners := by
  refine ⟨?_, ?_, ?_, ?_⟩
  · have begun : Reaches Act (fun _ _ => True) ⟨{}, [.serve 0 .called]⟩
        ⟨{}, [.serve 0 .called]⟩ := .start
    have failed := (begun.next [] (.register rfl) trivial).next [] .acceptFails trivial
    exact ⟨_, failed.next [] .returnError trivial, by simp, by simp⟩
  · have begun : Reaches Act (fun _ _ => True)
        ⟨{}, [.serve 0 .called, .serve 1 .called, .close .called]⟩
        ⟨{}, [.serve 0 .called, .serve 1 .called, .close .called]⟩ := .start
    have both := (begun.next [] (.register rfl) trivial).next [_] (.register rfl) trivial
    have took := both.next [_, _] (.take rfl (.refl _)) trivial
    have closed := took.next [_, _] .closeListener trivial
    have returned := closed.next [_, _] (.waitReturns rfl) trivial
    exact ⟨_, returned, by simp, by simp, by simp [Shared.closeListener]⟩
  · have begun : Reaches Act (fun _ _ => True)
        ⟨{}, [.serve 0 .called, .close .called, .close .called]⟩
        ⟨{}, [.serve 0 .called, .close .called, .close .called]⟩ := .start
    have registered := begun.next [] (.register rfl) trivial
    have took := registered.next [_] (.take rfl (.refl _)) trivial
    have returned := took.next [_, _] (.foundClosed rfl) trivial
    exact ⟨_, returned, by simp, by simp, by simp⟩
  · have begun : Reaches Act (fun _ _ => True) (Serving.one 0 []) (Serving.one 0 []) := .start
    have took := begun.next [_] (.take rfl (.refl _)) trivial
    have refused := took.next [] (.refuse rfl) trivial
    have closed := refused.next [_] .closeListener trivial
    have returned := closed.next [_] (.waitReturns rfl) trivial
    exact ⟨_, returned, by simp, by simp, by simp⟩

end SftpServer.Sshd
