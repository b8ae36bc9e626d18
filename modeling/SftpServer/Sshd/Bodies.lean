import SftpServer.Sshd.Connection
import SftpServer.Sshd.Shutdown

/-! The front-end with the bodies of its goroutines: `Serve` and `Close` as they are, and where
a handler or a session runs, what is left of `HandleConn` or `handleSession`, one call at a
step. What was said of the front-end without them holds of it as well.
-/

namespace SftpServer.Sshd

open SftpServer.Foundations
open SftpServer.Foundations.Parallel
open SftpServer.Wire

variable {S : Type}

/-- A goroutine of the front-end, and what is left of its body. -/
inductive Task (S : Type) where
  | serve (ln : Listener) (phase : ServePhase)
  | close (phase : ClosePhase)
  | handler (c : Conn) (rest : ConnRest S)
  /-- `HandleConn` has returned and the connection is not tracked any more. -/
  | untracked (c : Conn)
  | session (c : Conn) (rest : SessionRest S)

/-- What `HandleConn` does to the wait group and to the goroutines. -/
def ConnCall.counts : ConnCall S → Bool
  | .addSession | .startSession _ _ => true
  | .newServerConn | .serverForLogin _ _ | .serverFor _ | .discardRequests | .reject _ _
  | .acceptChannel _ | .close => false

/-- A step of a goroutine: of `Serve` or `Close`, or one call of a body. A session that panics
while it closes its channel takes no step any more. `opens` is what each connection's client
will open, and `unmarshal` what the SSH library reads in its requests.
-/
inductive Work (unmarshal : Bytes → Option Bytes) (views : Views S)
    (opens : Conn → List NewChannel)
    : Shared → Task S → Option Action → Shared → List (Task S) → Prop where
  | serve {s later : Shared} {ln : Listener} {phase phase' : ServePhase} {action : Action}
    (acts : Act s (.serve ln phase) action later [.serve ln phase'])
    : Work unmarshal views opens s (.serve ln phase) (some action) later [.serve ln phase']
  | start {s : Shared} {ln : Listener} {c : Conn}
    : Work unmarshal views opens s (.serve ln (.counted c)) (some (.start c)) s
        [.serve ln .accepting, .handler c (handleConn views (opens c)).run]
  | close {s later : Shared} {phase phase' : ClosePhase} {action : Action}
    (acts : Act s (.close phase) action later [.close phase'])
    : Work unmarshal views opens s (.close phase) (some action) later [.close phase']
  | calls {s : Shared} {c : Conn} {question : ConnCall S}
    {next : question.Answer → ConnRest S} (answer : question.Answer)
    (other : question.counts = false)
    : Work unmarshal views opens s (.handler c (.ask question next)) none s
        [.handler c (next answer)]
  | adds {s : Shared} {c : Conn} {next : Unit → ConnRest S}
    : Work unmarshal views opens s (.handler c (.ask .addSession next)) (some (.addSession c))
        { s with wg := s.wg + 1 } [.handler c (next ())]
  | starts {s : Shared} {c : Conn} {srv : Option S} {nc : NewChannel}
    {next : Unit → ConnRest S}
    : Work unmarshal views opens s (.handler c (.ask (.startSession srv nc) next))
        (some (.startSession c)) s
        [.handler c (next ()), .session c (handleSession unmarshal srv nc.requests).run]
  | untracks {s : Shared} {c : Conn} {result : Except Bytes (Option ConnError)}
    : Work unmarshal views opens s (.handler c (.ret result)) (some (.untrack c)) (s.track c false)
        [.untracked c]
  | done {s : Shared} {c : Conn}
    : Work unmarshal views opens s (.untracked c) (some (.done c)) { s with wg := s.wg - 1 } []
  | serves {s : Shared} {c : Conn} {question : ChannelCall S}
    {next : question.Answer → SessionRest S} (answer : question.Answer)
    : Work unmarshal views opens s (.session c (.ask question next)) none s
        [.session c (next answer)]
  | ends {s : Shared} {c : Conn}
    : Work unmarshal views opens s (.session c (.ret (.ok ()))) (some (.endSession c))
        { s with wg := s.wg - 1 } []

-----------------------------------------------------------------------------------------
-- A handler raises the wait group right before it starts a session
-----------------------------------------------------------------------------------------

/-- Each session that the program starts is counted right before, and none is counted that is
not started.
-/
inductive Paired {α : Type} : Interaction (ConnCall.Answer (S := S)) α → Prop where
  | ret (value : α) : Paired (.ret value)
  | ask {question : ConnCall S}
    {next : question.Answer → Interaction (ConnCall.Answer (S := S)) α}
    (other : question.counts = false) (later : ∀ answer, Paired (next answer))
    : Paired (.ask question next)
  | starts {srv : Option S} {nc : NewChannel}
    {next : Unit → Interaction (ConnCall.Answer (S := S)) α} (later : Paired (next ()))
    : Paired (.ask .addSession fun _ => .ask (.startSession srv nc) next)

/-- The rule of sequence, by induction on the first program. -/
theorem Paired.bind {α β : Type} {program : Interaction (ConnCall.Answer (S := S)) α}
    {rest : α → Interaction (ConnCall.Answer (S := S)) β} (first : Paired program)
    (second : ∀ value, Paired (rest value))
    : Paired (program >>= rest) := by
  induction first with
  | ret value => exact second value
  | ask other _ ih => exact .ask other fun answer => ih answer
  | @starts srv nc next _ ih =>
      exact @Paired.starts _ _ srv nc (fun answer => next answer >>= rest) ih

theorem Paired.bind_run {α β : Type} {body : ConnProg S α} {rest : α → ConnProg S β}
    (first : Paired body.run) (second : ∀ value, Paired (rest value).run)
    : Paired (body >>= rest).run := by
  refine first.bind fun result => ?_
  cases result with
  | error panic => exact .ret _
  | ok value => exact second value

theorem channelLoop_paired (srv : Option S) (chans : List NewChannel)
    : Paired (channelLoop srv chans).run := by
  induction chans with
  | nil => exact .ret _
  | cons nc chans ih =>
      unfold channelLoop
      split
      · exact Paired.bind_run (.ask rfl fun _ => .ret _) fun _ => ih
      · refine Paired.bind_run (.ask rfl fun _ => .ret _) fun answer => ?_
        cases answer with
        | error err => exact .ret _
        | ok value => exact .starts ih

theorem serveLogin_paired (views : Views S) (user : Bytes) (perms : Permissions)
    (chans : List NewChannel)
    : Paired (serveLogin views user perms chans).run := by
  have channels (srv : Option S) : Paired (serveChannels srv chans).run :=
    .ask rfl fun _ => channelLoop_paired srv chans
  have chosen (answer : Except AuthError (Option S))
      : Paired (serveChosen user chans answer).run := by
    rcases answer with err | none | srv
    · exact .ret _
    · exact .ret _
    · exact channels srv
  unfold serveLogin
  split
  · exact Paired.bind_run (.ask rfl fun _ => .ret _) chosen
  split
  · exact Paired.bind_run (.ask rfl fun _ => .ret _) chosen
  · exact channels views.sftp

theorem handleConn_paired (views : Views S) (chans : List NewChannel)
    : Paired (handleConn views chans).run := by
  have closing : Paired (.ask .close .ret : Interaction (ConnCall.Answer (S := S)) _) :=
    .ask rfl fun answer => .ret answer
  refine Paired.bind ?_ fun ended => by cases ended <;> exact .ret _
  refine Paired.bind_run (.ask rfl fun _ => .ret _) fun answer => ?_
  rcases answer with err | ⟨user, perms⟩
  · exact .ret _
  · refine (serveLogin_paired views user perms chans).bind fun result => ?_
    exact closing.bind fun closed => by cases closed <;> exact .ret _

-----------------------------------------------------------------------------------------
-- The bodies do what was said of the goroutines
-----------------------------------------------------------------------------------------

/-- Where a goroutine is, without its body. -/
def Task.goroutine : Task S → Goroutine
  | .serve ln phase => .serve ln phase
  | .close phase => .close phase
  | .handler c (.ask (.startSession _ _) _) => .handler c .opening
  | .handler c _ => .handler c .running
  | .untracked c => .handler c .untracked
  | .session c _ => .session c

/-- A handler is about to start a session that is counted, or counts each that it starts. -/
def Task.Knows : Task S → Prop
  | .handler _ rest =>
      Paired rest
      ∨ ∃ srv nc next, rest = .ask (.startSession srv nc) next ∧ Paired (next ())
  | .serve _ _ | .close _ | .untracked _ | .session _ _ => True

theorem Paired.running {rest : ConnRest S} (paired : Paired rest) (c : Conn)
    : (Task.handler c rest).goroutine = .handler c .running := by
  cases paired with
  | ret value => rfl
  | starts later => rfl
  | @ask question next other later =>
      cases question <;> first | rfl | cases other

section Work

variable {unmarshal : Bytes → Option Bytes} {views : Views S}
  {opens : Conn → List NewChannel} {s later : Shared} {t : Task S} {action : Option Action}
  {next : List (Task S)}

theorem Work.knows (works : Work unmarshal views opens s t action later next) (known : t.Knows)
    : ∀ u ∈ next, u.Knows := by
  cases works with
  | serve acts => simp [Task.Knows]
  | close acts => simp [Task.Knows]
  | start => simp [Task.Knows, handleConn_paired]
  | untracks => simp [Task.Knows]
  | done => simp
  | serves answer => simp [Task.Knows]
  | ends => simp
  | @calls c question next answer other =>
      rcases known with paired | ⟨srv, nc, next, same, _⟩
      · cases paired with
        | ask _ later => exact List.forall_mem_singleton.mpr (.inl (later answer))
        | starts _ => cases other
      · cases same
        cases other
  | @adds c next =>
      rcases known with paired | ⟨srv, nc, next, same, _⟩
      · cases paired with
        | ask other _ => cases other
        | starts later => exact List.forall_mem_singleton.mpr (.inr ⟨_, _, _, rfl, later⟩)
      · cases same
  | @starts c srv nc next =>
      refine List.forall_mem_cons.mpr ⟨?_, List.forall_mem_singleton.mpr trivial⟩
      rcases known with paired | ⟨srv, nc, next, same, paired⟩
      · cases paired with
        | ask other _ => cases other
      · cases same
        exact .inl paired

/-- A step of a body is one of its goroutine, or is not seen. -/
theorem Work.seen (works : Work unmarshal views opens s t action later next) (known : t.Knows)
    : (later = s ∧ next.map Task.goroutine = [t.goroutine])
      ∨ ∃ taken, action = some taken
        ∧ Act s t.goroutine taken later (next.map Task.goroutine) := by
  cases works with
  | serve acts => exact .inr ⟨_, rfl, acts⟩
  | close acts => exact .inr ⟨_, rfl, acts⟩
  | start =>
      refine .inr ⟨_, rfl, ?_⟩
      rw [List.map_cons, List.map_cons, (handleConn_paired views _).running]
      exact .start
  | untracks => exact .inr ⟨_, rfl, .untrack⟩
  | done => exact .inr ⟨_, rfl, .done⟩
  | ends => exact .inr ⟨_, rfl, .endSession⟩
  | serves answer => exact .inl ⟨rfl, rfl⟩
  | @calls c question next answer other =>
      refine .inl ⟨rfl, ?_⟩
      rcases known with paired | ⟨srv, nc, next, same, _⟩
      · rw [paired.running]
        cases paired with
        | ask _ later => rw [List.map_singleton, (later answer).running]
        | starts _ => cases other
      · cases same
        cases other
  | @adds c next =>
      refine .inr ⟨_, rfl, ?_⟩
      rcases known with paired | ⟨srv, nc, next, same, _⟩
      · cases paired with
        | ask other _ => cases other
        | starts _ => exact .addSession
      · cases same
  | @starts c srv nc next =>
      refine .inr ⟨_, rfl, ?_⟩
      rcases known with paired | ⟨srv, nc, next, same, paired⟩
      · cases paired with
        | ask other _ => cases other
      · cases same
        rw [List.map_cons, paired.running]
        exact .startSession

end Work

-----------------------------------------------------------------------------------------
-- One call of `Serve` and one of `Close`, with the bodies of what they start
-----------------------------------------------------------------------------------------

/-- A front-end with the bodies of its goroutines. -/
abbrev Running (S : Type) := Parallel Shared (Task S)

namespace Running

/-- One call of `Serve` beside one of `Close`, on a new server. -/
def one (ln : Listener) (gone : List Listener) : Running S :=
  ⟨{ closedListeners := gone }, [.serve ln .called, .close .called]⟩

/-- `Wait` returns only while no call of `Serve` has a connection that it has not counted. -/
def Settled (p : Running S) (action : Option Action) : Prop :=
  action = some .waitReturns
    → ∀ ln c, .serve ln (.accepted c) ∉ p.threads ∧ .serve ln (.tracked c) ∉ p.threads

end Running

/-- A call of `Serve` is seen where it is. -/
theorem Task.goroutine_eq_serve_iff {t : Task S} {ln : Listener} {phase : ServePhase}
    : t.goroutine = .serve ln phase ↔ t = .serve ln phase := by
  unfold goroutine
  split <;> simp

theorem Running.Settled.goroutines {s : Shared} {threads : List (Task S)} {taken : Action}
    (settled : Running.Settled ⟨s, threads⟩ (some taken))
    : Sshd.Settled ⟨s, threads.map Task.goroutine⟩ taken := by
  cases taken <;> try trivial
  intro ln c
  have apart := settled rfl ln c
  simpa [Task.goroutine_eq_serve_iff] using apart

section Close

variable {unmarshal : Bytes → Option Bytes} {views : Views S}
  {opens : Conn → List NewChannel} {ln : Listener} {gone : List Listener} {p : Running S}

/-- What the front-end reaches with the bodies, it reaches without. -/
theorem goroutines_reached
    (reached : Reaches (Work unmarshal views opens) Running.Settled (Running.one ln gone) p)
    : Reaches Act Settled (Serving.one ln gone) (p.map Task.goroutine) := by
  refine (reached.simulates Task.goroutine Task.Knows ?_ Work.knows ?_).1
  · simp [Running.one, Task.Knows]
  · intro s t action later next works known
    rcases works.seen known with unseen | ⟨taken, rfl, acts⟩
    · exact .inl unseen
    · exact .inr ⟨taken, acts, fun threads => Running.Settled.goroutines⟩

/-- One call of `Serve` and one of `Close`, on a new server, with any clients, any callbacks and
any panics, every call of every body one step among those of the others. In every run in which
`Wait` returns only while no accepted connection waits to be counted: once `Close` has returned,
then or later, nothing is left of any `HandleConn` or `handleSession` that was started, and
every connection that was accepted is closed.
-/
theorem close_waits_for_bodies {q : Running S}
    (reached : Reaches (Work unmarshal views opens) Running.Settled (Running.one ln gone) p)
    (returned : .close .returned ∈ p.threads)
    (later : Reaches (Work unmarshal views opens) Running.Settled p q)
    : (∀ c rest, .handler c rest ∉ q.threads)
      ∧ (∀ c, .untracked c ∉ q.threads)
      ∧ (∀ c rest, .session c rest ∉ q.threads)
      ∧ ∀ c ∈ q.shared.accepted, c ∈ q.shared.closedConns := by
  have whole := goroutines_reached (reached.trans later)
  have still : .close .returned ∈ q.threads :=
    later.stays (fun works => by cases works with | close acts => cases acts) returned
  have quiet := (quiet_after_close whole (List.mem_map_of_mem still)).2
  have calm (t : Task S) (member : t ∈ q.threads) : Quiet q.shared t.goroutine :=
    quiet _ (List.mem_map_of_mem member)
  refine ⟨fun c rest member => ?_, fun c => calm _, fun c rest => calm _, fun c accepted => ?_⟩
  · have running := calm _ member
    unfold Task.goroutine at running
    split at running <;> simp_all [Quiet]
  · rcases accepted_held (Serving.fresh_one ln gone) whole accepted with closed | ⟨g, member, held⟩
    · exact closed
    · exact absurd held ((quiet g member).holds c)

end Close

/-- A client opens a session and asks for nothing in it, while `Close` waits. -/
theorem close_waits_for_one_body
    : ∃ p : Running Unit, Reaches
        (Work some ⟨some (), false, false⟩ fun _ => [⟨text "session", []⟩])
        Running.Settled (Running.one 0 []) p
      ∧ .close .returned ∈ p.threads
      ∧ p.shared.accepted = [7]
      ∧ (∀ c ∈ p.shared.accepted, c ∈ p.shared.closedConns)
      ∧ ∀ c rest, .handler c rest ∉ p.threads := by
  let views : Views Unit := ⟨some (), false, false⟩
  let nc : NewChannel := ⟨text "session", []⟩
  let Reached := Reaches (Work some views fun _ => [nc]) Running.Settled (Running.one 0 [])
  have begun : Reached (Running.one 0 []) := .start
  have accepted := (begun.next [] (.serve (.register rfl)) nofun).next []
    (.serve (@Act.accept _ 0 7 (by simp) (by simp))) nofun
  have started : Reached ⟨{ ln := some 0, conns := [7], wg := 1, accepted := [7] },
      [.serve 0 .accepting, .handler 7 (handleConn views [nc]).run, .close .called]⟩ :=
    ((accepted.next [] (.serve .track) nofun).next [] (.serve .add) nofun).next [] .start nofun
  have channels := (started.next [_]
    (@Work.calls _ _ _ _ _ _ .newServerConn _ (.ok (.ok (text "user", {}))) rfl)
    nofun).next [_] (@Work.calls _ _ _ _ _ _ .discardRequests _ () rfl) nofun
  have opened := ((channels.next [_]
    (@Work.calls _ _ _ _ _ _ (.acceptChannel nc) _ (.ok (.ok ())) rfl) nofun).next [_] .adds
    nofun).next [_] .starts nofun
  have dropped : Reached
      ⟨{ closed := true, ln := some 0, conns := [7], wg := 2, accepted := [7],
          closedListeners := [0], closedConns := [7] },
        [.serve 0 .accepting, _, _, .close (.dropping [])]⟩ :=
    ((opened.next [_, _, _] (.close (.take rfl (.refl _))) nofun).next [_, _, _]
      (.close .closeListener) nofun).next [_, _, _] (.close .closeConn) nofun
  have handled := ((dropped.next [_] (@Work.calls _ _ _ _ _ _ .close _ (.ok ()) rfl)
    nofun).next [_] .untracks nofun).next [_] .done nofun
  have ended := (handled.next [_] (@Work.serves _ _ _ _ _ _ .close _ (.ok ())) nofun).next [_]
    .ends nofun
  have returned := ended.next [_] (.close (.waitReturns rfl)) (fun _ => by simp)
  have waited := close_waits_for_bodies returned (by simp) .start
  exact ⟨_, returned, by simp, rfl, waited.2.2.2, waited.1⟩

end SftpServer.Sshd
