import SftpServer.Foundations.Unwinding
import SftpServer.Sshd.Config

/-! One SSH connection and its session channels: `HandleConn` and `handleSession`, with what
they defer and recover. The channels that a client opens, and the requests it makes on each,
are taken as they come; what the SSH library, the callbacks and `sftp.Server.Serve` answer is
left open, a panic of any of them included.
-/

namespace SftpServer.Sshd

open SftpServer.Foundations
open SftpServer.Wire

/-- `ssh.Request`: what a client asks on a channel. -/
structure Request where
  type : Bytes
  wantReply : Bool
  payload : Bytes

/-- `ssh.NewChannel`, with the requests that will be made on it. -/
structure NewChannel where
  channelType : Bytes
  requests : List Request

section Session

variable {S : Type}

/-- What `handleSession` calls. -/
inductive ChannelCall (S : Type) where
  | reply (req : Request) (ok : Bool)
  | serve (srv : Option S)
  | sendExitStatus (code : UInt32)
  | close

/-- A call returns or panics; what it returns is ignored. -/
abbrev ChannelCall.Answer (_ : ChannelCall S) := Except Bytes Unit

abbrev SessionProg (S : Type) := Unwinding Bytes (ChannelCall.Answer (S := S))

/-- What is left of a session. -/
abbrev SessionRest (S : Type) := Interaction (ChannelCall.Answer (S := S)) (Except Bytes Unit)

def ChannelCall.call (question : ChannelCall S) : SessionProg S Unit :=
  ExceptT.mk (.ask question .ret)

def replyNo (req : Request) : SessionProg S Unit :=
  if req.wantReply then (ChannelCall.reply req false).call else pure ()

def replyYes (req : Request) : SessionProg S Unit :=
  if req.wantReply then (ChannelCall.reply req true).call else pure ()

/-- The loop of `handleSession` over the requests of its channel. `unmarshal` is the name that
`ssh.Unmarshal` finds in the payload of a `subsystemRequest`, if it finds one.
-/
def sessionLoop (unmarshal : Bytes → Option Bytes) (srv : Option S)
    : List Request → SessionProg S Unit
  | [] => return
  | req :: reqs => do
      if req.type ≠ text "subsystem" then
        replyNo req
        sessionLoop unmarshal srv reqs
      else if unmarshal req.payload ≠ some (text "sftp") then
        replyNo req
        sessionLoop unmarshal srv reqs
      else
        replyYes req
        (ChannelCall.serve srv).call
        (ChannelCall.sendExitStatus 0).call
        return

def handleSession (unmarshal : Bytes → Option Bytes) (srv : Option S) (reqs : List Request)
    : SessionProg S Unit :=
  .deferring ChannelCall.close.call (.recovering (fun _ => ()) (sessionLoop unmarshal srv reqs))

end Session

section Connection

variable {S : Type}

/-- What a front-end can show to a connection: its own server, and whether a callback chooses
another.
-/
structure Views (S : Type) where
  sftp : Option S
  serverFor : Bool
  serverForLogin : Bool

/-- What `HandleConn` calls, and what it starts. -/
inductive ConnCall (S : Type) where
  | newServerConn
  | serverForLogin (user : Bytes) (perms : Permissions)
  | serverFor (user : Bytes)
  | discardRequests
  | reject (nc : NewChannel) (message : Bytes)
  | acceptChannel (nc : NewChannel)
  | addSession
  | startSession (srv : Option S) (nc : NewChannel)
  | close

/-- A handshake that succeeds proves a user name, and comes with the permissions of the login.
The wait group and the start of a goroutine do not panic.
-/
def ConnCall.Answer : ConnCall S → Type
  | .newServerConn => Except Bytes (Except Bytes (Bytes × Permissions))
  | .serverForLogin _ _ | .serverFor _ => Except Bytes (Except AuthError (Option S))
  | .reject _ _ | .close => Except Bytes Unit
  | .acceptChannel _ => Except Bytes (Except Bytes Unit)
  | .discardRequests | .addSession | .startSession _ _ => Unit

inductive ConnError where
  | handshake (err : Bytes)
  | callback (err : AuthError)
  /-- `sshd: no filesystem for %q`. -/
  | noFilesystem (user : Bytes)
  | accept (err : Bytes)
  /-- `sshd: connection panicked: %v`. -/
  | panicked (reason : Bytes)

abbrev ConnProg (S : Type) := Unwinding Bytes (ConnCall.Answer (S := S))

/-- What is left of a connection. -/
abbrev ConnRest (S : Type) :=
  Interaction (ConnCall.Answer (S := S)) (Except Bytes (Option ConnError))

/-- The loop of `HandleConn` over the channels that are opened. -/
def channelLoop (srv : Option S) : List NewChannel → ConnProg S (Option ConnError)
  | [] => return none
  | nc :: chans => do
      if nc.channelType ≠ text "session" then
        ExceptT.mk (.ask (.reject nc (text "only session channels are served")) .ret)
        channelLoop srv chans
      else
        match ← ExceptT.mk (.ask (.acceptChannel nc) .ret) with
        | .error err => return some (.accept err)
        | .ok () =>
            let _ ← Unwinding.ask .addSession
            let _ ← Unwinding.ask (.startSession srv nc)
            channelLoop srv chans

/-- What follows once it is settled what the connection may see. -/
def serveChannels (srv : Option S) (chans : List NewChannel)
    : ConnProg S (Option ConnError) := do
  let _ ← Unwinding.ask .discardRequests
  channelLoop srv chans

/-- The answer of a callback that chooses a server for a user. -/
def serveChosen (user : Bytes) (chans : List NewChannel)
    : Except AuthError (Option S) → ConnProg S (Option ConnError)
  | .error err => return some (.callback err)
  | .ok none => return some (.noFilesystem user)
  | .ok (some srv) => serveChannels (some srv) chans

/-- What the connection may see, resolved once, from a user name the client has proved. -/
def serveLogin (views : Views S) (user : Bytes) (perms : Permissions) (chans : List NewChannel)
    : ConnProg S (Option ConnError) :=
  if views.serverForLogin then do
    serveChosen user chans (← ExceptT.mk (.ask (.serverForLogin user perms) .ret))
  else if views.serverFor then do
    serveChosen user chans (← ExceptT.mk (.ask (.serverFor user) .ret))
  else serveChannels views.sftp chans

def handleConn (views : Views S) (chans : List NewChannel) : ConnProg S (Option ConnError) :=
  .recovering (fun reason => some (.panicked reason)) do
    match ← ExceptT.mk (.ask .newServerConn .ret) with
    | .error err => return some (.handshake err)
    | .ok (user, perms) =>
        .deferring (ExceptT.mk (.ask .close .ret)) (serveLogin views user perms chans)

end Connection

-----------------------------------------------------------------------------------------
-- A session channel
-----------------------------------------------------------------------------------------

section Session

variable {S : Type}

/-- The request that starts SFTP. -/
def Request.isSftp (unmarshal : Bytes → Option Bytes) (req : Request) : Bool :=
  req.type = text "subsystem" && unmarshal req.payload = some (text "sftp")

/-- The replies to a request, if it wants one. -/
def Request.replies (req : Request) (ok : Bool) : List (ChannelCall S) :=
  if req.wantReply then [.reply req ok] else []

/-- What a session channel comes to if nothing panics: all is refused until SFTP is asked for,
and SFTP is served once.
-/
def sessionScript (unmarshal : Bytes → Option Bytes) (srv : Option S) (reqs : List Request)
    : List (ChannelCall S) :=
  (reqs.takeWhile fun req => !req.isSftp unmarshal).flatMap (·.replies false)
    ++ match reqs.find? (Request.isSftp unmarshal) with
      | none => []
      | some req => req.replies true ++ [.serve srv, .sendExitStatus 0]

theorem calls_replies (req : Request) (ok : Bool) (rest : List (ChannelCall S))
    : (Unwinding.calls (req.replies ok ++ rest) : SessionProg S Unit)
      = (if req.wantReply then (ChannelCall.reply req ok).call else pure ())
        >>= fun _ => Unwinding.calls rest := by
  cases wants : req.wantReply <;> simp only [Request.replies, wants] <;> rfl

variable (unmarshal : Bytes → Option Bytes)

/-- The loop makes the calls of the script, by induction on the requests. -/
theorem sessionLoop_eq (srv : Option S) (reqs : List Request)
    : sessionLoop unmarshal srv reqs = Unwinding.calls (sessionScript unmarshal srv reqs) := by
  induction reqs with
  | nil => rfl
  | cons req reqs ih =>
      unfold sessionLoop
      by_cases sftp : req.isSftp unmarshal = true
      · have script : sessionScript unmarshal srv (req :: reqs)
            = req.replies true ++ [.serve srv, .sendExitStatus 0] := by
          simp [sessionScript, sftp]
        rw [script, calls_replies]
        simp only [Request.isSftp, Bool.and_eq_true, decide_eq_true_eq] at sftp
        rw [if_neg (not_not.mpr sftp.1), if_neg (not_not.mpr sftp.2)]
        rfl
      · have script : sessionScript unmarshal srv (req :: reqs)
            = req.replies false ++ sessionScript unmarshal srv reqs := by
          simp [sessionScript, sftp]
        rw [script, calls_replies, ← ih]
        simp only [Request.isSftp, Bool.and_eq_true, decide_eq_true_eq, not_and_or] at sftp
        split
        · rfl
        · rename_i subsystem
          rw [if_pos (sftp.resolve_left subsystem)]
          rfl

/-- What a session channel comes to, whatever panics: the calls of the script in order, the
first that panics being the last of them, and then the channel is closed, once and last. A
panic of the closing itself is the only one that goes on.
-/
theorem session_channel_runs_iff (srv : Option S) (reqs : List Request)
    (trace : List (Exchange (ChannelCall.Answer (S := S)))) (result : Except Bytes Unit)
    : (handleSession unmarshal srv reqs).run.Runs trace result
      ↔ ∃ body ended,
          Unwinding.Follows (sessionScript unmarshal srv reqs) body ended
          ∧ trace = body ++ [⟨.close, result⟩] := by
  rw [handleSession, Unwinding.deferring_runs_iff]
  constructor
  · rintro ⟨body, late, inner, closed, rfl, runs, cleaned, same⟩
    obtain ⟨ended, looped, rfl⟩ := Unwinding.recovering_runs_iff.mp runs
    rw [sessionLoop_eq, Unwinding.calls_runs_iff] at looped
    obtain ⟨answer, rest, rfl, returns⟩ := Interaction.runs_ask_iff.mp cleaned
    obtain ⟨rfl, rfl⟩ := Interaction.runs_ret_iff.mp returns
    refine ⟨body, ended, looped, ?_⟩
    cases closed <;> cases same <;> rfl
  · rintro ⟨body, ended, follows, rfl⟩
    have runs := Unwinding.calls_runs_iff.mpr follows
    rw [← sessionLoop_eq] at runs
    refine ⟨body, _, _, result, rfl, Unwinding.recovering_runs_iff.mpr ⟨ended, runs, rfl⟩,
      .ask (.ret result), ?_⟩
    cases result <;> rfl

end Session

-----------------------------------------------------------------------------------------
-- A connection
-----------------------------------------------------------------------------------------

section Connection

variable {S : Type}

abbrev ConnExchange (S : Type) := Exchange (ConnCall.Answer (S := S))

def NewChannel.isSession (nc : NewChannel) : Bool := nc.channelType = text "session"

/-- The channel that was accepted. -/
def acceptedBy : ConnExchange S → Option NewChannel
  | ⟨.acceptChannel nc, .ok (.ok ())⟩ => some nc
  | _ => none

/-- The channel that was rejected. -/
def rejectedBy : ConnExchange S → Option NewChannel
  | ⟨.reject nc _, _⟩ => some nc
  | _ => none

/-- The channel for which a session was started. -/
def startedBy : ConnExchange S → Option NewChannel
  | ⟨.startSession _ nc, _⟩ => some nc
  | _ => none

/-- The connection was closed by its handler. -/
def isClose : ConnExchange S → Bool
  | ⟨.close, _⟩ => true
  | _ => false

/-- The login that the handshake proved. -/
def Proved (past : List (ConnExchange S)) (user : Bytes) (perms : Permissions) : Prop :=
  past.head? = some ⟨.newServerConn, .ok (.ok (user, perms))⟩

/-- The server that the connection may see: the one a callback chose for the login that was
proved, or the front-end's own.
-/
def Chosen (views : Views S) (past : List (ConnExchange S)) (srv : Option S) : Prop :=
  ∃ user perms, Proved past user perms
    ∧ if views.serverForLogin then
        ∃ s, srv = some s ∧ ⟨.serverForLogin user perms, .ok (.ok (some s))⟩ ∈ past
      else if views.serverFor then
        ∃ s, srv = some s ∧ ⟨.serverFor user, .ok (.ok (some s))⟩ ∈ past
      else srv = views.sftp

/-- What a connection may do after its past: the handshake comes first, and only then, and
nothing comes after the end; a callback is asked about the login that was proved, right after
the handshake; channels are taken once the server is chosen, and a session is started for the
channel that was accepted last, with that server.
-/
def Proper (views : Views S) (past : List (ConnExchange S)) (question : ConnCall S) : Prop :=
  past.countP isClose = 0
  ∧ match question with
    | .newServerConn => past = []
    | .serverForLogin user perms => past = [⟨.newServerConn, .ok (.ok (user, perms))⟩]
    | .serverFor user => ∃ perms, past = [⟨.newServerConn, .ok (.ok (user, perms))⟩]
    | .discardRequests => ∃ srv, Chosen views past srv
    | .acceptChannel nc => nc.isSession = true ∧ ∃ srv, Chosen views past srv
    | .reject nc _ => nc.isSession = false ∧ ∃ srv, Chosen views past srv
    | .addSession => ∃ srv, Chosen views past srv
    | .startSession srv nc =>
        Chosen views past srv ∧ nc.isSession = true
        ∧ past.filterMap acceptedBy = past.filterMap startedBy ++ [nc]
    | .close => ∃ user perms, Proved past user perms

variable {views : Views S} {past : List (ConnExchange S)} {srv : Option S}

theorem Proved.append {user : Bytes} {perms : Permissions} (proved : Proved past user perms)
    (more : List (ConnExchange S))
    : Proved (past ++ more) user perms := by
  rw [Proved, List.head?_append, proved]
  rfl

theorem Chosen.append (chosen : Chosen views past srv) (more : List (ConnExchange S))
    : Chosen views (past ++ more) srv := by
  obtain ⟨user, perms, proved, choice⟩ := chosen
  refine ⟨user, perms, proved.append more, ?_⟩
  split
  · rename_i byLogin
    rw [if_pos byLogin] at choice
    obtain ⟨s, same, answered⟩ := choice
    exact ⟨s, same, List.mem_append_left _ answered⟩
  · rename_i byLogin
    rw [if_neg byLogin] at choice
    split
    · rename_i byUser
      rw [if_pos byUser] at choice
      obtain ⟨s, same, answered⟩ := choice
      exact ⟨s, same, List.mem_append_left _ answered⟩
    · rename_i byUser
      rw [if_neg byUser] at choice
      exact choice

/-- The connection takes channels: each that was accepted has its session. -/
structure Ready (views : Views S) (srv : Option S) (past : List (ConnExchange S)) : Prop where
  opened : past.countP isClose = 0
  chosen : Chosen views past srv
  started : past.filterMap startedBy = past.filterMap acceptedBy

theorem Ready.proved (ready : Ready views srv past) : ∃ user perms, Proved past user perms := by
  obtain ⟨user, perms, proved, _⟩ := ready.chosen
  exact ⟨user, perms, proved⟩

/-- The connection has taken some of these channels, in order, and all of them unless it was
stopped.
-/
structure Took (views : Views S) (srv : Option S) (sessions others : List NewChannel)
    (past : List (ConnExchange S)) (result : Except Bytes (Option ConnError)) : Prop where
  ready : Ready views srv past
  accepted : past.filterMap acceptedBy <+: sessions
  rejected : past.filterMap rejectedBy <+: others
  all : result = .ok none
    → past.filterMap acceptedBy = sessions ∧ past.filterMap rejectedBy = others

/-- What is done beside taking channels. -/
theorem Ready.beside (ready : Ready views srv past) {exchange : ConnExchange S}
    (opened : isClose exchange = false) (started : startedBy exchange = none)
    (accepted : acceptedBy exchange = none)
    : Ready views srv (past ++ [exchange]) where
  opened := by simp [ready.opened, opened]
  chosen := ready.chosen.append _
  started := by simp [ready.started, started, accepted]

/-- A channel is accepted and its session is started. -/
theorem Ready.taking (ready : Ready views srv past) (nc : NewChannel)
    : Ready views srv (past ++ [⟨.acceptChannel nc, .ok (.ok ())⟩, ⟨.addSession, ()⟩,
        ⟨.startSession srv nc, ()⟩]) where
  opened := by
    rw [List.countP_append, ready.opened]
    rfl
  chosen := ready.chosen.append _
  started := by
    rw [List.filterMap_append, List.filterMap_append, ready.started]
    rfl

/-- One more channel is left to the rest of the loop. -/
theorem Took.cons {nc : NewChannel} {chans : List NewChannel} {more : List (ConnExchange S)}
    {later : List (ConnExchange S)} {result : Except Bytes (Option ConnError)}
    (took : Took views srv ((past ++ more).filterMap acceptedBy ++ chans.filter (·.isSession))
      ((past ++ more).filterMap rejectedBy ++ chans.filter (!·.isSession)) later result)
    (accepted : more.filterMap acceptedBy = [nc].filter (·.isSession))
    (rejected : more.filterMap rejectedBy = [nc].filter (!·.isSession))
    : Took views srv (past.filterMap acceptedBy ++ (nc :: chans).filter (·.isSession))
        (past.filterMap rejectedBy ++ (nc :: chans).filter (!·.isSession)) later result := by
  rw [List.filterMap_append, List.filterMap_append, accepted, rejected, List.append_assoc,
    List.append_assoc, ← List.filter_append, ← List.filter_append] at took
  exact took

/-- The loop stops at a channel. -/
theorem Took.stopped {sessions others : List NewChannel} {more : List (ConnExchange S)}
    {result : Except Bytes (Option ConnError)} (ready : Ready views srv (past ++ more))
    (failed : result ≠ .ok none) (accepted : more.filterMap acceptedBy <+: sessions)
    (rejected : more.filterMap rejectedBy <+: others)
    : Took views srv (past.filterMap acceptedBy ++ sessions)
        (past.filterMap rejectedBy ++ others) (past ++ more) result := by
  refine ⟨ready, ?_, ?_, fun same => absurd same failed⟩
  · rw [List.filterMap_append]
    exact (List.prefix_append_right_inj _).mpr accepted
  · rw [List.filterMap_append]
    exact (List.prefix_append_right_inj _).mpr rejected

/-- The loop over the channels, by induction on them. -/
theorem channelLoop_proper (ready : Ready views srv past) (chans : List NewChannel)
    : (Monitor.recalling (Proper views)).wp (channelLoop srv chans).run
        (Took views srv (past.filterMap acceptedBy ++ chans.filter (·.isSession))
          (past.filterMap rejectedBy ++ chans.filter (!·.isSession))) past := by
  induction chans generalizing past with
  | nil => exact ⟨ready, by simp, by simp, by simp⟩
  | cons nc chans ih =>
      have onwards {more : List (ConnExchange S)} (ready : Ready views srv (past ++ more))
          (accepted : more.filterMap acceptedBy = [nc].filter (·.isSession))
          (rejected : more.filterMap rejectedBy = [nc].filter (!·.isSession))
          : (Monitor.recalling (Proper views)).wp (channelLoop srv chans).run
              (Took views srv (past.filterMap acceptedBy ++ (nc :: chans).filter (·.isSession))
                (past.filterMap rejectedBy ++ (nc :: chans).filter (!·.isSession)))
              (past ++ more) :=
        Monitor.wp_mono (ih ready) fun later result took => took.cons accepted rejected
      unfold channelLoop
      split
      · rename_i other
        have kind : nc.isSession = false := by simpa [NewChannel.isSession] using other
        rw [Monitor.wp_bind_run]
        refine ⟨⟨ready.opened, kind, srv, ready.chosen⟩, fun answer _ => ?_⟩
        have beside : Ready views srv (past ++ [⟨.reject nc _, answer⟩]) :=
          ready.beside rfl rfl rfl
        cases answer with
        | error panic =>
            refine .stopped beside nofun List.nil_prefix ?_
            rw [List.filter_cons_of_pos (by simp [kind])]
            exact ⟨_, rfl⟩
        | ok value => exact onwards beside (by simp [kind]; rfl) (by simp [kind]; rfl)
      · rename_i session
        have kind : nc.isSession = true := by simpa [NewChannel.isSession] using session
        have alone : [nc].filter (·.isSession) = [nc] := by simp [kind]
        have nothing : [nc].filter (!·.isSession) = [] := by simp [kind]
        rw [Monitor.wp_bind_run]
        refine ⟨⟨ready.opened, kind, srv, ready.chosen⟩, fun answer _ => ?_⟩
        cases answer with
        | error panic =>
            exact .stopped (ready.beside rfl rfl rfl) nofun List.nil_prefix List.nil_prefix
        | ok answer =>
            cases answer with
            | error err =>
                exact .stopped (ready.beside rfl rfl rfl) nofun List.nil_prefix List.nil_prefix
            | ok value =>
                have taken := onwards (ready.taking nc) (by rw [alone]; rfl) (by rw [nothing]; rfl)
                rw [List.append_cons, List.append_cons] at taken
                have opened (more : List (ConnExchange S)) (none : more.countP isClose = 0)
                    : (past ++ more).countP isClose = 0 := by
                  rw [List.countP_append, ready.opened, none]
                refine ⟨⟨opened _ rfl, srv, ready.chosen.append _⟩, fun _ _ => ⟨⟨?_, ?_⟩,
                  fun _ _ => taken⟩⟩
                · exact (congrArg _ (List.append_assoc ..)).trans (opened _ rfl)
                · refine ⟨(ready.chosen.append _).append _, kind, ?_⟩
                  simp only [Monitor.recalling, List.append_assoc, List.filterMap_append,
                    ready.started]
                  rfl

/-- What a connection has done with the channels it was offered: each that was accepted has
its session, and they were taken in order, all of them unless there is an error.
-/
structure Channels (chans : List NewChannel) (past : List (ConnExchange S))
    (result : Except Bytes (Option ConnError)) : Prop where
  started : past.filterMap startedBy = past.filterMap acceptedBy
  accepted : past.filterMap acceptedBy <+: chans.filter (·.isSession)
  rejected : past.filterMap rejectedBy <+: chans.filter (!·.isSession)
  all : result = .ok none
    → past.filterMap acceptedBy = chans.filter (·.isSession)
      ∧ past.filterMap rejectedBy = chans.filter (!·.isSession)

/-- A connection that has taken no channel yet. -/
structure Idle (past : List (ConnExchange S)) : Prop where
  opened : past.countP isClose = 0
  started : past.filterMap startedBy = []
  accepted : past.filterMap acceptedBy = []
  rejected : past.filterMap rejectedBy = []

theorem Idle.channels (idle : Idle past) (chans : List NewChannel)
    {result : Except Bytes (Option ConnError)} (failed : result ≠ .ok none)
    : Channels chans past result := by
  refine ⟨idle.started.trans idle.accepted.symm, ?_, ?_, fun same => absurd same failed⟩
  · rw [idle.accepted]
    exact List.nil_prefix
  · rw [idle.rejected]
    exact List.nil_prefix

/-- A connection whose handshake succeeded, before it is closed. -/
structure Opened (chans : List NewChannel) (past : List (ConnExchange S))
    (result : Except Bytes (Option ConnError)) : Prop where
  opened : past.countP isClose = 0
  proved : ∃ user perms, Proved past user perms
  channels : Channels chans past result

section Login

variable {user : Bytes} {perms : Permissions} (chans : List NewChannel) (idle : Idle past)
  (proved : Proved past user perms)

include idle proved

theorem Idle.ends {result : Except Bytes (Option ConnError)} (failed : result ≠ .ok none)
    : Opened chans past result :=
  ⟨idle.opened, ⟨user, perms, proved⟩, idle.channels chans failed⟩

omit proved in
theorem serveChannels_proper (chosen : Chosen views past srv)
    : (Monitor.recalling (Proper views)).wp (serveChannels srv chans).run (Opened chans)
        past := by
  have ready : Ready views srv (past ++ [⟨.discardRequests, ()⟩]) :=
    Ready.beside ⟨idle.opened, chosen, idle.started.trans idle.accepted.symm⟩ rfl rfl rfl
  have looped := channelLoop_proper ready chans
  simp only [List.filterMap_append, idle.accepted, idle.rejected] at looped
  rw [serveChannels, Monitor.wp_ask_bind_run]
  refine ⟨⟨idle.opened, srv, chosen⟩, fun _ _ => ?_⟩
  refine Monitor.wp_mono looped fun later result took => ?_
  exact ⟨took.ready.opened, took.ready.proved, took.ready.started, took.accepted,
    took.rejected, took.all⟩

/-- What follows the answer of a callback. -/
theorem serveChosen_proper (answer : Except AuthError (Option S))
    (chosen : ∀ s, answer = .ok (some s) → Chosen views past (some s))
    : (Monitor.recalling (Proper views)).wp (serveChosen user chans answer).run (Opened chans)
        past := by
  cases answer with
  | error err => exact idle.ends chans proved nofun
  | ok srv =>
      cases srv with
      | none => exact idle.ends chans proved nofun
      | some srv => exact serveChannels_proper chans idle (chosen srv rfl)

end Login

/-- What follows the handshake. -/
theorem serveLogin_proper (user : Bytes) (perms : Permissions) (chans : List NewChannel)
    : (Monitor.recalling (Proper views)).wp (serveLogin views user perms chans).run
        (Opened chans) [⟨.newServerConn, .ok (.ok (user, perms))⟩] := by
  have asked (question : ConnCall S) (answer : question.Answer)
      (callback : question = .serverForLogin user perms ∨ question = .serverFor user)
      : Idle [⟨.newServerConn, .ok (.ok (user, perms))⟩, ⟨question, answer⟩] := by
    rcases callback with rfl | rfl <;> exact ⟨rfl, rfl, rfl, rfl⟩
  unfold serveLogin
  split
  · rename_i byLogin
    rw [Monitor.wp_bind_run]
    refine ⟨⟨rfl, rfl⟩, fun answer _ => ?_⟩
    have idle := asked _ answer (.inl rfl)
    cases answer with
    | error panic => exact idle.ends chans rfl nofun
    | ok answer =>
        refine serveChosen_proper chans idle rfl answer fun s same => ?_
        refine ⟨user, perms, rfl, ?_⟩
        rw [if_pos byLogin, same]
        exact ⟨s, rfl, by simp⟩
  rename_i byLogin
  split
  · rename_i byUser
    rw [Monitor.wp_bind_run]
    refine ⟨⟨rfl, perms, rfl⟩, fun answer _ => ?_⟩
    have idle := asked _ answer (.inr rfl)
    cases answer with
    | error panic => exact idle.ends chans rfl nofun
    | ok answer =>
        refine serveChosen_proper chans idle rfl answer fun s same => ?_
        refine ⟨user, perms, rfl, ?_⟩
        rw [if_neg byLogin, if_pos byUser, same]
        exact ⟨s, rfl, by simp⟩
  · rename_i byUser
    refine serveChannels_proper chans ⟨rfl, rfl, rfl, rfl⟩ ⟨user, perms, rfl, ?_⟩
    rw [if_neg byLogin, if_neg byUser]

/-- The end of a connection: no panic goes on, and it is closed once if its handshake
succeeded, and last.
-/
structure Ended (chans : List NewChannel) (past : List (ConnExchange S))
    (result : Except Bytes (Option ConnError)) : Prop where
  returns : ∃ err, result = .ok err
  closed : (∃ user perms, Proved past user perms) → past.countP isClose = 1
  unopened : (¬∃ user perms, Proved past user perms) → past.countP isClose = 0
  channels : Channels chans past result

theorem Opened.closing {chans : List NewChannel} {result : Except Bytes (Option ConnError)}
    (opened : Opened chans past result) (answer : ConnCall.close.Answer (S := S))
    {err : Option ConnError} (same : err = none → result = .ok none)
    : Ended chans (past ++ [⟨.close, answer⟩]) (.ok err) := by
  obtain ⟨user, perms, proved⟩ := opened.proved
  let last : ConnExchange S := ⟨.close, answer⟩
  have kept (f : ConnExchange S → Option NewChannel) (nothing : f last = none)
      : (past ++ [last]).filterMap f = past.filterMap f := by
    simp [nothing]
  have started := kept startedBy rfl
  have accepted := kept acceptedBy rfl
  have rejected := kept rejectedBy rfl
  refine ⟨⟨err, rfl⟩, fun _ => ?_, fun unproved => ?_, ?_⟩
  · rw [List.countP_append, opened.opened]
    rfl
  · exact absurd ⟨user, perms, proved.append _⟩ unproved
  · obtain ⟨each, sessions, others, all⟩ := opened.channels
    rw [← started, ← accepted] at each
    rw [← accepted] at sessions
    rw [← rejected] at others
    rw [← accepted, ← rejected] at all
    exact ⟨each, sessions, others, fun ended => all (same (Except.ok.inj ended))⟩

theorem handleConn_proper (views : Views S) (chans : List NewChannel)
    : (Monitor.recalling (Proper views)).wp (handleConn views chans).run (Ended chans) [] := by
  have failed {answer : ConnCall.newServerConn.Answer (S := S)} {err : ConnError}
      (unproved : ∀ user perms, answer ≠ .ok (.ok (user, perms)))
      : Ended chans [⟨.newServerConn, answer⟩] (.ok (some err)) := by
    refine ⟨⟨_, rfl⟩, fun ⟨user, perms, proved⟩ => ?_, fun _ => rfl,
      Idle.channels ⟨rfl, rfl, rfl, rfl⟩ chans nofun⟩
    cases proved
    exact absurd rfl (unproved user perms)
  rw [handleConn, Monitor.wp_recovering, Monitor.wp_bind_run]
  refine ⟨⟨rfl, rfl⟩, fun answer _ => ?_⟩
  cases answer with
  | error panic => exact failed nofun
  | ok answer =>
      cases answer with
      | error err => exact failed nofun
      | ok login =>
          obtain ⟨user, perms⟩ := login
          refine (Monitor.wp_deferring ..).mpr ?_
          refine Monitor.wp_mono (serveLogin_proper user perms chans) fun past result opened => ?_
          refine ⟨⟨opened.opened, opened.proved⟩, fun answer _ => ?_⟩
          cases answer with
          | error panic => exact opened.closing _ nofun
          | ok value =>
              cases result with
              | error panic => exact opened.closing _ nofun
              | ok err => exact opened.closing _ (congrArg Except.ok)

/-- Whatever panics and whatever a client opens, a connection keeps to its rules at every
point: one handshake; a callback is asked about the login that the handshake proved; each
session is started for a session channel that was accepted, with the server that was chosen for
that login; nothing happens after it is closed. And it ends without a panic, closed once if the
handshake succeeded, with a session for each channel that it accepted, and every channel that
was opened accepted or rejected unless it returns an error.
-/
theorem connection_keeps_rules (views : Views S) (chans : List NewChannel)
    {trace : List (ConnExchange S)} {rest : ConnRest S}
    (leaves : (handleConn views chans).run.Leaves trace rest)
    : (∀ before question answer after, trace = before ++ ⟨question, answer⟩ :: after
        → Proper views before question)
      ∧ ∀ result, rest = .ret result → Ended chans trace result := by
  obtain ⟨proper, onwards⟩ := Monitor.recalling_leaves (handleConn_proper views chans) leaves
  refine ⟨proper, fun result ended => ?_⟩
  subst ended
  exact onwards

/-- One more call of a connection. -/
theorem ConnCall.answered {program : ConnRest S} {trace : List (ConnExchange S)}
    (question : ConnCall S) {next : question.Answer → ConnRest S} (answer : question.Answer)
    (before : program.Leaves trace (.ask question next))
    : program.Leaves (trace ++ [⟨question, answer⟩]) (next answer) :=
  before.step answer

end Connection

/-- A client proves who it is and opens two channels; accepting the second
panics. -/
theorem connection_keeps_rules_panicking
    : let session : NewChannel := ⟨text "session", []⟩
      let views : Views Unit := ⟨some (), false, false⟩
      ∃ trace, (handleConn views [session, session]).run.Leaves trace
          (.ret (.ok (some (.panicked (text "dead")))))
        ∧ trace.filterMap startedBy = [session]
        ∧ trace.countP isClose = 1 := by
  intro session views
  have shaken : (handleConn views [session, session]).run.Leaves _ _ :=
    ConnCall.newServerConn.answered (.ok (.ok (text "user", {}))) .start
  have listens := ConnCall.discardRequests.answered () shaken
  have accepted := (ConnCall.acceptChannel session).answered (.ok (.ok ())) listens
  have counted := ConnCall.addSession.answered () accepted
  have started := (ConnCall.startSession (some ()) session).answered () counted
  have dead := (ConnCall.acceptChannel session).answered (.error (text "dead")) started
  have closed := ConnCall.close.answered (.ok ()) dead
  have ended := (connection_keeps_rules views [session, session] closed).2 _ rfl
  exact ⟨_, closed, rfl, ended.closed ⟨text "user", {}, rfl⟩⟩

end SftpServer.Sshd
