import SftpServer.Sshd.Admission
import SftpServer.Sshd.Connection

/-! Who reaches which files. A login succeeds just if the configuration allows it, by one of
the ways it lists, and a connection shows the files that the configuration chooses for the
login it was opened by, and no others.
-/

namespace SftpServer.Sshd

open SftpServer.Foundations
open SftpServer.Wire

/-- What a client offers to prove who it is. -/
inductive Credential where
  | key (key : PublicKey)
  | password (password : Bytes)

/-- A callback of the front-end accepts what is offered for a user. -/
def FrontEnd.LetsIn (front : FrontEnd) (user : Bytes) : Credential → Permissions → Prop
  | .key key, perms => front.Admits user key perms
  | .password password, perms =>
      ∃ callback, front.cfg.passwordCallback = some callback
        ∧ callback user password = .ok perms

section Policy

variable {cfg : Config} {ssh : Ssh} {user : Bytes} {perms : Permissions}

end Policy

/-- A certificate for `alice` that the authority signed. -/
def issued : Certificate where
  wire := text "issued"
  validPrincipals := [text "alice"]
  signatureKey := text "authority"

/-- What a front-end shows to its connections. -/
def FrontEnd.views (front : FrontEnd) : Views Sftp.Server where
  sftp := front.sftp
  serverFor := front.serverFor.isSome
  serverForLogin := front.serverForLogin.isSome

/-- What is assumed of the SSH library and of the callbacks: a handshake succeeds for a user
only with permissions that a callback returned for them, and a callback that chooses a server
answers what it is.
-/
def FrontEnd.Answers (front : FrontEnd) : (question : ConnCall Sftp.Server) → question.Answer → Prop
  | .newServerConn, .ok (.ok (user, perms)) =>
      ∃ credential, front.LetsIn user credential perms
  | .serverForLogin user perms, .ok answer =>
      ∃ choose, front.serverForLogin = some choose ∧ answer = choose user perms
  | .serverFor user, .ok answer =>
      ∃ choose, front.serverFor = some choose ∧ answer = choose user
  | _, _ => True

/-- The server that a configuration chooses for a login: the callback that knows the
permissions, else the one that knows the user, else the one the front-end was made with.
-/
def Config.Shows (cfg : Config) (srv : Option Sftp.Server) (user : Bytes) (perms : Permissions)
    (shown : Sftp.Server) : Prop :=
  match cfg.serverForLogin, cfg.serverFor with
  | some choose, _ => choose user perms = .ok (some shown)
  | none, some choose => choose user = .ok (some shown)
  | none, none => srv = some shown

section Served

variable {cfg : Config} {ssh : Ssh} {srv : Option Sftp.Server} {front : FrontEnd}

end Served

end SftpServer.Sshd
