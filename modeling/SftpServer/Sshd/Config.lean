import SftpServer.Sftp.Handles
import SftpServer.Sshd.Certificates

/-! The policy of the SSH front-end (`sshd.Config`) and what `sshd.New` makes of it: which
logins are offered, and how a key or certificate that a client offers is judged.
-/

namespace SftpServer.Sshd

open SftpServer.Foundations
open SftpServer.Wire

/-- A policy. A function that may be nil is an `Option`, and a user is a name. Of a host key
only that it is there is used.
-/
structure Config where
  hostKeys : List PublicKey := []
  authorizedKeys : List PublicKey := []
  publicKeyFor : Option (Bytes → PublicKey → Bool) := none
  trustedUserCAs : List PublicKey := []
  certificateFor : Option (Bytes → Certificate → Except AuthError (Option Permissions)) := none
  password : Option (Bytes → Bytes → Bool) := none
  serverFor : Option (Bytes → Except AuthError (Option Sftp.Server)) := none
  serverForLogin : Option (Bytes → Permissions → Except AuthError (Option Sftp.Server)) := none
  banner : Bytes := []

/-- Put the certificate's source-address, if it has one, into the permissions it is enforced
from, whatever the callback returned.
-/
def withSourceAddress (cert : Certificate) (perms : Permissions)
    : Except AuthError Permissions :=
  match cert.permissions.criticalOptions.lookup sourceAddress with
  | none => .ok perms
  | some want =>
      let out :=
        { perms with criticalOptions := perms.criticalOptions.insert sourceAddress want }
      match perms.criticalOptions.lookup sourceAddress with
      | none => .ok out
      | some got => if got ≠ want then .error (.sourceAddress got want) else .ok out

/-- A certificate that no trusted authority signed: checked as far as it can be without
trusting its signer, and then the caller's to decide.
-/
def selfSigned (ssh : Ssh) (user : Bytes) (cert : Certificate)
    (decide : Bytes → Certificate → Except AuthError (Option Permissions))
    : Except AuthError Permissions :=
  if cert.certType ≠ userCert then
    .error (.message (text "sshd: a host certificate offered as a user's"))
  else do
    let checker : CertChecker := { supportedCriticalOptions := [sourceAddress] }
    ssh.checkCert checker user cert
    let perms ← decide user cert
    withSourceAddress cert (perms.getD {})

def notAuthorized : AuthError := .message (text "sshd: public key not authorized")

namespace Config

/-- The authorised set, by the keys' full wire form. -/
def allowed (cfg : Config) : List Bytes := cfg.authorizedKeys.map PublicKey.marshal

/-- The trusted authorities, by their wire form. -/
def trusted (cfg : Config) : List Bytes := cfg.trustedUserCAs.map PublicKey.marshal

def byKey (cfg : Config) (user : Bytes) (key : PublicKey) : Except AuthError Permissions :=
  if cfg.publicKeyFor.any fun admits => admits user key then .ok {}
  else if cfg.allowed.contains key.marshal then .ok {}
  else .error notAuthorized

/-- Whether there is any way in by a key. -/
def keys (cfg : Config) : Bool := !cfg.authorizedKeys.isEmpty || cfg.publicKeyFor.isSome

def checker (cfg : Config) : Option CertChecker :=
  if cfg.trustedUserCAs.isEmpty then none
  else
    some
      {
        isUserAuthority := cfg.trusted.contains
        userKeyFallback := if cfg.keys then some cfg.byKey else none
      }

/-- The switch of the public-key callback: the checker if there is one, else the keys. -/
def byChecker (cfg : Config) (ssh : Ssh) (user : Bytes) (key : PublicKey)
    : Except AuthError Permissions :=
  match cfg.checker with
  | some checker => ssh.authenticate checker user key
  | none => if cfg.keys then cfg.byKey user key else .error notAuthorized

/-- The public-key callback. -/
def publicKey (cfg : Config) (ssh : Ssh) (user : Bytes) (key : PublicKey)
    : Except AuthError Permissions :=
  match key, cfg.certificateFor with
  | .certificate cert, some decide =>
      if cfg.trusted.contains cert.signatureKey then cfg.byChecker ssh user key
      else selfSigned ssh user cert decide
  | _, _ => cfg.byChecker ssh user key

end Config

/-- `ssh.ServerConfig`: the methods that are offered. -/
structure ServerConfig where
  publicKeyCallback : Option (Bytes → PublicKey → Except AuthError Permissions)
  passwordCallback : Option (Bytes → Bytes → Except AuthError Permissions)
  bannerCallback : Option Bytes
  hostKeys : List PublicKey

/-- The front-end, `sshd.Server`, as it is made. -/
structure FrontEnd where
  sftp : Option Sftp.Server
  serverFor : Option (Bytes → Except AuthError (Option Sftp.Server))
  serverForLogin : Option (Bytes → Permissions → Except AuthError (Option Sftp.Server))
  cfg : ServerConfig

inductive NewError where
  | errNilServer
  | errNoHostKey
  | errNoAuthorizedKeys
  deriving DecidableEq, Repr

/-- `sshd.New`. -/
def new (ssh : Ssh) (srv : Option Sftp.Server) (cfg : Config)
    : Except NewError FrontEnd :=
  if srv.isNone ∧ cfg.serverFor.isNone ∧ cfg.serverForLogin.isNone then
    .error .errNilServer
  else if cfg.hostKeys = [] then
    .error .errNoHostKey
  else if cfg.authorizedKeys = [] ∧ cfg.password.isNone ∧ cfg.publicKeyFor.isNone
      ∧ cfg.trustedUserCAs = [] ∧ cfg.certificateFor.isNone then
    .error .errNoAuthorizedKeys
  else
    .ok
      {
        sftp := srv
        serverFor := cfg.serverFor
        serverForLogin := cfg.serverForLogin
        cfg :=
          {
            -- Only the methods that can succeed are offered.
            publicKeyCallback :=
              if cfg.checker.isSome || cfg.keys || cfg.certificateFor.isSome then
                some (cfg.publicKey ssh)
              else none
            passwordCallback := cfg.password.map fun verify user password =>
              if !verify user password then
                .error (.message (text "sshd: password not accepted"))
              else .ok {}
            bannerCallback := if cfg.banner ≠ [] then some cfg.banner else none
            hostKeys := cfg.hostKeys
          }
      }

end SftpServer.Sshd
