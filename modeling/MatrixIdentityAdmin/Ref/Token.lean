import MatrixIdentityAdmin.Lib.Prog
import MatrixIdentityAdmin.Ref.Models

/-!
# The admin token of `clients/keycloak.rs`

All requests of a `KeycloakClient` go through `send_admin_request` and share
one slot for a token behind a mutex. Here the mutex, the slot, the clock and
the network are what is asked of the outside; sending a request and getting
its answer are two moments, because other tasks run in between.
-/

namespace MatrixIdentityAdmin.Ref

open MatrixIdentityAdmin.Lib

namespace KeycloakClient

/-- `CachedToken`. An `Instant` is a number of nanoseconds. -/
structure CachedToken where
  accessToken : String
  expiresAt : Nat
deriving DecidableEq, Repr

/-- `TokenResponse`. -/
structure TokenResponse where
  accessToken : String
  expiresIn : UInt64
deriving DecidableEq, Repr

/-- `reqwest::Response`. -/
structure Response where
  status : UInt16
  body : String
deriving DecidableEq, Repr

/-- What a task does to the cached token and over the wire. -/
inductive TokenCall where
  | lock
  | unlock
  | readCache
  | store (token : Option CachedToken)
  | now
  | requestToken
  | tokenResponse
  | send (token : String)
  | response
deriving DecidableEq, Repr

abbrev TokenCall.Answer : TokenCall → Type
  | .readCache => Option CachedToken
  | .now => Nat
  | .tokenResponse => Except AppError TokenResponse
  | .response => Except AppError Response
  | .lock | .unlock | .store _ | .requestToken | .send _ => Unit

abbrev Task (α : Type) : Type := Prog TokenCall TokenCall.Answer α

def call (c : TokenCall) : Task c.Answer := Prog.send c

def unauthorized : UInt16 := 401

/-- `Duration::from_secs`. -/
def fromSecs (n : Nat) : Nat := n * 1000000000

/-- When a token that came at `now` is to be used no more. The sum of an
`Instant` and a `Duration` panics where it does not fit; the task is gone then
as when it is dropped. -/
def expiry (resp : TokenResponse) (now : Nat) : Nat :=
  now + fromSecs (resp.expiresIn.toNat - 30)

/-- Fetch a new token, with the slot locked. The guard goes out of scope at
every return. -/
def fetchToken : Task (Except AppError String) := do
  call .requestToken
  match ← call .tokenResponse with
  | .error e => do
      call .unlock
      return .error e
  | .ok resp => do
      let now ← call .now
      call (.store (some ⟨resp.accessToken, expiry resp now⟩))
      call .unlock
      return .ok resp.accessToken

/-- `KeycloakClient::admin_token`. -/
def adminToken : Task (Except AppError String) := do
  call .lock
  match ← call .readCache with
  | some cached => do
      let now ← call .now
      if cached.expiresAt > now then do
        call .unlock
        return .ok cached.accessToken
      else fetchToken
  | none => fetchToken

/-- `KeycloakClient::clear_cached_token`. -/
def clearCachedToken : Task Unit := do
  call .lock
  call (.store none)
  call .unlock

/-- `KeycloakClient::send_admin_request_once`. -/
def sendAdminRequestOnce : Task (Except AppError Response) :=
  adminToken.andThen fun token => do
    call (.send token)
    call .response

/-- `KeycloakClient::send_admin_request`. -/
def sendAdminRequest : Task (Except AppError Response) :=
  sendAdminRequestOnce.andThen fun response =>
    if response.status ≠ unauthorized then return .ok response
    else do
      clearCachedToken
      sendAdminRequestOnce

end KeycloakClient

end MatrixIdentityAdmin.Ref
