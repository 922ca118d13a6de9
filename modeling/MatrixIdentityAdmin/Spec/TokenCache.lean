import MatrixIdentityAdmin.Lib.Interleave
import MatrixIdentityAdmin.Ref.Token

/-!
# Many tasks, one token

The slot and its mutex, as any number of tasks use them, and the history of
everything they did. What a request with an admin token may rely on is stated
about that history: how often it was sent, what came between the refusal of
the first and the second, and how old a token from the slot may be.
-/

namespace MatrixIdentityAdmin.Ref.KeycloakClient

open MatrixIdentityAdmin.Lib

abbrev Act : Type := Event TokenCall TokenCall.Answer

variable {ι : Type} [DecidableEq ι]

/-- What the task `i` did. -/
def own (i : ι) (log : List (ι × Act)) : List Act :=
  (log.filter fun p => p.1 = i).map Prod.snd

def TokenCall.isSend : TokenCall → Bool
  | .send _ => true
  | _ => false

/-- How often the task `i` sent its request. -/
def sends (i : ι) (log : List (ι × Act)) : Nat :=
  (calls (own i log)).countP TokenCall.isSend

/-- The token came from the token endpoint as the `n`-th event or later. -/
def RespondedAfter (n : Nat) (log : List (ι × Act)) (token : String) : Prop :=
  ∃ (j : ι) (resp : TokenResponse),
    (j, (⟨.tokenResponse, .ok resp⟩ : Act)) ∈ log.drop n ∧
      resp.accessToken = token

/-- The token was fetched and put into the slot by some task, to be used for as
long as its expiry less the margin says. -/
def Fetched (log : List (ι × Act)) (cached : CachedToken) : Prop :=
  ∃ (j : ι) (resp : TokenResponse) (now : Nat),
    [⟨.tokenResponse, .ok resp⟩, ⟨.now, now⟩, ⟨.store (some cached), ()⟩] <:+:
      own j log ∧ cached = ⟨resp.accessToken, expiry resp now⟩

/-- A first request may be sent with any token. A second one may be sent when
the first was answered with 401, with a token that arrived after that. -/
def MaySend (i : ι) (log : List (ι × Act)) (token : String) : Prop :=
  sends i log = 0 ∨
    ∃ before after response,
      log = before ++ (i, ⟨.response, .ok response⟩) :: after ∧
      response.status = unauthorized ∧ sends i before = 1 ∧ sends i after = 0 ∧
      RespondedAfter 0 after token

/-- What the task with these acts has just been handed: the token it fetched, or
the one it read from the slot when, by the clock it read next, that was still
good for as long as it was fetched for. -/
def Handed (acts : List Act) (log : List (ι × Act)) (token : String) : Prop :=
  (∃ resp now, resp.accessToken = token ∧
    [⟨.tokenResponse, .ok resp⟩, ⟨.now, now⟩,
      ⟨.store (some ⟨resp.accessToken, expiry resp now⟩), ()⟩, ⟨.unlock, ()⟩] <:+
      acts) ∨
  ∃ cached now, cached.accessToken = token ∧ now < cached.expiresAt ∧
    Fetched log cached ∧
    [⟨.readCache, some cached⟩, ⟨.now, now⟩, ⟨.unlock, ()⟩] <:+ acts

/-- What a task may do next. -/
def Gate (i : ι) (log : List (ι × Act)) : TokenCall → Prop
  | .send token => MaySend i log token ∧ Handed (own i log) log token
  | _ => True

/-- The holder of the mutex is kept with how long the history was when it got
it. -/
structure Slot (ι : Type) where
  holder : Option (ι × Nat)
  cache : Option CachedToken
  clock : Nat
  log : List (ι × Act)

namespace Slot

/-- `KeycloakClient::new`, at some time. -/
def new (clock : Nat) : Slot ι := ⟨none, none, clock, []⟩

def record (s : Slot ι) (i : ι) (e : Act) : Slot ι :=
  { s with log := s.log ++ [(i, e)] }

def step (i : ι) (s : Slot ι) : (c : TokenCall) → c.Answer → Slot ι → Prop
  | .lock => fun x s' => s.holder = none ∧
      s' = { s.record i ⟨.lock, x⟩ with holder := some (i, s.log.length) }
  | .unlock => fun x s' => s' = { s.record i ⟨.unlock, x⟩ with holder := none }
  | .readCache => fun x s' => x = s.cache ∧ s' = s.record i ⟨.readCache, x⟩
  | .store token => fun x s' =>
      s' = { s.record i ⟨.store token, x⟩ with cache := token }
  | .now => fun x s' => s.clock ≤ x ∧
      s' = { s.record i ⟨.now, x⟩ with clock := x }
  | .requestToken => fun x s' => s' = s.record i ⟨.requestToken, x⟩
  | .tokenResponse => fun x s' => s' = s.record i ⟨.tokenResponse, x⟩
  | .send token => fun x s' => s' = s.record i ⟨.send token, x⟩
  | .response => fun x s' => s' = s.record i ⟨.response, x⟩

/-- A task that is dropped lets go of the mutex. -/
def release (i : ι) (s : Slot ι) : Slot ι :=
  match s.holder with
  | some (j, _) => if j = i then { s with holder := none } else s
  | none => s

end Slot

/-- Any task, any answer from the network, any pace of the clock. -/
def tasks : Shared ι TokenCall TokenCall.Answer (Slot ι) where
  step := Slot.step
  drop i s s' := s' = s.release i

end MatrixIdentityAdmin.Ref.KeycloakClient
