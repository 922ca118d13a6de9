import MatrixIdentityAdmin.Ref.App

/-!
# `handlers/policy.rs`

The handlers that change the policy, from the text of their forms on. To fill
the cache of rooms is to page through Synapse until it names no next page,
which nothing on this side guarantees; that loop runs on explicit fuel.
-/

namespace MatrixIdentityAdmin.Ref

open MatrixIdentityAdmin.Lib

/-- `str::parse::<i64>`. -/
def Text.parseI64 (s : String) : Option Int :=
  let value (digits : List Char) : Option Int :=
    if digits.isEmpty || !digits.all Text.isAsciiDigit then none
    else some (digits.foldl (fun n d => 10 * n + (d.toNat - 48)) 0)
  let checked (n : Int) : Option Int :=
    if Int64.minValue.toInt ≤ n ∧ n ≤ Int64.maxValue.toInt then some n else none
  match s.toList with
  | '-' :: digits => (value digits).bind fun n => checked (-n)
  | '+' :: digits => (value digits).bind checked
  | digits => (value digits).bind checked

namespace PolicyHandlers

/-- `parse_optional_power_level`. -/
def parseOptionalPowerLevel : Option String → Result (Option Int)
  | none => .ok none
  | some raw =>
      let trimmed := Text.trim raw
      if trimmed.toList.isEmpty then .ok none
      else
        match Text.parseI64 trimmed with
        | some level => .ok (some level)
        | none => .error (.validation "Invalid power level")

/-- `CreateBindingForm`. -/
structure CreateBindingForm where
  csrf : String
  subjectType : String
  subjectValue : String
  targetType : String
  targetRoomId : String
  powerLevel : Option String
  allowRemove : Option String
deriving DecidableEq, Repr

/-- `UpdateBindingForm`. -/
structure UpdateBindingForm where
  csrf : String
  powerLevel : Option String
  allowRemove : Option String
deriving DecidableEq, Repr

namespace CreateBindingForm

variable (form : CreateBindingForm)

def subject : Result PolicySubject :=
  if form.subjectType = "group" then .ok (.group form.subjectValue)
  else if form.subjectType = "role" then .ok (.role form.subjectValue)
  else .error (.validation "Invalid subject type")

def target : Result PolicyTarget :=
  if form.targetType = "room" then .ok (.room form.targetRoomId)
  else if form.targetType = "space" then .ok (.space form.targetRoomId)
  else .error (.validation "Invalid target type")

end CreateBindingForm

/-- Where `update` and `delete` go. -/
def changeRedirect (done : String) (changed : Bool) : String :=
  if changed then s!"/policy?notice={pctEncode done}"
  else
    let warning := pctEncode "Binding not found"
    s!"/policy?warning={warning}"

section

variable (admin : Admin)

/-- `handlers::policy::create`. -/
def create (form : CreateBindingForm) : Store (Result String) :=
  admin.checked form.csrf <|
    match form.subject with
    | .error e => return .error e
    | .ok subject =>
        match form.target with
        | .error e => return .error e
        | .ok target =>
            match parseOptionalPowerLevel form.powerLevel with
            | .error e => return .error e
            | .ok powerLevel =>
                (PolicyService.createBinding admin.subject admin.username subject
                  target powerLevel form.allowRemove.isSome).andThen fun _ =>
                    let notice := pctEncode "Binding created"
                    return .ok s!"/policy?notice={notice}"

/-- `handlers::policy::update`. -/
def update (id : String) (form : UpdateBindingForm) : Store (Result String) :=
  admin.checked form.csrf <|
    match parseOptionalPowerLevel form.powerLevel with
    | .error e => return .error e
    | .ok powerLevel =>
        (PolicyService.updateBinding admin.subject admin.username id powerLevel
          form.allowRemove.isSome).andThen fun updated =>
            return .ok (changeRedirect "Binding updated" updated)

/-- `handlers::policy::delete`. -/
def delete (id csrf : String) : Store (Result String) :=
  admin.checked csrf <|
    (PolicyService.deleteBinding admin.subject admin.username id).andThen
      fun deleted => return .ok (changeRedirect "Binding deleted" deleted)

end

/-! ## The cache of rooms -/

open App

/-- One round of the inner loop of `refresh_room_cache`, which an error ends. A
failed lookup of the children makes it a room. -/
def cacheRoom (now : String) (acc : Result Nat) (entry : RoomListEntry) :
    Handler (Result Nat) :=
  match acc with
  | .error e => return .error e
  | .ok count => do
      let children ← service (Synapse.getSpaceChildren entry.roomId)
      let isSpace := match children with
        | .ok c => !c.isEmpty
        | .error _ => false
      let cached : CachedRoom :=
        ⟨entry.roomId, entry.name, entry.canonicalAlias, none, isSpace, now⟩
      (store (Store.sql (.upsertCachedRoom cached))).andThen fun _ =>
        return .ok (count + 1)

/-- Its paging loop. -/
def cachePages (now : String) : Nat → Option String → Nat →
    Handler (Option (Result Nat))
  | 0, _, _ => return none
  | fuel + 1, start, count => do
      match ← listRooms 100 start with
      | .error e => return some (.error e)
      | .ok page =>
          match ← page.rooms.foldlM (cacheRoom now) (.ok count) with
          | .error e => return some (.error e)
          | .ok count =>
              match page.nextBatch with
              | some token => cachePages now fuel (some token) count
              | none => return some (.ok count)

/-- `PolicyService::refresh_room_cache`. -/
def refreshRoomCache (fuel : Nat) : Handler (Option (Result Nat)) := do
  let now ← store Store.now
  cachePages now fuel none 0

/-- `handlers::policy::refresh_rooms`. -/
def refreshRooms (state : AppState) (admin : Admin) (fuel : Nat) (csrf : String) :
    Handler (Option (Result String)) :=
  match validate admin.csrfToken csrf with
  | .error e => return some (.error e)
  | .ok () =>
      if !state.synapse then
        return some (.error (.notFound "Synapse is not configured"))
      else do
        match ← refreshRoomCache fuel with
        | none => return none
        | some (.error e) => return some (.error e)
        | some (.ok count) =>
            let notice := pctEncode s!"Refreshed {count} rooms from Synapse"
            return some (.ok s!"/policy?notice={notice}")

end PolicyHandlers

end MatrixIdentityAdmin.Ref
