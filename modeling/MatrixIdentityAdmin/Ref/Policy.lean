import MatrixIdentityAdmin.Ref.Calls

/-!
# `db/policy.rs`, `services/policy_service.rs`

The policy store, down to its SQL. A statement is what reaches the database
and comes back with a `Result`; drawing an id and reading the clock are asked
of the outside too, and do not fail. The functions of `db::policy` are one
statement each, those of `PolicyService` are put together from them and from
`AuditService::log`, which is one statement as well.
-/

namespace MatrixIdentityAdmin.Ref

open MatrixIdentityAdmin.Lib

/-- The columns of `policy_bindings`. -/
structure BindingRow where
  id : String
  subjectType : String
  subjectValue : String
  targetType : String
  targetRoomId : String
  powerLevel : Option Int
  allowRemove : Bool
  createdAt : String
  updatedAt : String
deriving DecidableEq, Repr

/-- `From<BindingRow>`. -/
def BindingRow.toBinding (r : BindingRow) : PolicyBinding where
  id := r.id
  subject :=
    if r.subjectType = "role" then .role r.subjectValue
    else .group r.subjectValue
  target :=
    if r.targetType = "space" then .space r.targetRoomId
    else .room r.targetRoomId
  powerLevel := r.powerLevel
  allowRemove := r.allowRemove
  createdAt := r.createdAt
  updatedAt := r.updatedAt

/-- `models::policy_binding::CachedRoom`, and the columns of
`policy_targets_cache`. -/
structure CachedRoom where
  roomId : String
  name : Option String
  canonicalAlias : Option String
  parentSpaceId : Option String
  isSpace : Bool
  lastSeenAt : String
deriving DecidableEq, Repr

/-- `models::group_mapping::GroupMapping`. -/
structure GroupMapping where
  keycloakGroup : String
  matrixRoomId : String
deriving DecidableEq, Repr

/-- The statements of `db::policy`, and the insert of `db::audit`. -/
inductive Statement where
  | selectBindings
  | insertBinding (row : BindingRow)
  | updateBinding (id : String) (powerLevel : Option Int) (allowRemove : Bool)
      (updatedAt : String)
  | deleteBinding (id : String)
  | countBootstrap
  | replaceBootstrap (source bootstrappedAt : String)
  | upsertCachedRoom (room : CachedRoom)
  | insertAudit (entry : AuditEntry)
deriving DecidableEq, Repr

/-- The rows of a query, or how many rows were affected where that is read. -/
abbrev Statement.Ret : Statement → Type
  | .selectBindings => List BindingRow
  | .updateBinding .. | .deleteBinding _ | .countBootstrap => Nat
  | .insertBinding _ | .replaceBootstrap .. | .upsertCachedRoom _
  | .insertAudit _ => Unit

/-- A statement, or what a row is stamped with. -/
inductive StoreCall where
  | sql (s : Statement)
  | newUuid
  | now
deriving DecidableEq, Repr

abbrev StoreCall.Answer : StoreCall → Type
  | .sql s => Result s.Ret
  | .newUuid | .now => String

/-- An `async fn` over the pool. -/
abbrev Store (α : Type) : Type := Prog StoreCall StoreCall.Answer α

namespace Store

def sql (s : Statement) : Store (Result s.Ret) := Prog.send (StoreCall.sql s)

/-- `uuid::Uuid::new_v4().to_string()`. -/
def newUuid : Store String := Prog.send StoreCall.newUuid

/-- `chrono::Utc::now().to_rfc3339()`. -/
def now : Store String := Prog.send StoreCall.now

end Store

open Store

namespace PolicyDb

/-- `db::policy::list_bindings`. -/
def listBindings : Store (Result (List PolicyBinding)) :=
  (sql .selectBindings).andThen fun rows =>
    return .ok (rows.map BindingRow.toBinding)

/-- `db::policy::create_binding`. -/
def createBinding (id subjectType subjectValue targetType targetRoomId : String)
    (powerLevel : Option Int) (allowRemove : Bool) (now : String) :
    Store (Result Unit) :=
  sql (.insertBinding ⟨id, subjectType, subjectValue, targetType, targetRoomId,
    powerLevel, allowRemove, now, now⟩)

/-- `db::policy::update_binding`. -/
def updateBinding (id : String) (powerLevel : Option Int) (allowRemove : Bool)
    (now : String) : Store (Result Bool) :=
  (sql (.updateBinding id powerLevel allowRemove now)).andThen
    fun rowsAffected => return .ok (decide (rowsAffected > 0))

/-- `db::policy::delete_binding`. -/
def deleteBinding (id : String) : Store (Result Bool) :=
  (sql (.deleteBinding id)).andThen
    fun rowsAffected => return .ok (decide (rowsAffected > 0))

/-- `db::policy::has_bootstrapped`. -/
def hasBootstrapped : Store (Result Bool) :=
  (sql .countBootstrap).andThen fun count => return .ok (decide (count > 0))

/-- `db::policy::mark_bootstrapped`. -/
def markBootstrapped (source now : String) : Store (Result Unit) :=
  sql (.replaceBootstrap source now)

end PolicyDb

namespace PolicyService

/-- The audit row of a policy change: no user is its target, and it is written
after the change went through. -/
def policyEntry (actorSubject actorUsername action : String)
    (metadata : List (String × MetaValue)) : AuditEntry where
  adminSubject := actorSubject
  adminUsername := actorUsername
  targetKeycloakUserId := none
  targetMatrixUserId := none
  action := action
  result := .success
  metadata := metadata

/-- `serde_json` of an `Option<i64>`. -/
def powerLevelJson : Option Int → MetaValue
  | some level => .int level
  | none => .null

/-- `PolicyService::list_bindings`. -/
def listBindings : Store (Result (List PolicyBinding)) := PolicyDb.listBindings

section

variable (actorSubject actorUsername : String)

def createEntry (subject : PolicySubject) (target : PolicyTarget)
    (powerLevel : Option Int) (allowRemove : Bool) (id : String) : AuditEntry :=
  policyEntry actorSubject actorUsername "create_policy_binding"
    [("binding_id", .str id), ("subject", .str (toString subject)),
      ("target_room_id", .str target.roomId),
      ("power_level", powerLevelJson powerLevel),
      ("allow_remove", .bool allowRemove)]

def updateEntry (id : String) (powerLevel : Option Int) (allowRemove : Bool) :
    AuditEntry :=
  policyEntry actorSubject actorUsername "update_policy_binding"
    [("binding_id", .str id), ("power_level", powerLevelJson powerLevel),
      ("allow_remove", .bool allowRemove)]

def deleteEntry (id : String) : AuditEntry :=
  policyEntry actorSubject actorUsername "delete_policy_binding"
    [("binding_id", .str id)]

/-- `PolicyService::create_binding`. -/
def createBinding (subject : PolicySubject) (target : PolicyTarget)
    (powerLevel : Option Int) (allowRemove : Bool) :
    Store (Result PolicyBinding) := do
  let id ← newUuid
  let now ← now
  (PolicyDb.createBinding id subject.subjectType subject.value
    target.targetType target.roomId powerLevel allowRemove now).andThen fun _ =>
      (sql (.insertAudit (createEntry actorSubject actorUsername subject target
        powerLevel allowRemove id))).andThen fun _ =>
          return .ok ⟨id, subject, target, powerLevel, allowRemove, now, now⟩

/-- `PolicyService::update_binding`. -/
def updateBinding (id : String) (powerLevel : Option Int) (allowRemove : Bool) :
    Store (Result Bool) := do
  let now ← now
  (PolicyDb.updateBinding id powerLevel allowRemove now).andThen fun updated =>
    if updated then
      (sql (.insertAudit (updateEntry actorSubject actorUsername id powerLevel
        allowRemove))).andThen fun _ => return .ok updated
    else
      return .ok updated

/-- `PolicyService::delete_binding`. -/
def deleteBinding (id : String) : Store (Result Bool) :=
  (PolicyDb.deleteBinding id).andThen fun deleted =>
    if deleted then
      (sql (.insertAudit (deleteEntry actorSubject actorUsername id))).andThen
        fun _ => return .ok deleted
    else
      return .ok deleted

end

/-- One round of the loop of `bootstrap_from_env`: a mapping whose insert
fails, for whatever reason, is passed over. -/
def importMapping (now : String) (count : Nat) (mapping : GroupMapping) :
    Store Nat := do
  let id ← newUuid
  let result ← PolicyDb.createBinding id "group" mapping.keycloakGroup "room"
    mapping.matrixRoomId none false now
  return if result.isOk then count + 1 else count

/-- `PolicyService::bootstrap_from_env`. -/
def bootstrapFromEnv (mappings : List GroupMapping) (source : String) :
    Store (Result Nat) :=
  PolicyDb.hasBootstrapped.andThen fun bootstrapped => do
    if bootstrapped then
      return .ok 0
    else
      let now ← now
      let count ← mappings.foldlM (importMapping now) 0
      (PolicyDb.markBootstrapped source now).andThen fun _ => return .ok count

end PolicyService

end MatrixIdentityAdmin.Ref
