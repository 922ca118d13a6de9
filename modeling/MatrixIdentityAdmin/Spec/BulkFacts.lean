import MatrixIdentityAdmin.Ref.Handlers
import MatrixIdentityAdmin.Spec.Touches

/-!
# Acting on facts that were not read

The bulk request goes on without the roles of a record when it cannot read
them. What the reconciliation then does is still a function of the world, and
`Misled` is the one way it can go wrong: the groups leave the user in a room,
and the first binding that would remove them from it is for a role they hold.

A whole bulk request is read back from its calls: the record whose groups were
asked for last is the one being reconciled, and the world its groups were
asked in is the state its reconciliation starts from.
-/

namespace MatrixIdentityAdmin.Ref

open MatrixIdentityAdmin.Lib

/-! ## One record -/

/-- A subject that is held or not with the roles, whatever the groups. -/
def PolicySubject.isRole : PolicySubject → Bool
  | .group _ => false
  | .role _ => true

namespace World

variable (w : World)

def groupBindings : List PolicyBinding :=
  w.listed.filter fun b => !b.subject.isRole

def roleBindings : List PolicyBinding :=
  w.listed.filter fun b => b.subject.isRole

/-- Is the user in the room once the group bindings have been gone through? -/
def afterGroups (m : String) (groups : List String) (r : String) : Bool :=
  (Latch.run (w.bit m r) (w.commands groups [] w.groupBindings r)).1

/-- The first role binding that allows removal and reaches the room. -/
def firstRemoval (r : String) : Option PolicyBinding :=
  w.roleBindings.find? fun b => b.allowRemove && (w.targets b).contains r

/-- Taken for somebody without roles, the user loses a room to a binding they
match. -/
def Misled (m : String) (groups roles : List String) : Prop :=
  ∃ r b, w.afterGroups m groups r = true ∧ w.firstRemoval r = some b ∧
    userMatchesBinding b groups roles = true

end World

/-! ## A whole request -/

/-- The reads of a record's groups and roles. -/
def Call.readsFacts : Call → Bool
  | .keycloak (.getUserGroups _) | .keycloak (.getUserRoles _) => true
  | _ => false

/-- A day on which these reads may fail, and nothing else does. -/
def World.readsFail : Env Call Answer World where
  pre _ _ := True
  step w c x w' := w.serve c = (x, w') ∨
    (c.readsFacts = true ∧ (∃ e, x = .error e) ∧ w' = w)

section

variable (state : AppState) (admin : Admin)

/-- The calls `reconcile_membership` makes from this world for a record, given
its actual groups and roles. -/
def World.wouldCall (w : World) (id : String) : List Call :=
  match w.realm.byId id with
  | none => []
  | some u => calls ((reconcileMembership id
      (matrixId u.username state.homeserverDomain)
      ((w.groups id).map (·.name)) ((w.roles id).map (·.name))
      admin.subject admin.username w.listed).exec World.serve w).trace

/-- The record `id` is one whose user is misled without its roles. -/
def World.MisledRecord (w : World) (id : String) : Prop :=
  ∃ u, w.realm.byId id = some u ∧
    w.Misled (matrixId u.username state.homeserverDomain)
      ((w.groups id).map (·.name)) ((w.roles id).map (·.name))

/-- The world, and the record being reconciled with the world its groups were
asked in. -/
structure BulkReading where
  world : World
  current : Option (String × World)

namespace BulkReading

def start (w : World) : BulkReading := ⟨w, none⟩

def step (rd : BulkReading) (e : Exchange) : BulkReading where
  world := (rd.world.serve e.call).2
  current :=
    match e.call with
    | .keycloak (.getUserGroups id) => some (id, rd.world)
    | _ => rd.current

/-- Every call that changes a room is one `reconcile_membership` would make for
the record in hand, from the state its reconciliation started in. -/
def Faithful : BulkReading → List Exchange → Prop
  | _, [] => True
  | rd, e :: t =>
      (e.call.mutates ≠ none → ∃ id w, rd.current = some (id, w) ∧
        e.call ∈ w.wouldCall state admin id) ∧ (rd.step e).Faithful t

/-- No read of roles failed for a record whose user is misled. -/
def NobodyMisled : BulkReading → List Exchange → Prop
  | _, [] => True
  | rd, e :: t =>
      (∀ id err, e = ⟨.keycloak (.getUserRoles id), .error err⟩ →
        ¬ rd.world.MisledRecord state id) ∧ (rd.step e).NobodyMisled t

end BulkReading

end

end MatrixIdentityAdmin.Ref
