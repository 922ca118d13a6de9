import MatrixIdentityAdmin.Lib.Ledger
import MatrixIdentityAdmin.Ref.Reconcile

/-!
# Reading a reconciliation back from its calls

Nothing in a trace says which binding a call was made for. It need not: the
reconciliation opens every binding with a child lookup and makes no other, so
the trace read from the left shows which binding is in hand, what its lookup
expanded to and what has been done about it so far. `Reading` is that reader.
It is handed the list of bindings and consumes events; it does not look at
the program.

`Justified` says when a call may be made, given what was read so far. Each
clause is about one kind of call and quotes only the reading.
-/

namespace MatrixIdentityAdmin.Ref

open MatrixIdentityAdmin.Lib

/-- The binding in hand: the rooms its lookup expanded to and the events
since. -/
structure Focus where
  binding : PolicyBinding
  targets : List String
  since : List Exchange

/-- How far the reader is: the bindings to come and the one in hand. -/
structure Reading where
  rest : List PolicyBinding
  focus : Option Focus

/-- The room a call tries to join somebody to. -/
def Call.joins : Call → Option String
  | .synapse (.forceJoinUser _ r) => some r
  | _ => none

/-- The room a call tries to kick somebody from. -/
def Call.kicks : Call → Option String
  | .synapse (.kickUserFromRoom _ r _) => some r
  | _ => none

namespace Focus

def push (f : Focus) (e : Exchange) : Focus := { f with since := f.since ++ [e] }

/-- The joins attempted for the binding in hand, in order. -/
def joins (f : Focus) : List String := (calls f.since).filterMap Call.joins

/-- The kicks attempted for the binding in hand, in order. -/
def kicks (f : Focus) : List String := (calls f.since).filterMap Call.kicks

end Focus

namespace Reading

def start (bindings : List PolicyBinding) : Reading := ⟨bindings, none⟩

/-- A child lookup opens the next binding. -/
def opened (rd : Reading) (r : String) (x : Result (List String)) : Reading :=
  match rd.rest with
  | [] => rd
  | b :: rest => ⟨rest, some ⟨b, expansion r x, []⟩⟩

/-- Any other event belongs to the binding in hand. -/
def push (rd : Reading) (e : Exchange) : Reading :=
  { rd with focus := rd.focus.map fun f => f.push e }

def step (rd : Reading) : Exchange → Reading
  | ⟨.synapse (.getSpaceChildren r), x⟩ => rd.opened r x
  | e => rd.push e

/-- What has been read after the events `t`. -/
def of (bindings : List PolicyBinding) (t : List Exchange) : Reading :=
  t.foldl step (start bindings)

end Reading

/-- The binding `b` is in hand, with `since` exchanged about it. -/
abbrev inHand (rest : List PolicyBinding) (b : PolicyBinding)
    (targets : List String) (since : List Exchange) : Reading :=
  ⟨rest, some ⟨b, targets, since⟩⟩

section

variable (matrixUserId : String) (groups roles : List String)

/-- A join is made for a matched binding, of one of its rooms, right after
that room's members came back without the user, and in the order of the
expansion. -/
structure JoinJustified (f : Focus) (u r : String) : Prop where
  user : u = matrixUserId
  matched : userMatchesBinding f.binding groups roles = true
  target : r ∈ f.targets
  absent : ∃ before, ∃ members : List String, u ∉ members ∧
    f.since = before ++ [⟨.synapse (.getJoinedRoomMembers r), .ok members⟩]
  order : (f.joins ++ [r]).Sublist f.targets

/-- A kick is made for an unmatched binding that allows removal, of one of
its rooms, right after that room's members came back with the user, and in
the reverse order of the expansion. -/
structure KickJustified (f : Focus) (u r reason : String) : Prop where
  user : u = matrixUserId
  unmatched : userMatchesBinding f.binding groups roles = false
  allowed : f.binding.allowRemove = true
  target : r ∈ f.targets
  present : ∃ before, ∃ members : List String, u ∈ members ∧
    f.since = before ++ [⟨.synapse (.getJoinedRoomMembers r), .ok members⟩]
  order : (f.kicks ++ [r]).Sublist f.targets.reverse
  reason : reason = s!"Removed: no longer matches {f.binding.subject}"

/-- A power level is the binding's own, set right after its join of the room
succeeded and was written down. -/
structure PowerJustified (f : Focus) (r u : String) (level : Int) : Prop where
  user : u = matrixUserId
  matched : userMatchesBinding f.binding groups roles = true
  target : r ∈ f.targets
  configured : f.binding.powerLevel = some level
  joined : ∃ before entry, ∃ written : Result Unit,
    f.since = before ++ [⟨.synapse (.forceJoinUser u r), .ok ()⟩,
      ⟨.audit entry, written⟩]

/-- What justifies a call. -/
def Justified (rd : Reading) : Call → Prop
  | .synapse (.getSpaceChildren r) =>
      ∃ b rest, rd.rest = b :: rest ∧ r = b.target.roomId
  | .synapse (.getJoinedRoomMembers r) =>
      ∃ f, rd.focus = some f ∧ r ∈ f.targets
  | .synapse (.forceJoinUser u r) =>
      ∃ f, rd.focus = some f ∧ JoinJustified matrixUserId groups roles f u r
  | .synapse (.kickUserFromRoom u r reason) =>
      ∃ f, rd.focus = some f ∧
        KickJustified matrixUserId groups roles f u r reason
  | .synapse (.setPowerLevel r u level) =>
      ∃ f, rd.focus = some f ∧
        PowerJustified matrixUserId groups roles f r u level
  | .audit _ => ∃ f, rd.focus = some f
  | .keycloak _ | .mas _ | .policy _ => False

end

/-! ## The lines owed for what is done

A mutating call is owed an entry that names its room, the subject of the
binding it was made for and how it ended. -/

/-- The room a call changes somebody's standing in. -/
def Call.mutates : Call → Option String
  | .synapse (.forceJoinUser _ r) => some r
  | .synapse (.kickUserFromRoom _ r _) => some r
  | .synapse (.setPowerLevel r _ _) => some r
  | _ => none

/-- The room a call changes somebody's membership of. -/
def Call.moves : Call → Option String
  | .synapse (.forceJoinUser _ r) => some r
  | .synapse (.kickUserFromRoom _ r _) => some r
  | _ => none

/-- What a line of the log says of a room. -/
structure ActionLine where
  room : String
  subject : Option String
  result : AuditResult
deriving DecidableEq, Repr

/-- The subject of the binding in hand. -/
def Reading.subject (rd : Reading) : Option String :=
  rd.focus.map fun f => toString f.binding.subject

/-- The line an entry writes, if it names a room and a subject. -/
def AuditEntry.line (entry : AuditEntry) : Option ActionLine :=
  match entry.metadata.lookup "room_id", entry.metadata.lookup "subject" with
  | some (.str room), some (.str subject) => some ⟨room, some subject, entry.result⟩
  | _, _ => none

end MatrixIdentityAdmin.Ref
