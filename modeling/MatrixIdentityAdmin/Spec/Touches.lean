import MatrixIdentityAdmin.Lib.Latch
import MatrixIdentityAdmin.Spec.Goals
import MatrixIdentityAdmin.Spec.Reading

/-!
# One room, one bit

Seen from one room, a reconciliation of one user is a sequence of commands to
one bit, the user's membership: a binding the user matches asks for the bit
to be set, once for each time the room occurs in its expansion; an unmatched
binding that allows removal asks for it to be reset; any other binding says
nothing. The child lists do not change under the reconciliation, so the
commands are a function of the world it starts from, and what the room sees
is `Latch.run` of them.
-/

namespace MatrixIdentityAdmin.Ref

open MatrixIdentityAdmin.Lib

/-- The user's bit in the room `r`. -/
abbrev World.bit (w : World) (m r : String) : Bool := decide (m ∈ w.members r)

section

variable (groups roles : List String)

/-- What a binding asks of the rooms it stands for. -/
def PolicyBinding.command (b : PolicyBinding) : List (Cmd PolicyBinding) :=
  if userMatchesBinding b groups roles then [.set b]
  else if b.allowRemove then [.reset b]
  else []

/-- What a binding asks of the room `r`: its command for each time the room
occurs among its targets. -/
def World.touches (w : World) (r : String) (b : PolicyBinding) :
    List (Cmd PolicyBinding) :=
  (List.replicate ((w.targets b).count r) (b.command groups roles)).flatten

/-- What a list of bindings asks of the room `r`. -/
def World.commands (w : World) (bindings : List PolicyBinding) (r : String) :
    List (Cmd PolicyBinding) :=
  bindings.flatMap (w.touches groups roles r)

variable (w : World) (bindings : List PolicyBinding) (r : String)

/-- The room is among the targets of a binding the user matches. -/
def World.Granted : Prop :=
  ∃ b ∈ bindings, userMatchesBinding b groups roles = true ∧ r ∈ w.targets b

/-- The room is among the targets of an unmatched binding that allows
removal. -/
def World.Barred : Prop :=
  ∃ b ∈ bindings, userMatchesBinding b groups roles = false ∧
    b.allowRemove = true ∧ r ∈ w.targets b

end

section

variable {groups roles : List String} {w : World}
  {bindings : List PolicyBinding} {r : String}

theorem World.mem_touches {b : PolicyBinding} {c : Cmd PolicyBinding} :
    c ∈ w.touches groups roles r b ↔
      r ∈ w.targets b ∧ c ∈ b.command groups roles := by
  rw [World.touches, List.mem_flatten]
  constructor
  · intro h
    obtain ⟨l, hl, hc⟩ := h
    rw [List.mem_replicate] at hl
    rw [hl.2] at hc
    exact ⟨List.count_pos_iff.1 (Nat.pos_of_ne_zero hl.1), hc⟩
  · intro h
    obtain ⟨hr, hc⟩ := h
    have hcount : (w.targets b).count r ≠ 0 :=
      Nat.ne_of_gt (List.count_pos_iff.2 hr)
    exact ⟨_, List.mem_replicate.2 ⟨hcount, rfl⟩, hc⟩

theorem World.mem_commands {c : Cmd PolicyBinding} :
    c ∈ w.commands groups roles bindings r ↔
      ∃ b ∈ bindings, r ∈ w.targets b ∧ c ∈ b.command groups roles := by
  rw [World.commands, List.mem_flatMap]
  simp only [World.mem_touches]

theorem PolicyBinding.mem_command {b : PolicyBinding} {c : Cmd PolicyBinding} :
    c ∈ b.command groups roles ↔
      (userMatchesBinding b groups roles = true ∧ c = .set b) ∨
      (userMatchesBinding b groups roles = false ∧ b.allowRemove = true ∧
        c = .reset b) := by
  rw [PolicyBinding.command]
  by_cases hm : userMatchesBinding b groups roles = true
  · simp [hm]
  · by_cases ha : b.allowRemove = true
    · simp [hm, ha]
    · simp [hm, ha]

/-- A room is granted when some command asks for the bit. -/
theorem World.granted_iff : w.Granted groups roles bindings r ↔
    ∃ c ∈ w.commands groups roles bindings r, c.wants = true := by
  constructor
  · intro h
    obtain ⟨b, hb, hm, hr⟩ := h
    exact ⟨.set b, World.mem_commands.2
      ⟨b, hb, hr, PolicyBinding.mem_command.2 (.inl ⟨hm, rfl⟩)⟩, rfl⟩
  · intro h
    obtain ⟨c, hc, hwants⟩ := h
    obtain ⟨b, hb, hr, hcb⟩ := World.mem_commands.1 hc
    rcases PolicyBinding.mem_command.1 hcb with ⟨hm, rfl⟩ | ⟨-, -, rfl⟩
    · exact ⟨b, hb, hm, hr⟩
    · cases hwants

/-- It is barred when some command asks for it to be cleared. -/
theorem World.barred_iff : w.Barred groups roles bindings r ↔
    ∃ c ∈ w.commands groups roles bindings r, c.wants = false := by
  constructor
  · intro h
    obtain ⟨b, hb, hm, ha, hr⟩ := h
    exact ⟨.reset b, World.mem_commands.2
      ⟨b, hb, hr, PolicyBinding.mem_command.2 (.inr ⟨hm, ha, rfl⟩)⟩, rfl⟩
  · intro h
    obtain ⟨c, hc, hwants⟩ := h
    obtain ⟨b, hb, hr, hcb⟩ := World.mem_commands.1 hc
    rcases PolicyBinding.mem_command.1 hcb with ⟨-, rfl⟩ | ⟨hm, ha, rfl⟩
    · cases hwants
    · exact ⟨b, hb, hm, ha, hr⟩

end

/-- The calls a reconciliation of the user `m` may come to, as far as the
bindings go. -/
def World.Warranted (w : World) (m : String) (groups roles : List String)
    (bindings : List PolicyBinding) : Call → Prop
  | .synapse (.forceJoinUser u r) => u = m ∧ w.Granted groups roles bindings r
  | .synapse (.setPowerLevel r u _) => u = m ∧ w.Granted groups roles bindings r
  | .synapse (.kickUserFromRoom u r _) => u = m ∧ w.Barred groups roles bindings r
  | .synapse (.getSpaceChildren _) | .synapse (.getJoinedRoomMembers _)
  | .audit _ => True
  | .keycloak _ | .mas _ | .policy _ => False

/-- A call that changes the room `r`. -/
def Call.changes (r : String) (c : Call) : Bool := c.mutates = some r

/-- The calls a command comes to when it does something. -/
def effects (matrixUserId r : String) : Cmd PolicyBinding → List Call
  | .set b =>
      .synapse (.forceJoinUser matrixUserId r) ::
        (b.powerLevel.map fun level =>
          Call.synapse (.setPowerLevel r matrixUserId level)).toList
  | .reset b =>
      [.synapse (.kickUserFromRoom matrixUserId r
        s!"Removed: no longer matches {b.subject}")]

/-- The calls of a command, with the binding they are made for. -/
def deeds (matrixUserId r : String) (c : Cmd PolicyBinding) :
    List (Option PolicyBinding × Call) :=
  (effects matrixUserId r c).map fun call => (some c.label, call)

namespace Reading

def binding (rd : Reading) : Option PolicyBinding :=
  rd.focus.map Focus.binding

/-- The calls of a trace, each with the binding in hand when it was made. -/
def tagged : Reading → List Exchange → List (Option PolicyBinding × Call)
  | _, [] => []
  | rd, e :: t => (rd.binding, e.call) :: (rd.step e).tagged t

/-- A call of one kind as a pair: its room and the subject it was made for. -/
def attempt (kind : Call → Option String) (d : Option PolicyBinding × Call) :
    Option (String × Option String) :=
  (kind d.2).map fun r => (r, d.1.map fun b => toString b.subject)

/-- The calls of one kind in a trace. -/
def attempts (kind : Call → Option String) (rd : Reading) (t : List Exchange) :
    List (String × Option String) := (rd.tagged t).filterMap (attempt kind)

theorem tagged_calls {t : List Exchange} : ∀ (rd : Reading),
    (rd.tagged t).map Prod.snd = calls t := by
  induction t with
  | nil => intro rd; rfl
  | cons e t ih =>
      intro rd
      rw [tagged, List.map_cons, ih]
      rfl

theorem tagged_append {t t' : List Exchange} : ∀ {rd : Reading},
    rd.tagged (t ++ t') = rd.tagged t ++ (t.foldl step rd).tagged t' := by
  induction t with
  | nil => intro rd; rfl
  | cons e t ih =>
      intro rd
      rw [List.cons_append, tagged, tagged, ih]
      rfl

end Reading

/-- What a line of the preview announces: a room and a subject. -/
def RoomAction.key (a : RoomAction) : String × Option String :=
  (a.roomId, some a.subject)

end MatrixIdentityAdmin.Ref
