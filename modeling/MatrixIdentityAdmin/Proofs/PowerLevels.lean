import Mathlib.Data.Bool.Basic
import MatrixIdentityAdmin.Spec.PowerLevels

/-!
# The last document wins

Two calls that overlap both start from the document of before, and whoever
sends it back last sends it back without the change of the other. So both
changes are there in the end exactly when the calls did not overlap, or the
change that was overwritten was none. The proof follows the two calls through
all they can do: `Stage` says where they are, and what is in the document.
-/

namespace MatrixIdentityAdmin.Ref.SynapseClient

open MatrixIdentityAdmin.Lib

/-! ## Changing one level -/

section

variable {key key' userId userId' : String} {value v : Value}
  {members : List (String × Value)} {level : Int}

theorem get_insert_self : Value.get key (Value.insert key value members) = some value := by
  have hnone : (members.filter fun m => m.1 ≠ key).find? (fun m => m.1 = key) = none := by
    rw [List.find?_eq_none]
    intro m hm
    simpa using (List.mem_filter.1 hm).2
  rw [Value.get, Value.insert, List.find?_append, hnone]
  simp

theorem get_insert_of_ne (h : key' ≠ key) :
    Value.get key' (Value.insert key value members) = Value.get key' members := by
  have hfilter : (members.filter fun m => m.1 ≠ key).find? (fun m => m.1 = key') =
      members.find? fun m => m.1 = key' := by
    rw [List.find?_filter]
    congr 1
    funext m
    by_cases hm : m.1 = key'
    · simp [hm, h]
    · simp [hm]
  have hlast : [(key, value)].find? (fun m => m.1 = key') = none := by
    simp [Ne.symm h]
  rw [Value.get, Value.insert, List.find?_append, hfilter, hlast, Option.or_none]
  rfl

/-- The users a document has, or would have if it had any. -/
theorem withUserLevel_cases (userId : String) (level : Int) (v : Value) :
    (¬ Settable v ∧ withUserLevel userId level v = v ∧ ∀ u, levelOf u v = none) ∨
    ∃ members users, v = .object members ∧ Settable v ∧
      (∀ u, levelOf u v = Value.get u users) ∧
      withUserLevel userId level v = .object (Value.insert "users"
        (.object (Value.insert userId (.number level) users)) members) := by
  cases v with
  | object members =>
      rw [withUserLevel]
      cases h : Value.get "users" members with
      | none =>
          refine .inr ⟨members, [], rfl, .inl h, fun u => ?_, rfl⟩
          rw [levelOf, Value.field, h]
          rfl
      | some value =>
          cases value with
          | object users =>
              refine .inr ⟨members, users, rfl, .inr ⟨users, h⟩, fun u => ?_, rfl⟩
              rw [levelOf, Value.field, h]
              rfl
          | _ =>
              refine .inl ⟨?_, rfl, fun u => ?_⟩
              · intro h
                rcases h with hs | ⟨users, hs⟩
                · cases h.symm.trans hs
                · cases h.symm.trans hs
              · rw [levelOf, Value.field, h]
                rfl
  | _ => exact .inl ⟨id, rfl, fun _ => rfl⟩

theorem levelOf_object {users : List (String × Value)} {u : String}
    (h : Value.get "users" members = some (.object users)) :
    levelOf u (.object members) = Value.get u users := by
  rw [levelOf, Value.field, h]
  rfl

theorem levelOf_withUserLevel (h : Settable v) :
    levelOf userId (withUserLevel userId level v) = some (.number level) := by
  rcases withUserLevel_cases userId level v with ⟨hnot, -⟩ | ⟨_, _, -, -, -, heq⟩
  · exact absurd h hnot
  · rw [heq, levelOf_object get_insert_self, get_insert_self]

theorem levelOf_withUserLevel_of_ne (h : userId' ≠ userId) :
    levelOf userId' (withUserLevel userId level v) = levelOf userId' v := by
  rcases withUserLevel_cases userId level v with ⟨-, heq, -⟩ | ⟨_, _, -, -, hv, heq⟩
  · rw [heq]
  · rw [heq, levelOf_object get_insert_self, get_insert_of_ne h, hv]

theorem field_withUserLevel (h : key ≠ "users") :
    Value.field key (withUserLevel userId level v) = v.field key := by
  rcases withUserLevel_cases userId level v with ⟨-, heq, -⟩ | ⟨_, _, rfl, -, -, heq⟩
  · rw [heq]
  · rw [heq, Value.field, get_insert_of_ne h, Value.field]

theorem settable_withUserLevel :
    Settable (withUserLevel userId level v) ↔ Settable v := by
  rcases withUserLevel_cases userId level v with ⟨-, heq, -⟩ | ⟨_, _, -, hs, -, heq⟩
  · rw [heq]
  · rw [heq]
    exact ⟨fun _ => hs, fun _ => .inr ⟨_, get_insert_self⟩⟩

/-- No user has a level in a document that has no room for one. -/
theorem settable_of_levelOf (h : levelOf userId v = some value) : Settable v := by
  rcases withUserLevel_cases userId 0 v with ⟨-, -, hnone⟩ | ⟨_, _, -, hs, -⟩
  · rw [hnone] at h
    cases h
  · exact hs

end

/-! ## What two calls can do -/

section

variable {roomId : String} {userId : Bool → String} {level : Bool → Int}
  {v w w' : Value} {i : Bool} {a b : Task (Result Unit)}
  {log : List (Bool × StateCall)}
  {c c' : Pool Bool StateCall StateCall.Answer (Result Unit) × Homeserver}

/-- The document with the change of the call `i`. -/
def changed (userId : Bool → String) (level : Bool → Int) (i : Bool) (v : Value) :
    Value := withUserLevel (userId i) (level i) v

/-- A call that has the document, and is about to send it back. -/
def sending (roomId : String) (v : Value) : Task (Result Unit) :=
  call (.putState roomId v)

/-- Where the two calls are, what is in the document, and what was requested. -/
structure Now (roomId : String) (i : Bool) (a b : Task (Result Unit)) (v : Value)
    (log : List (Bool × StateCall))
    (c : Pool Bool StateCall StateCall.Answer (Result Unit) × Homeserver) : Prop where
  one : c.1 i = some a
  other : c.1 (!i) = some b
  document : c.2.levels roomId = v
  log : c.2.log = log

theorem Now.flip (h : Now roomId i a b v log c) : Now roomId (!i) b a v log c :=
  ⟨h.other, (Bool.not_not i).symm ▸ h.one, h.document, h.log⟩

theorem Now.back (h : Now roomId (!i) b a v log c) : Now roomId i a b v log c :=
  ⟨Bool.not_not i ▸ h.other, h.one, h.document, h.log⟩

/-- A call has failed or was dropped. -/
def Failed (c : Pool Bool StateCall StateCall.Answer (Result Unit) × Homeserver) :
    Prop :=
  ∃ i, c.1 i = none ∨ ∃ e, c.1 i = some (.ret (.error e))

theorem Now.get (h : Now roomId i (setPowerLevel roomId (userId i) (level i)) b v log c)
    (hm : homeserver.Moves i c c') :
    Failed c' ∨ Now roomId i (sending roomId (changed userId level i v)) b v
      (log ++ [(i, .getState roomId)]) c' := by
  cases hm with
  | drop hi hs => exact .inl ⟨i, .inl (Function.update_self ..)⟩
  | call hi hs =>
      cases h.one.symm.trans hi
      obtain ⟨rfl, rfl | ⟨e, rfl⟩⟩ := hs
      · refine .inr ⟨?_, ?_, h.document, congrArg (· ++ _) h.log⟩
        · rw [show v = _ from h.document.symm]
          exact Function.update_self ..
        · exact (Function.update_of_ne (by simp) ..).trans h.other
      · exact .inl ⟨i, .inr ⟨e, Function.update_self ..⟩⟩

theorem Now.put (h : Now roomId i (sending roomId w) b v log c)
    (hm : homeserver.Moves i c c') :
    Failed c' ∨ Now roomId i (.ret (.ok ())) b w (log ++ [(i, .putState roomId w)])
      c' := by
  cases hm with
  | drop hi hs => exact .inl ⟨i, .inl (Function.update_self ..)⟩
  | @call _ _ _ x _ _ hi hs =>
      cases h.one.symm.trans hi
      cases x with
      | error e => exact .inl ⟨i, .inr ⟨e, Function.update_self ..⟩⟩
      | ok =>
          rcases hs with rfl | ⟨⟨e, he⟩, -⟩
          · refine .inr ⟨Function.update_self .., ?_, Function.update_self ..,
              congrArg (· ++ _) h.log⟩
            exact (Function.update_of_ne (by simp) ..).trans h.other
          · cases he

theorem Now.done {r : Result Unit} (h : Now roomId i (.ret r) b v log c) :
    ¬ homeserver.Moves i c c' := by
  intro hm
  cases hm with
  | drop hi _ => cases h.one.symm.trans hi
  | call hi _ => cases h.one.symm.trans hi

theorem Failed.moves (h : Failed c) (hm : homeserver.Moves i c c') : Failed c' := by
  obtain ⟨j, hj⟩ := h
  have hne : j ≠ i := by
    intro h
    obtain rfl := h
    cases hm with
    | drop hi _ =>
        rcases hj with hj | ⟨e, hj⟩
        · cases hj.symm.trans hi
        · cases hj.symm.trans hi
    | call hi _ =>
        rcases hj with hj | ⟨e, hj⟩
        · cases hj.symm.trans hi
        · cases hj.symm.trans hi
  exact ⟨j, (hm.others hne).symm ▸ hj⟩

/-- How far the two calls are. `fetched`, `stored` and `followed` are the run in
which `i` is done before the other begins. In the others both have the document
`v` before either sends it back, and `i` is the first to do so. -/
inductive Stage (roomId : String) (userId : Bool → String) (level : Bool → Int)
    (v : Value) (c : Pool Bool StateCall StateCall.Answer (Result Unit) × Homeserver) :
    Prop
  | fresh (i : Bool) (h : Now roomId i
      (setPowerLevel roomId (userId i) (level i))
      (setPowerLevel roomId (userId !i) (level !i)) v [] c)
  | fetched (i : Bool) (h : Now roomId i
      (sending roomId (changed userId level i v))
      (setPowerLevel roomId (userId !i) (level !i)) v [(i, .getState roomId)] c)
  | stored (i : Bool) (h : Now roomId i (.ret (.ok ()))
      (setPowerLevel roomId (userId !i) (level !i)) (changed userId level i v)
      [(i, .getState roomId), (i, .putState roomId (changed userId level i v))] c)
  | followed (i : Bool) (h : Now roomId i (.ret (.ok ()))
      (sending roomId (changed userId level (!i) (changed userId level i v)))
      (changed userId level i v)
      [(i, .getState roomId), (i, .putState roomId (changed userId level i v)),
        (!i, .getState roomId)] c)
  | inTurn (i : Bool) (h : Now roomId i (.ret (.ok ())) (.ret (.ok ()))
      (changed userId level (!i) (changed userId level i v))
      [(i, .getState roomId), (i, .putState roomId (changed userId level i v)),
        (!i, .getState roomId),
        (!i, .putState roomId (changed userId level (!i) (changed userId level i v)))]
      c)
  | both (i : Bool) (h : Now roomId i
      (sending roomId (changed userId level i v))
      (sending roomId (changed userId level (!i) v)) v
      [(i, .getState roomId), (!i, .getState roomId)] c)
  | overtaken (i j : Bool) (h : Now roomId i (.ret (.ok ()))
      (sending roomId (changed userId level (!i) v)) (changed userId level i v)
      [(j, .getState roomId), (!j, .getState roomId),
        (i, .putState roomId (changed userId level i v))] c)
  | lost (i j : Bool) (h : Now roomId i (.ret (.ok ())) (.ret (.ok ()))
      (changed userId level (!i) v)
      [(j, .getState roomId), (!j, .getState roomId),
        (i, .putState roomId (changed userId level i v)),
        (!i, .putState roomId (changed userId level (!i) v))] c)
  | failed (h : Failed c)

theorem Stage.moves (h : Stage roomId userId level v c)
    (hm : homeserver.Moves i c c') : Stage roomId userId level v c' := by
  cases h with
  | failed h => exact .failed (h.moves hm)
  | fresh j h =>
      rcases Bool.eq_or_eq_not i j with rfl | rfl
      · exact (h.get hm).elim .failed (.fetched i)
      · refine (h.flip.get hm).elim .failed fun h => .fetched (!j) ?_
        rwa [Bool.not_not]
  | fetched j h =>
      rcases Bool.eq_or_eq_not i j with rfl | rfl
      · exact (h.put hm).elim .failed (.stored i)
      · exact (h.flip.get hm).elim .failed fun h => .both j h.back
  | stored j h =>
      rcases Bool.eq_or_eq_not i j with rfl | rfl
      · exact absurd hm h.done
      · exact (h.flip.get hm).elim .failed fun h => .followed j h.back
  | followed j h =>
      rcases Bool.eq_or_eq_not i j with rfl | rfl
      · exact absurd hm h.done
      · exact (h.flip.put hm).elim .failed fun h => .inTurn j h.back
  | inTurn j h =>
      rcases Bool.eq_or_eq_not i j with rfl | rfl
      · exact absurd hm h.done
      · exact absurd hm h.flip.done
  | both j h =>
      rcases Bool.eq_or_eq_not i j with rfl | rfl
      · exact (h.put hm).elim .failed (.overtaken i i)
      · refine (h.flip.put hm).elim .failed fun h => .overtaken (!j) j ?_
        rwa [Bool.not_not]
  | overtaken j k h =>
      rcases Bool.eq_or_eq_not i j with rfl | rfl
      · exact absurd hm h.done
      · exact (h.flip.put hm).elim .failed fun h => .lost j k h.back
  | lost j k h =>
      rcases Bool.eq_or_eq_not i j with rfl | rfl
      · exact absurd hm h.done
      · exact absurd hm h.flip.done

theorem stage_reached {levels : String → Value}
    {P : Pool Bool StateCall StateCall.Answer (Result Unit)} {s : Homeserver}
    (hr : homeserver.Reaches
      (fun i => some (setPowerLevel roomId (userId i) (level i))) ⟨levels, []⟩ P s) :
    Stage roomId userId level (levels roomId) (P, s) := by
  suffices H : ∀ c, Relation.ReflTransGen
      (fun c c' => ∃ i, True ∧ homeserver.Moves i c c')
      (fun i => some (setPowerLevel roomId (userId i) (level i)), ⟨levels, []⟩) c →
        Stage roomId userId level (levels roomId) c from H _ hr
  intro c hc
  induction hc with
  | refl => exact .fresh true ⟨rfl, rfl, rfl, rfl⟩
  | tail _ hm ih =>
      obtain ⟨_, -, hm⟩ := hm
      exact ih.moves hm

/-! ## What is in the document in the end -/

theorem applied_inTurn (hdiff : ∀ i, userId i ≠ userId !i) :
    Applied userId level v (changed userId level (!i) (changed userId level i v)) ↔
      Settable v := by
  constructor
  · intro h
    have hs := settable_of_levelOf (h.requested i)
    exact settable_withUserLevel.1 (settable_withUserLevel.1 hs)
  · intro h
    refine ⟨fun j => ?_, fun u hu => ?_, fun key hkey => ?_⟩
    · rcases Bool.eq_or_eq_not j i with rfl | rfl
      · rw [changed, levelOf_withUserLevel_of_ne (hdiff j)]
        exact levelOf_withUserLevel h
      · exact levelOf_withUserLevel (settable_withUserLevel.2 h)
    · rw [changed, levelOf_withUserLevel_of_ne (hu _), changed,
        levelOf_withUserLevel_of_ne (hu _)]
    · rw [changed, field_withUserLevel hkey, changed, field_withUserLevel hkey]

theorem applied_lost (hdiff : ∀ i, userId i ≠ userId !i) :
    Applied userId level v (changed userId level (!i) v) ↔
      Settable v ∧ levelOf (userId i) v = some (.number (level i)) := by
  constructor
  · intro h
    have hi := h.requested i
    rw [changed, levelOf_withUserLevel_of_ne (hdiff i)] at hi
    exact ⟨settable_of_levelOf hi, hi⟩
  · intro h
    obtain ⟨h, hi⟩ := h
    refine ⟨fun j => ?_, fun u hu => ?_, fun key hkey => field_withUserLevel hkey⟩
    · rcases Bool.eq_or_eq_not j i with rfl | rfl
      · rw [changed, levelOf_withUserLevel_of_ne (hdiff j), hi]
      · exact levelOf_withUserLevel h
    · exact levelOf_withUserLevel_of_ne (hu _)

/-- Two calls for different users that both succeed leave both changes in the
document, and nothing else, exactly when the document has room for a level and
they did not overlap, or the user whose change came first had that level
before. -/
theorem applied_iff {levels : String → Value}
    {P : Pool Bool StateCall StateCall.Answer (Result Unit)} {s : Homeserver}
    (husers : userId true ≠ userId false)
    (hr : homeserver.Reaches
      (fun i => some (setPowerLevel roomId (userId i) (level i))) ⟨levels, []⟩ P s)
    (hok : ∀ i, P i = some (.ret (.ok ()))) :
    Applied userId level (levels roomId) (s.levels roomId) ↔
      Settable (levels roomId) ∧ (InTurn s.log ∨ ∃ i, firstPut s.log = some i ∧
        levelOf (userId i) (levels roomId) = some (.number (level i))) := by
  have hdiff : ∀ i, userId i ≠ userId !i := by
    intro i
    cases i with
    | true => exact husers
    | false => exact husers.symm
  cases stage_reached hr with
  | fresh i h => cases (hok i).symm.trans h.one
  | fetched i h => cases (hok i).symm.trans h.one
  | stored i h => cases (hok !i).symm.trans h.other
  | followed i h => cases (hok !i).symm.trans h.other
  | both i h => cases (hok i).symm.trans h.one
  | overtaken i j h => cases (hok !i).symm.trans h.other
  | failed h =>
      obtain ⟨i, h | ⟨e, h⟩⟩ := h
      · cases (hok i).symm.trans h
      · cases (hok i).symm.trans h
  | inTurn i h =>
      have hturn : InTurn s.log := by
        rw [h.log]
        exact ⟨i, rfl⟩
      rw [h.document, applied_inTurn hdiff]
      exact ⟨fun hs => ⟨hs, .inl hturn⟩, And.left⟩
  | lost i j h =>
      have hnot : ¬ InTurn s.log := by
        rw [h.log]
        intro h
        obtain ⟨k, hk⟩ := h
        have hmixed : ∀ i j k : Bool, [j, !j, i, !i] ≠ [k, k, !k, !k] := by decide
        exact hmixed i j k hk
      have hfirst : firstPut s.log = some i := by
        rw [h.log]
        rfl
      rw [h.document, applied_lost hdiff, hfirst]
      constructor
      · intro h
        obtain ⟨hs, hi⟩ := h
        exact ⟨hs, .inr ⟨i, rfl, hi⟩⟩
      · intro h
        obtain ⟨hs, hturn | ⟨k, hk, hi⟩⟩ := h
        · exact absurd hturn hnot
        · cases hk
          exact ⟨hs, hi⟩

end

/-! ## Alice and Bob -/

def alice : Bool → String
  | true => "@alice:example.org"
  | false => "@bob:example.org"

def aliceLevel : Bool → Int
  | true => 100
  | false => 50

/-- A room whose only member with a level is somebody else. -/
def roomLevels : Value :=
  .object [("users_default", .number 0),
    ("users", .object [("@root:example.org", .number 100)])]

/-- Called one after the other, both get what was asked for. -/
theorem alice_then_bob : Applied alice aliceLevel roomLevels
    (changed alice aliceLevel false (changed alice aliceLevel true roomLevels)) := by
  have hrun : ∃ P log, homeserver.Reaches
      (fun i => some (setPowerLevel "!room" (alice i) (aliceLevel i)))
      ⟨fun _ => roomLevels, []⟩ P
      ⟨Function.update (Function.update (fun _ => roomLevels) "!room"
        (changed alice aliceLevel true roomLevels)) "!room"
        (changed alice aliceLevel false (changed alice aliceLevel true roomLevels)),
        log⟩ ∧ InTurn log ∧ ∀ i, P i = some (.ret (.ok ())) := by
    apply Exists.intro
    apply Exists.intro
    constructor
    · refine .head ⟨true, trivial, .call (x := .ok roomLevels) rfl ⟨rfl, .inl rfl⟩⟩ ?_
      refine .head ⟨true, trivial, .call (x := .ok ()) rfl (.inl rfl)⟩ ?_
      refine .head ⟨false, trivial, .call
        (x := .ok (changed alice aliceLevel true roomLevels)) rfl ⟨rfl, .inl rfl⟩⟩ ?_
      refine .head ⟨false, trivial, .call (x := .ok ()) rfl (.inl rfl)⟩ ?_
      exact .refl
    · refine ⟨⟨true, rfl⟩, fun i => ?_⟩
      cases i <;> rfl
  obtain ⟨P, log, hr, hturn, hok⟩ := hrun
  have happlied := (applied_iff (by decide) hr hok).2
    ⟨.inr ⟨_, rfl⟩, .inl hturn⟩
  simpa using happlied

/-- When both fetch the document before either sends it back, Alice does not
get her level. -/
theorem alice_lost : ¬ ∀ (roomId : String) (userId : Bool → String)
    (level : Bool → Int) (levels : String → Value)
    (P : Pool Bool StateCall StateCall.Answer (Result Unit)) (s : Homeserver),
    userId true ≠ userId false →
    homeserver.Reaches (fun i => some (setPowerLevel roomId (userId i) (level i)))
      ⟨levels, []⟩ P s →
    (∀ i, P i = some (.ret (.ok ()))) →
    Applied userId level (levels roomId) (s.levels roomId) := by
  intro hclaim
  have hrun : ∃ P log, homeserver.Reaches
      (fun i => some (setPowerLevel "!room" (alice i) (aliceLevel i)))
      ⟨fun _ => roomLevels, []⟩ P
      ⟨Function.update (Function.update (fun _ => roomLevels) "!room"
        (changed alice aliceLevel true roomLevels)) "!room"
        (changed alice aliceLevel false roomLevels), log⟩ ∧
      ∀ i, P i = some (.ret (.ok ())) := by
    apply Exists.intro
    apply Exists.intro
    constructor
    · refine .head ⟨true, trivial, .call (x := .ok roomLevels) rfl ⟨rfl, .inl rfl⟩⟩ ?_
      refine .head ⟨false, trivial, .call (x := .ok roomLevels) rfl ⟨rfl, .inl rfl⟩⟩ ?_
      refine .head ⟨true, trivial, .call (x := .ok ()) rfl (.inl rfl)⟩ ?_
      refine .head ⟨false, trivial, .call (x := .ok ()) rfl (.inl rfl)⟩ ?_
      exact .refl
    · intro i
      cases i <;> rfl
  obtain ⟨P, log, hr, hok⟩ := hrun
  have happlied := hclaim "!room" alice aliceLevel _ P _ (by decide) hr hok
  have hlost : levelOf "@alice:example.org" (changed alice aliceLevel false roomLevels) =
      none := rfl
  have hrequested := happlied.requested true
  simp only [Function.update_self] at hrequested
  cases hlost.symm.trans hrequested

end MatrixIdentityAdmin.Ref.SynapseClient
