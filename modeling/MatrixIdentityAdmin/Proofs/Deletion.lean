import MatrixIdentityAdmin.Spec.Deletion

/-!
# Where a deletion can be misreported

Everything up to the deletion itself leaves the record alone, so an error there
is one to try again after. The deletion is followed by one write that can still
fail, and what is returned then is the failure of that write, whatever the
deletion came to.
-/

namespace MatrixIdentityAdmin.Ref

open MatrixIdentityAdmin.Lib

namespace World

variable {w w' : World}

/-- The calls a deletion makes before it comes to the record. -/
def sparesRealm : Call → Prop
  | .keycloak (.getUser _) => True
  | .mas _ => True
  | .audit _ => True
  | _ => False

theorem atomic_realm {c : Call} {x : Answer c} (hc : sparesRealm c)
    (h : atomic.step w c x w') : w'.realm = w.realm := by
  rcases h with h | ⟨-, rfl⟩
  · have hchange := w.serve_change c
    rw [h] at hchange
    cases hchange with
    | disable id => exact False.elim hc
    | enable id => exact False.elim hc
    | erase id => exact False.elim hc
    | _ => rfl
  · rfl

/-- A deletion that came back `Ok` had a record to delete, which is gone. -/
theorem atomic_deleted {id : String}
    (h : atomic.step w (.keycloak (.deleteUser id)) (.ok ()) w') :
    w.realm.byId id ≠ none ∧ w'.realm.byId id = none := by
  rcases h with h | ⟨⟨e, he⟩, -⟩
  · obtain ⟨⟨u, hu⟩, -, rfl⟩ := withUser_ok h
    exact ⟨by rw [hu]; exact Option.some_ne_none u, w.realm.byId_erase_self⟩
  · cases he

/-- One that came back `Err` has left everything as it was. -/
theorem atomic_failed {id : String} {e : AppError}
    (h : atomic.step w (.keycloak (.deleteUser id)) (.error e) w') : w' = w := by
  rcases h with h | ⟨-, rfl⟩
  · have hserve : w.withUser id () (w.eraseUser id) = (.error e, w') := h
    rw [withUser] at hserve
    split at hserve
    · cases hserve
    · cases hserve
      rfl
  · rfl

end World

namespace Deletion

variable {keycloakId adminSubject adminUsername homeserverDomain matrixUserId
  username : String} {h t : List Exchange} {w₀ w w' : World}

/-- Nothing about the record has been asked or written down yet. -/
structure Before (keycloakId : String) (h : List Exchange) (w₀ w : World) : Prop where
  realm : w.realm = w₀.realm
  calls : ∀ r, ⟨.keycloak (.deleteUser keycloakId), r⟩ ∉ h
  entries : ∀ entry r, ⟨.audit entry, r⟩ ∈ h → entry.action ≠ "delete_keycloak_user"

theorem Before.push {c : Call} {x : Answer c} (hb : Before keycloakId h w₀ w)
    (hc : World.sparesRealm c) (hstep : World.atomic.step w c x w')
    (haction : ∀ entry, c = .audit entry → entry.action ≠ "delete_keycloak_user") :
    Before keycloakId (h ++ [⟨c, x⟩]) w₀ w' where
  realm := (World.atomic_realm hc hstep).trans hb.realm
  calls r hr := by
    rcases List.mem_append.1 hr with hr | hr
    · exact hb.calls r hr
    · cases List.mem_singleton.1 hr
      exact hc
  entries entry r hr := by
    rcases List.mem_append.1 hr with hr | hr
    · exact hb.entries entry r hr
    · cases List.mem_singleton.1 hr
      exact haction entry rfl

/-- An error before the record was come to is one to try again after. -/
theorem Before.truthful {e : AppError} (hb : Before keycloakId h w₀ w) :
    Truthful keycloakId h w₀ w (.error e) ↔ LosesNothing keycloakId h := by
  refine iff_of_true ⟨?_, ?_, ?_⟩ ?_
  · intro _ _ hrecord
    rw [hb.realm]
    exact hrecord
  · refine iff_of_false nofun ?_
    intro hp
    obtain ⟨-, e', he'⟩ := hp
    exact hb.calls _ he'
  · exact iff_of_false nofun fun hs => hb.calls _ hs
  · intro entry e' he' haction
    exact absurd haction (hb.entries entry _ he')

/-! ## The deletion and its entry -/

section

variable {x y : Result Unit} (entry : AuditEntry)

/-- What is in the log once the deletion and its entry are at the end of it. -/
theorem masDeactivated_append :
    MasDeactivated (h ++ [⟨.keycloak (.deleteUser keycloakId), x⟩] ++
      [⟨.audit entry, y⟩]) ↔ MasDeactivated h := by
  simp [MasDeactivated]

theorem succeeded_append (hb : Before keycloakId h w₀ w) :
    Succeeded keycloakId (h ++ [⟨.keycloak (.deleteUser keycloakId), x⟩] ++
      [⟨.audit entry, y⟩]) ↔ x = .ok () := by
  have hno := hb.calls (.ok ())
  simp [Succeeded, hno, eq_comm]

theorem failed_append (hb : Before keycloakId h w₀ w) :
    Failed keycloakId (h ++ [⟨.keycloak (.deleteUser keycloakId), x⟩] ++
      [⟨.audit entry, y⟩]) ↔ ∃ e, x = .error e := by
  have hno : ∀ e, ⟨.keycloak (.deleteUser keycloakId), .error e⟩ ∉ h :=
    fun e => hb.calls (.error e)
  simp [Failed, hno, eq_comm]

theorem losesNothing_append {entry : AuditEntry} (hb : Before keycloakId h w₀ w)
    (haction : entry.action = "delete_keycloak_user") :
    LosesNothing keycloakId (h ++ [⟨.keycloak (.deleteUser keycloakId), x⟩] ++
      [⟨.audit entry, y⟩]) ↔
      ((∃ e, y = .error e) → (∃ e, x = .error e) ∧ ¬ MasDeactivated h) := by
  rw [LosesNothing, failed_append entry hb, masDeactivated_append entry]
  constructor
  · intro hl hy
    obtain ⟨e, rfl⟩ := hy
    exact hl entry e (by simp) haction
  · intro hl entry' e hmem haction'
    rw [List.append_assoc] at hmem
    rcases List.mem_append.1 hmem with hmem | hmem
    · exact absurd haction' (hb.entries entry' _ hmem)
    · have hentry : entry' = entry ∧ .error e = y := by simpa using hmem
      exact hl ⟨e, hentry.2.symm⟩

/-- The last two calls, once it is known what was done in MAS: all is reported as
it is, unless the entry is lost and something else with it. -/
theorem deleteKeycloakUser_truthful {masUser : Option MasUser}
    {outcome : WorkflowOutcome} (hb : Before keycloakId h w₀ w)
    (hmas : MasDeactivated h ↔ masUser.isSome = true) :
    (deleteKeycloakUser keycloakId adminSubject adminUsername matrixUserId username
      masUser outcome).wp World.atomic.logged (w, h) fun r s =>
        Truthful keycloakId s.2 w₀ s.1 r ↔ LosesNothing keycloakId s.2 := by
  refine Prog.wp_logged_cons trivial fun x w₁ hx => ?_
  refine Prog.wp_logged_cons trivial fun y w₂ hy => ?_
  have hrealm : w₂.realm = w₁.realm := World.atomic_realm (c := .audit _) trivial hy
  let entry := stepEntry keycloakId matrixUserId adminSubject adminUsername
    "delete_keycloak_user" (.of x) [("keycloak_user_id", .str keycloakId),
      ("username", .str username), ("mas_deactivated", .bool masUser.isSome)]
  have hlost := losesNothing_append (x := x) (y := y) hb
    (show entry.action = "delete_keycloak_user" from rfl)
  have hsucceeded := succeeded_append (x := x) (y := y) entry hb
  have hfailed := failed_append (x := x) (y := y) entry hb
  have hdeact : MasDeactivated (h ++ [⟨.keycloak (.deleteUser keycloakId), x⟩] ++
    [⟨.audit entry, y⟩]) ↔ MasDeactivated h := masDeactivated_append entry
  cases y with
  | error e =>
      show Truthful _ _ _ _ (.error e) ↔ _
      rw [hlost]
      constructor
      · intro htruth _
        cases x with
        | ok u =>
            obtain ⟨hthere, hgone⟩ := World.atomic_deleted hx
            rw [hb.realm] at hthere
            refine absurd ?_ (htruth.err e rfl hthere)
            rw [hrealm]
            exact hgone
        | error e' =>
            refine ⟨⟨e', rfl⟩, fun hmasd => ?_⟩
            have hp := htruth.partialFailure.2
              ⟨hdeact.2 hmasd, hfailed.2 ⟨e', rfl⟩⟩
            obtain ⟨o, ho⟩ := hp
            cases ho
      · intro hcond
        obtain ⟨⟨e', rfl⟩, hno⟩ := hcond ⟨e, rfl⟩
        refine ⟨fun _ _ hthere => ?_, ?_, ?_⟩
        · rw [hrealm, World.atomic_failed hx, hb.realm]
          exact hthere
        · exact iff_of_false nofun fun hp => hno (hdeact.1 hp.1)
        · exact iff_of_false nofun fun hs => nomatch hsucceeded.1 hs
  | ok u =>
      have htrivial : ((∃ e, (Except.ok u : Result Unit) = .error e) →
          (∃ e, x = .error e) ∧ ¬ MasDeactivated h) := fun he => nomatch he
      cases x with
      | ok v =>
          show Truthful _ _ _ _ (.ok (.deleted outcome)) ↔ _
          refine iff_of_true ⟨nofun, ?_, ?_⟩ (hlost.2 htrivial)
          · exact iff_of_false nofun fun hp => nomatch hfailed.1 hp.2
          · exact iff_of_true ⟨outcome, rfl⟩ (hsucceeded.2 rfl)
      | error e =>
          show Prog.wp _ (if masUser.isSome then _ else _) _ _
          split
          · next hsome =>
              show Truthful _ _ _ _ (.ok (.partialFailure _)) ↔ _
              refine iff_of_true ⟨nofun, ?_, ?_⟩ (hlost.2 htrivial)
              · exact iff_of_true ⟨_, rfl⟩
                  ⟨hdeact.2 (hmas.2 hsome), hfailed.2 ⟨e, rfl⟩⟩
              · exact iff_of_false nofun fun hs => nomatch hsucceeded.1 hs
          · next hnone =>
              show Truthful _ _ _ _ (.error e) ↔ _
              refine iff_of_true ⟨fun _ _ hthere => ?_, ?_, ?_⟩ (hlost.2 htrivial)
              · rw [hrealm, World.atomic_failed hx, hb.realm]
                exact hthere
              · exact iff_of_false nofun fun hp =>
                  hnone (hmas.1 (hdeact.1 hp.1))
              · exact iff_of_false nofun fun hs => nomatch hsucceeded.1 hs

end

/-! ## The workflow -/

theorem deleteUser_wp :
    (deleteUser keycloakId adminSubject adminUsername homeserverDomain).wp
      World.atomic.logged (w, []) fun r s =>
        Truthful keycloakId s.2 w s.1 r ↔ LosesNothing keycloakId s.2 := by
  have hb₀ : Before keycloakId [] w w := ⟨rfl, by simp, by simp⟩
  refine Prog.wp_logged_cons trivial fun x w₁ hx => ?_
  have hb₁ := hb₀.push (c := .keycloak (.getUser _)) trivial hx nofun
  cases x with
  | error e => exact hb₁.truthful
  | ok u =>
  refine Prog.wp_logged_cons trivial fun y w₂ hy => ?_
  have hb₂ := hb₁.push (c := .mas _) trivial hy nofun
  cases y with
  | error e =>
      refine deleteKeycloakUser_truthful hb₂ (iff_of_false ?_ nofun)
      simp [MasDeactivated]
  | ok found =>
  cases found with
  | none =>
      refine deleteKeycloakUser_truthful hb₂ (iff_of_false ?_ nofun)
      simp [MasDeactivated]
  | some a =>
  refine Prog.wp_logged_cons trivial fun z w₃ hz => ?_
  have hb₃ := hb₂.push (c := .mas _) trivial hz nofun
  refine Prog.wp_logged_cons trivial fun l w₄ hl => ?_
  have hb₄ := hb₃.push (c := .audit _) trivial hl fun entry he => by
    cases he
    exact (by decide : "deactivate_mas_user" ≠ "delete_keycloak_user")
  cases l with
  | error e => exact hb₄.truthful
  | ok v =>
  cases z with
  | error e => exact hb₄.truthful
  | ok v =>
      refine deleteKeycloakUser_truthful hb₄ (iff_of_true ?_ rfl)
      exact ⟨u.username, a, by simp, by simp⟩

/-- In every world and whatever fails: a deletion reports what happened exactly if
the entry about it is not lost together with a deletion that took effect or with
the deactivation of an account. -/
theorem deleteUser_truthful_iff (keycloakId adminSubject adminUsername
    homeserverDomain : String) (w w' : World) (t : List Exchange)
    (result : Result DeleteUserResult)
    (hrun : (deleteUser keycloakId adminSubject adminUsername
      homeserverDomain).Runs t result) (hpath : World.atomic.Path w t w') :
    Truthful keycloakId t w w' result ↔ LosesNothing keycloakId t :=
  Prog.wp_logged_runs deleteUser_wp hrun hpath

/-! A realm with one record and no MAS account. -/

def oneRecord : World :=
  { World.empty with
    realm := ⟨[⟨"kc-1", "ada", true⟩], by decide, by decide⟩ }

/-- The entry about the deletion, with no account in MAS. -/
def deletionEntry (result : AuditResult) : AuditEntry :=
  stepEntry "kc-1" "@ada:example.org" "sub" "root" "delete_keycloak_user" result
    [("keycloak_user_id", .str "kc-1"), ("username", .str "ada"),
      ("mas_deactivated", .bool false)]

/-- The record is deleted; what becomes of the entry is left open. -/
def deletionRun (written : Result Unit) : List Exchange :=
  [⟨.keycloak (.getUser "kc-1"), .ok ⟨"kc-1", "ada", true⟩⟩,
    ⟨.mas (.getUserByUsername "ada"), .ok none⟩,
    ⟨.keycloak (.deleteUser "kc-1"), .ok ()⟩,
    ⟨.audit (deletionEntry .success), written⟩]

theorem deletion_reported :
    Truthful "kc-1" (deletionRun (.ok ())) oneRecord
        ((oneRecord.eraseUser "kc-1").record (deletionEntry .success))
        (.ok (.deleted .ok)) ↔
      LosesNothing "kc-1" (deletionRun (.ok ())) :=
  deleteUser_truthful_iff "kc-1" "sub" "root" "example.org" oneRecord _ _ _
    ⟨_, rfl, _, rfl, _, rfl, _, rfl, rfl⟩
    ⟨oneRecord, .inl rfl, oneRecord, .inl rfl, _, .inl rfl, _, .inl rfl, rfl⟩

/-- The record is gone and the admin is told of an error to try again after. -/
theorem deletion_misreported :
    ¬ ∀ (keycloakId adminSubject adminUsername homeserverDomain : String)
      (w w' : World) (t : List Exchange) (result : Result DeleteUserResult),
      (deleteUser keycloakId adminSubject adminUsername homeserverDomain).Runs t
        result → World.atomic.Path w t w' →
      Truthful keycloakId t w w' result := by
  intro h
  have htruth := h "kc-1" "sub" "root" "example.org" oneRecord
    (oneRecord.eraseUser "kc-1") (deletionRun (.error (.database "disk full"))) _
    ⟨_, rfl, _, rfl, _, rfl, _, rfl, rfl⟩
    ⟨oneRecord, .inl rfl, oneRecord, .inl rfl, _, .inl rfl, _,
      .inr ⟨⟨_, rfl⟩, rfl⟩, rfl⟩
  exact htruth.err _ rfl (by decide) (by decide)

end Deletion

end MatrixIdentityAdmin.Ref
