import MatrixIdentityAdmin.Proofs.Winding

/-!
# What the calls leave alone

No call the workflows make touches the groups and roles of a record, the
bindings or the children of a space, and no call gives a record another name.
That much holds of any exchange, whoever makes the calls. The reconciling
requests leave even more alone: they only read Keycloak, and the only way
into a room is a join.
-/

namespace MatrixIdentityAdmin.Ref

open MatrixIdentityAdmin.Lib

/-- The later world has of the earlier one what no call changes: who is in which
group and has which role, what the profiles say, what the policy and the spaces are,
and what the records that are still there are called. -/
structure Steady (w w' : World) : Prop where
  groups : w'.groups = w.groups
  roles : w'.roles = w.roles
  profiles : w'.profiles = w.profiles
  children : w'.children = w.children
  bindings : w'.bindings = w.bindings
  names : ∀ id u', w'.realm.byId id = some u' →
    ∃ u, w.realm.byId id = some u ∧ u'.username = u.username

namespace Steady

variable {w w' w'' : World}

theorem refl (w : World) : Steady w w :=
  ⟨rfl, rfl, rfl, rfl, rfl, fun _ u h => ⟨u, h, rfl⟩⟩

theorem trans (h : Steady w w') (h' : Steady w' w'') : Steady w w'' where
  groups := h'.groups.trans h.groups
  roles := h'.roles.trans h.roles
  profiles := h'.profiles.trans h.profiles
  children := h'.children.trans h.children
  bindings := h'.bindings.trans h.bindings
  names id u'' hu'' := by
    obtain ⟨u', hu', hname'⟩ := h'.names id u'' hu''
    obtain ⟨u, hu, hname⟩ := h.names id u' hu'
    exact ⟨u, hu, hname'.trans hname⟩

theorem listed (h : Steady w w') : w'.listed = w.listed := by
  rw [World.listed, World.listed, h.bindings]

theorem targets (h : Steady w w') : w'.targets = w.targets :=
  World.targets_congr h.children

end Steady

theorem steady_setEnabled {w : World} {id : String} {e : Bool} :
    Steady w (w.setEnabled id e) :=
  { Steady.refl w with
    names := by
      intro j u' hu'
      obtain ⟨u, hu, rfl⟩ :=
        Directory.byId_of_modify (f := World.switchOn e) (fun _ => rfl) (fun _ => rfl) hu'
      refine ⟨u, hu, ?_⟩
      split
      · rfl
      · rfl }

theorem steady_eraseUser {w : World} {id : String} :
    Steady w (w.eraseUser id) :=
  { Steady.refl w with
    names := fun _ u' hu' => ⟨u', Directory.byId_of_erase hu', rfl⟩ }

variable {Allowed : World → Fault → Prop}

/-- No call changes any of it. -/
theorem step_steady {w w' : World} {c : Call} {x : Answer c}
    (h : (World.days Allowed).step w c x w') : Steady w w' := by
  cases World.step_change h with
  | none => exact Steady.refl w
  | logout id => exact { Steady.refl w with }
  | disable id => exact steady_setEnabled
  | enable id => exact steady_setEnabled
  | erase id => exact steady_eraseUser
  | finish i t => exact { Steady.refl w with }
  | deactivate id => exact { Steady.refl w with }
  | reactivate id => exact { Steady.refl w with }
  | join u r => exact { Steady.refl w with }
  | kick u r why => exact { Steady.refl w with }
  | power r u level => exact { Steady.refl w with }
  | record entry => exact { Steady.refl w with }

theorem path_steady {t : List Exchange} : ∀ {w w' : World},
    (World.days Allowed).Path w t w' → Steady w w' := by
  induction t with
  | nil =>
      intro w w' h
      cases h
      exact Steady.refl w
  | cons e t ih =>
      intro w w' h
      obtain ⟨w₁, hstep, hpath⟩ := h
      exact (step_steady hstep).trans (ih hpath)

/-! ## The reconciling requests -/

/-- The calls the reconciling requests are made of: they read Keycloak and the
policy, and change rooms and the audit log. -/
def Call.reconciling : Call → Prop
  | .keycloak (.searchUsers ..) | .keycloak (.countUsers _)
  | .keycloak (.getUser _) | .keycloak (.getUserGroups _)
  | .keycloak (.getUserRoles _) => True
  | .keycloak _ => False
  | .mas _ => False
  | .synapse _ | .audit _ | .policy _ => True

theorem step_realm {w w' : World} {c : Call} {x : Answer c}
    (h : (World.days Allowed).step w c x w') (hc : c.reconciling) : w'.realm = w.realm := by
  cases World.step_change h with
  | none => rfl
  | logout id => exact False.elim hc
  | disable id => exact False.elim hc
  | enable id => exact False.elim hc
  | erase id => exact False.elim hc
  | finish i t => exact False.elim hc
  | deactivate id => exact False.elim hc
  | reactivate id => exact False.elim hc
  | join u r => rfl
  | kick u r why => rfl
  | power r u level => rfl
  | record entry => rfl

/-- A join lets in the user it is for, and nobody else. -/
theorem outside_join {w : World} {m r u x : String} (hout : m ∉ w.members r)
    (hne : ¬ (u = m ∧ x = r)) : m ∉ (w.join u x).members r := by
  show m ∉ (if r = x ∧ u ∉ w.members r then w.members r ++ [u]
    else w.members r)
  split
  · next hx =>
      intro hm
      rcases List.mem_append.1 hm with hm | hm
      · exact hout hm
      · exact hne ⟨(List.mem_singleton.1 hm).symm, hx.1.symm⟩
  · exact hout

/-- Nobody gets into a room but by a join. -/
theorem step_outside {w w' : World} {c : Call} {x : Answer c} {m r : String}
    (h : (World.days Allowed).step w c x w') (hc : c.reconciling)
    (hjoin : c ≠ .synapse (.forceJoinUser m r)) (hout : m ∉ w.members r) :
    m ∉ w'.members r := by
  have hkept : c.winding → m ∉ w'.members r :=
    fun hw hm => hout ((step_kept h hw).member r m hm)
  cases World.step_change h with
  | none => exact hout
  | logout id => exact hkept trivial
  | disable id => exact hkept trivial
  | enable id => exact False.elim hc
  | erase id => exact False.elim hc
  | finish i t => exact hkept trivial
  | deactivate id => exact hkept trivial
  | reactivate id => exact False.elim hc
  | join u y =>
      refine outside_join hout fun heq => ?_
      rw [heq.1, heq.2] at hjoin
      exact hjoin rfl
  | kick u y why => exact hkept trivial
  | power y u level => exact hkept trivial
  | record entry => exact hkept trivial

end MatrixIdentityAdmin.Ref
