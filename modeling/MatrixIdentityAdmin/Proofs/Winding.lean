import MatrixIdentityAdmin.Spec.Goals

/-!
# Winding an account down

Only four kinds of calls give anybody anything: enabling and deleting a
Keycloak record, reactivating a MAS account, joining a room. All others leave
the world where every goal of winding down that held before still holds:
disabled stays disabled, finished stays finished, outside stays outside,
whether the calls succeed or not. `Kept` is that relation between an earlier
and a later world, and a program that makes no other calls keeps it.
-/

namespace MatrixIdentityAdmin.Ref

open MatrixIdentityAdmin.Lib

/-- Calls that undo nothing of what winding down brings about. -/
def Call.winding : Call → Prop
  | .keycloak (.enableUser _) => False
  | .keycloak (.deleteUser _) => False
  | .mas (.reactivateUser _) => False
  | .synapse (.forceJoinUser ..) => False
  | _ => True

/-- Every account that is down in the earlier world is down in the later one, as far
as it is there at all: the records, logins, MAS accounts, sessions and memberships
have nothing back that had been taken from them. -/
structure Kept (w w' : World) : Prop where
  user : ∀ id u, w.realm.byId id = some u → ∃ u',
    w'.realm.byId id = some u' ∧ u'.username = u.username ∧
      (u.enabled = false → u'.enabled = false)
  loggedOut : ∀ id, w.loggedIn id = false → w'.loggedIn id = false
  account : ∀ n a', w'.accounts.byName n = some a' → ∃ a,
    w.accounts.byName n = some a ∧ a'.id = a.id ∧
      (a.deactivatedAt.isSome → a'.deactivatedAt.isSome)
  session : ∀ id, ∀ s' ∈ w'.sessions id, ∃ s ∈ w.sessions id,
    s'.id = s.id ∧ s'.sessionType = s.sessionType ∧
      (s.finishedAt.isSome → s'.finishedAt.isSome)
  member : ∀ r u, u ∈ w'.members r → u ∈ w.members r
  children : w'.children = w.children

namespace Kept

variable {w w' w'' : World}

theorem refl (w : World) : Kept w w where
  user _ u h := ⟨u, h, rfl, id⟩
  loggedOut _ h := h
  account _ a h := ⟨a, h, rfl, id⟩
  session _ s h := ⟨s, h, rfl, rfl, id⟩
  member _ _ h := h
  children := rfl

theorem trans (h : Kept w w') (h' : Kept w' w'') : Kept w w'' where
  user id u hu := by
    obtain ⟨u', hu', hname, hen⟩ := h.user id u hu
    obtain ⟨u'', hu'', hname', hen'⟩ := h'.user id u' hu'
    exact ⟨u'', hu'', hname'.trans hname, fun he => hen' (hen he)⟩
  loggedOut id hl := h'.loggedOut id (h.loggedOut id hl)
  account n a ha := by
    obtain ⟨a', ha', hid, hd⟩ := h'.account n a ha
    obtain ⟨a'', ha'', hid', hd'⟩ := h.account n a' ha'
    exact ⟨a'', ha'', hid.trans hid', fun hs => hd (hd' hs)⟩
  session id s hs := by
    obtain ⟨s', hs', hid, hty, hf⟩ := h'.session id s hs
    obtain ⟨s'', hs'', hid', hty', hf'⟩ := h.session id s' hs'
    exact ⟨s'', hs'', hid.trans hid', hty.trans hty', fun h => hf (hf' h)⟩
  member r u hu := h.member r u (h'.member r u hu)
  children := h'.children.trans h.children

/-! ## The goals are kept -/

theorem disabled (h : Kept w w') {id : String} (hd : w.Disabled id) :
    w'.Disabled id := by
  obtain ⟨u, hu, he⟩ := hd
  obtain ⟨u', hu', -, he'⟩ := h.user id u hu
  exact ⟨u', hu', he' he⟩

theorem sessionFree (h : Kept w w') {n : String} (hf : w.SessionFree n) :
    w'.SessionFree n := by
  intro a' ha' s' hs'
  obtain ⟨a, ha, hid, -⟩ := h.account n a' ha'
  obtain ⟨s, hs, -, -, hs'f⟩ := h.session a'.id s' hs'
  exact hs'f (hf a ha s (hid ▸ hs))

theorem masClosed (h : Kept w w') {n : String} (hc : w.MasClosed n) :
    w'.MasClosed n := by
  intro a' ha'
  obtain ⟨a, ha, -, hd⟩ := h.account n a' ha'
  exact hd (hc a ha)

theorem targets (h : Kept w w') (b : PolicyBinding) :
    w'.targets b = w.targets b := by rw [World.targets_congr h.children]

theorem outOf (h : Kept w w') {bs : List PolicyBinding} {u : String}
    (ho : w.OutOf bs u) : w'.OutOf bs u := by
  intro b hb r hr hu
  rw [h.targets] at hr
  exact ho b hb r hr (h.member r u hu)

end Kept

/-! ## One call -/

theorem kept_setEnabled {w : World} {id : String} :
    Kept w (w.setEnabled id false) :=
  { Kept.refl w with
    user := by
      intro j u hu
      refine ⟨_, World.byId_setEnabled hu, ?_, ?_⟩
      · split
        · rfl
        · rfl
      · intro he
        split
        · rfl
        · exact he }

theorem kept_logout {w : World} {id : String} : Kept w (w.logout id) :=
  { Kept.refl w with
    loggedOut := by
      intro j hj
      show (if j = id then false else w.loggedIn j) = false
      rw [hj, ite_self] }

theorem kept_deactivate {w : World} {id : String} : Kept w (w.deactivate id) :=
  { Kept.refl w with
    account := by
      intro n a' ha'
      obtain ⟨a, ha, rfl⟩ := World.byName_setDeactivated ha'
      refine ⟨a, ha, ?_, ?_⟩
      · split
        · rfl
        · rfl
      · intro hd
        split
        · rfl
        · exact hd
    session := fun _ _ => World.mem_sessions_deactivate }

theorem kept_finish {w : World} {i t : String} : Kept w (w.finish i t) :=
  { Kept.refl w with
    session := by
      intro id s' hs'
      obtain ⟨s, hs, rfl⟩ := List.mem_map.1 hs'
      refine ⟨s, hs, ?_, ?_, ?_⟩
      · split
        · rfl
        · rfl
      · split
        · rfl
        · rfl
      · intro hf
        split
        · rfl
        · exact hf }

theorem kept_kick {w : World} {u r : String} : Kept w (w.kick u r) :=
  { Kept.refl w with
    member := by
      intro r' u' hu'
      have hmem : u' ∈ if r' = r then (w.members r').filter fun v => v ≠ u
          else w.members r' := hu'
      split at hmem
      · exact (List.mem_filter.1 hmem).1
      · exact hmem }

/-- A call that winds down keeps everything, whatever becomes of it. -/
theorem step_kept {Allowed : World → Fault → Prop} {w w' : World} {c : Call} {x : Answer c}
    (h : (World.days Allowed).step w c x w') (hc : c.winding) : Kept w w' := by
  cases World.step_change h with
  | none => exact Kept.refl w
  | logout id => exact kept_logout
  | disable id => exact kept_setEnabled
  | enable id => exact False.elim hc
  | erase id => exact False.elim hc
  | finish i t => exact kept_finish
  | deactivate id => exact kept_deactivate
  | reactivate id => exact False.elim hc
  | join u r => exact False.elim hc
  | kick u r why => exact kept_kick
  | power r u level => exact { Kept.refl w with }
  | record entry => exact { Kept.refl w with }

/-- Somebody who was kicked is out. -/
theorem not_mem_kicked {Allowed : World → Fault → Prop} {w w' : World} {m r why : String}
    {u : Unit} (h : (World.days Allowed).step w (.synapse (.kickUserFromRoom m r why)) (.ok u) w') :
    m ∉ w'.members r := by
  have hkicked : w.kick m r = w' := congrArg Prod.snd (World.step_ok h (by simp))
  rw [← hkicked]
  show m ∉ if r = r then (w.members r).filter fun v => v ≠ m else w.members r
  simp

end MatrixIdentityAdmin.Ref
