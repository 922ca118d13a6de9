import MatrixIdentityAdmin.Proofs.Steady
import MatrixIdentityAdmin.Spec.UserParts

/-!
# The world in parts

A call about a user is answered from that user's part of the world, changes
nothing outside it, and changes it in a way that depends on nothing else. What
makes this true are the keys: usernames, account ids and session ids stay what
they were (`Unmoved`), so who a call is about can be read off the world a
request started from, however much has happened since.
-/

namespace MatrixIdentityAdmin.Ref

open MatrixIdentityAdmin.Lib

variable {w₀ w w' w'' r : World} {domain j k n : String}

/-! ## What never changes -/

namespace World

theorem Named.inj (hj : w.Named j n) (hk : w.Named k n) : j = k := by
  obtain ⟨u, hu, hun⟩ := hj
  obtain ⟨v, hv, hvn⟩ := hk
  rw [Directory.byId_some] at hu hv
  have huv : u = v :=
    List.inj_on_of_nodup_map w.realm.names hu.1 hv.1 (hun.trans hvn.symm)
  rw [← hu.2, ← hv.2, huv]

theorem HasAccount.inj {id : String} (hj : w.HasAccount j id)
    (hk : w.HasAccount k id) : j = k := by
  obtain ⟨n, a, hn, ha, haid⟩ := hj
  obtain ⟨n', b, hn', hb, hbid⟩ := hk
  rw [Directory.byName_some] at ha hb
  have hab : a = b :=
    List.inj_on_of_nodup_map w.accounts.ids ha.1 hb.1 (haid.trans hbid.symm)
  have hname : n = n' := by rw [← ha.2, ← hb.2, hab]
  exact hn.inj (hname ▸ hn')

theorem byId_switched {id : String} {e : Bool} :
    (w.setEnabled id e).realm.byId k =
      (w.realm.byId k).map fun u => if u.id = id then switchOn e u else u :=
  Directory.byId_modify_eq (f := switchOn e) (fun _ => rfl) fun _ => rfl

theorem byName_stamped {id : String} {t : Option String} :
    (w.setDeactivated id t).accounts.byName n =
      (w.accounts.byName n).map fun a => if a.id = id then stamp t a else a :=
  Directory.byName_modify_eq (f := stamp t) (fun _ => rfl) fun _ => rfl

end World

/-- The keys of accounts and sessions are what they were, and so is all that no
call changes. -/
structure Unmoved (w w' : World) : Prop where
  steady : Steady w w'
  now : w'.now = w.now
  accounts : ∀ n, (w'.accounts.byName n).map MasUser.id =
    (w.accounts.byName n).map MasUser.id
  sessions : ∀ id, ∀ s' ∈ w'.sessions id, ∃ s ∈ w.sessions id,
    s.id = s'.id ∧ s.sessionType = s'.sessionType

namespace Unmoved

theorem refl (w : World) : Unmoved w w where
  steady := .refl w
  now := rfl
  accounts _ := rfl
  sessions _ s hs := ⟨s, hs, rfl, rfl⟩

theorem trans (h : Unmoved w w') (h' : Unmoved w' w'') : Unmoved w w'' where
  steady := h.steady.trans h'.steady
  now := h'.now.trans h.now
  accounts n := (h'.accounts n).trans (h.accounts n)
  sessions id s'' hs'' := by
    obtain ⟨s', hs', hid', hty'⟩ := h'.sessions id s'' hs''
    obtain ⟨s, hs, hid, hty⟩ := h.sessions id s' hs'
    exact ⟨s, hs, hid.trans hid', hty.trans hty'⟩

/-- The account of a record is still there under its id. -/
theorem byId {id : String} (h : Unmoved w₀ w) (ha : w₀.HasAccount k id) :
    ∃ n a, w₀.Named k n ∧ w.accounts.byName n = some a ∧
      w.accounts.byId id = some a := by
  obtain ⟨n, a₀, hn, ha₀, rfl⟩ := ha
  have hmap := h.accounts n
  rw [ha₀, Option.map_some, Option.map_eq_some_iff] at hmap
  obtain ⟨a, ha, hid⟩ := hmap
  exact ⟨n, a, hn, ha, Directory.byId_some.2 ⟨(Directory.byName_some.1 ha).1, hid⟩⟩

theorem setDeactivated {id : String} {t : Option String} :
    Unmoved w (w.setDeactivated id t) :=
  { refl w with
    steady := { Steady.refl w with }
    accounts := by
      intro n
      rw [World.byName_stamped, Option.map_map]
      refine congrArg (fun f => (w.accounts.byName n).map f) (funext fun a => ?_)
      rw [Function.comp_apply]
      split
      · rfl
      · rfl }

theorem deactivate {id : String} : Unmoved w (w.deactivate id) :=
  have hkept : Unmoved w (w.setDeactivated id (some w.now)) := setDeactivated
  { hkept with
    steady := { Steady.refl w with }
    sessions := by
      intro i s' hs'
      obtain ⟨s, hs, hid, hty, -⟩ := World.mem_sessions_deactivate hs'
      exact ⟨s, hs, hid.symm, hty.symm⟩ }

theorem finish {i t : String} : Unmoved w (w.finish i t) :=
  { refl w with
    steady := { Steady.refl w with }
    sessions := by
      intro id s' hs'
      obtain ⟨s, hs, rfl⟩ := List.mem_map.1 hs'
      refine ⟨s, hs, ?_⟩
      split
      · exact ⟨rfl, rfl⟩
      · exact ⟨rfl, rfl⟩ }

end Unmoved

theorem step_unmoved {Allowed : World → Fault → Prop} {c : Call} {x : Answer c}
    (h : (World.days Allowed).step w c x w') : Unmoved w w' := by
  have hsteady := step_steady h
  cases World.step_change h with
  | none => exact Unmoved.refl w
  | logout id => exact { Unmoved.refl w with steady := hsteady }
  | disable id => exact { Unmoved.refl w with steady := hsteady }
  | enable id => exact { Unmoved.refl w with steady := hsteady }
  | erase id => exact { Unmoved.refl w with steady := hsteady }
  | finish i t => exact Unmoved.finish
  | deactivate id => exact Unmoved.deactivate
  | reactivate id => exact Unmoved.setDeactivated
  | join u r => exact { Unmoved.refl w with steady := hsteady }
  | kick u r why => exact { Unmoved.refl w with steady := hsteady }
  | power r u level => exact { Unmoved.refl w with steady := hsteady }
  | record entry => exact { Unmoved.refl w with steady := hsteady }

/-! ## Whose a call is -/

/-- The call is about the record `k`. -/
def Call.Concerns (w₀ : World) (domain k : String) : Call → Prop
  | .keycloak (.getUser id) | .keycloak (.getUserGroups id)
  | .keycloak (.getUserRoles id) | .keycloak (.logoutUser id)
  | .keycloak (.deleteUser id) | .keycloak (.disableUser id)
  | .keycloak (.enableUser id) => id = k
  | .keycloak (.searchUsers ..) | .keycloak (.countUsers _) => False
  | .mas (.getUserByUsername n) => w₀.Named k n
  | .mas (.listSessions id) | .mas (.deactivateUser id)
  | .mas (.reactivateUser id) => w₀.HasAccount k id
  | .mas (.finishSession id type) => w₀.HasSession k id type
  | .synapse (.getJoinedRoomMembers _) | .synapse (.getSpaceChildren _) => True
  | .synapse (.forceJoinUser u _) | .synapse (.kickUserFromRoom u _ _)
  | .synapse (.setPowerLevel _ u _) => ∃ n, w₀.Named k n ∧ u = matrixId n domain
  | .audit entry => entry.targetKeycloakUserId = some k
  | .policy _ => True

/-- Answers that are the same to the requests about the record `k`: they look
at a list of members for its Matrix id only. -/
def SameTo (w₀ : World) (domain k : String) : (c : Call) → Answer c → Answer c → Prop
  | .synapse (.getJoinedRoomMembers _), x, y => ∀ n, w₀.Named k n →
      Except.map (fun ms : List String => ms.contains (matrixId n domain)) x =
        Except.map (fun ms : List String => ms.contains (matrixId n domain)) y
  | _, x, y => x = y

/-- What is true of every answer, in view of what never changes. -/
def Told (w₀ : World) : (c : Call) → Answer c → Prop
  | .keycloak (.getUser id), .ok u => w₀.Named id u.username
  | .mas (.getUserByUsername n), .ok (some a) =>
      ∃ a₀, w₀.accounts.byName n = some a₀ ∧ a₀.id = a.id
  | .mas (.listSessions id), .ok l => ∀ s ∈ l.sessions, ∃ s₀ ∈ w₀.sessions id,
      s₀.id = s.id ∧ s₀.sessionType = s.sessionType
  | _, _ => True

theorem SameTo.refl (c : Call) (x : Answer c) : SameTo w₀ domain k c x x := by
  cases c with
  | synapse c =>
      cases c with
      | getJoinedRoomMembers r => exact fun _ _ => rfl
      | forceJoinUser u r => rfl
      | kickUserFromRoom u r why => rfl
      | getSpaceChildren r => rfl
      | setPowerLevel r u level => rfl
  | keycloak c => rfl
  | mas c => rfl
  | audit e => rfl
  | policy c => rfl

theorem step_told {Allowed : World → Fault → Prop} {c : Call} {x : Answer c}
    (h : Unmoved w₀ w) (hs : (World.days Allowed).step w c x w') : Told w₀ c x := by
  cases c with
  | keycloak c =>
      cases c with
      | getUser id =>
          cases x with
          | error e => trivial
          | ok u =>
              obtain ⟨hu, -⟩ := World.step_getUser hs
              obtain ⟨u₀, hu₀, hname⟩ := h.steady.names id u hu
              exact ⟨u₀, hu₀, hname.symm⟩
      | searchUsers q m f => trivial
      | countUsers q => trivial
      | getUserGroups id => trivial
      | getUserRoles id => trivial
      | logoutUser id => trivial
      | deleteUser id => trivial
      | disableUser id => trivial
      | enableUser id => trivial
  | mas c =>
      cases c with
      | getUserByUsername n =>
          cases x with
          | error e => trivial
          | ok found =>
              cases found with
              | none => trivial
              | some a =>
                  obtain ⟨ha, -⟩ := World.step_getUserByUsername hs
                  have hmap := h.accounts n
                  rw [ha, Option.map_some, eq_comm, Option.map_eq_some_iff] at hmap
                  exact hmap
      | listSessions id =>
          cases x with
          | error e => trivial
          | ok l => exact fun s hl => h.sessions id s (World.mem_active.1 (World.step_listed hs hl)).1
      | finishSession i t => trivial
      | deactivateUser id => trivial
      | reactivateUser id => trivial
  | synapse c => trivial
  | audit e => trivial
  | policy c => trivial

/-! ## What a call does to the part of its user

Each change, made in two worlds that look the same to the record, leaves worlds
that look the same to it. -/

namespace World

theorem mem_join {m u x y : String} :
    m ∈ (w.join u x).members y ↔ m ∈ w.members y ∨ (y = x ∧ m = u) := by
  show m ∈ (if y = x ∧ u ∉ w.members y then w.members y ++ [u]
    else w.members y) ↔ _
  split
  · next h => simp [h.1]
  · next h =>
      constructor
      · exact .inl
      · intro hor
        rcases hor with hm | ⟨hy, rfl⟩
        · exact hm
        · exact Classical.not_not.1 fun hm => h ⟨hy, hm⟩

theorem mem_kick {m u x y : String} :
    m ∈ (w.kick u x).members y ↔ m ∈ w.members y ∧ ¬ (y = x ∧ m = u) := by
  show m ∈ (if y = x then (w.members y).filter fun v => v ≠ u
    else w.members y) ↔ _
  split
  · next h => simp [h]
  · next h => simp [h]

theorem trail_record {entry : AuditEntry} :
    (w.record entry).trail k =
      w.trail k ++ if entry.targetKeycloakUserId = some k then [entry] else [] := by
  show (w.audit ++ [entry]).filter _ = _
  rw [List.filter_append, trail]
  split
  · next h => simp [h]
  · next h => simp [h]

namespace SamePart

theorem refl (w : World) : SamePart w₀ domain k w w where
  record := rfl
  login := rfl
  account _ _ := rfl
  sessions _ _ := rfl
  member _ _ _ := Iff.rfl
  power _ _ _ := rfl
  trail := rfl

theorem symm (h : SamePart w₀ domain k w w') : SamePart w₀ domain k w' w where
  record := h.record.symm
  login := h.login.symm
  account n hn := (h.account n hn).symm
  sessions id hid := (h.sessions id hid).symm
  member n r hn := (h.member n r hn).symm
  power n r hn := (h.power n r hn).symm
  trail := h.trail.symm

theorem trans (h : SamePart w₀ domain k w w') (h' : SamePart w₀ domain k w' w'') :
    SamePart w₀ domain k w w'' where
  record := h.record.trans h'.record
  login := h.login.trans h'.login
  account n hn := (h.account n hn).trans (h'.account n hn)
  sessions id hid := (h.sessions id hid).trans (h'.sessions id hid)
  member n r hn := (h.member n r hn).trans (h'.member n r hn)
  power n r hn := (h.power n r hn).trans (h'.power n r hn)
  trail := h.trail.trans h'.trail

variable (h : SamePart w₀ domain k w r)

include h

theorem active {id : String} (hid : w₀.HasAccount k id) : w.active id = r.active id := by
  rw [World.active, World.active, h.sessions id hid]

theorem logout {id : String} :
    SamePart w₀ domain k (w.logout id) (r.logout id) :=
  { h with login := congrArg (fun b => if k = id then false else b) h.login }

theorem setEnabled {id : String} {e : Bool} :
    SamePart w₀ domain k (w.setEnabled id e) (r.setEnabled id e) :=
  { h with record := by rw [byId_switched, byId_switched, h.record] }

theorem eraseUser : SamePart w₀ domain k (w.eraseUser k) (r.eraseUser k) :=
  { h with
    record := by
      show (w.realm.erase k).byId k = (r.realm.erase k).byId k
      rw [Directory.byId_erase_self, Directory.byId_erase_self] }

theorem finish {i t : String} (hnow : w.now = r.now) :
    SamePart w₀ domain k (w.finish i t) (r.finish i t) :=
  { h with
    sessions := by
      intro id hid
      show (w.sessions id).map _ = (r.sessions id).map _
      rw [h.sessions id hid, hnow] }

theorem setDeactivated {id : String} {t t' : Option String} (ht : t = t') :
    SamePart w₀ domain k (w.setDeactivated id t) (r.setDeactivated id t') :=
  { h with
    account := by
      intro n hn
      rw [byName_stamped, byName_stamped, h.account n hn, ht] }

theorem deactivate {id : String} (hnow : w.now = r.now) :
    SamePart w₀ domain k (w.deactivate id) (r.deactivate id) :=
  { h.setDeactivated (congrArg some hnow) with
    sessions := by
      intro i hi
      show (if i = id then (w.sessions i).map (ended w.now) else w.sessions i) =
        if i = id then (r.sessions i).map (ended r.now) else r.sessions i
      rw [h.sessions i hi, hnow] }

theorem join {u x : String} : SamePart w₀ domain k (w.join u x) (r.join u x) :=
  { h with
    member := by
      intro n y hn
      rw [mem_join, mem_join, h.member n y hn] }

theorem kick {u x : String} : SamePart w₀ domain k (w.kick u x) (r.kick u x) :=
  { h with
    member := by
      intro n y hn
      rw [mem_kick, mem_kick, h.member n y hn] }

theorem setPower {x u : String} {level : Int} :
    SamePart w₀ domain k (w.setPower x u level) (r.setPower x u level) :=
  { h with
    power := fun n y hn => congrArg
      (fun p => if y = x ∧ matrixId n domain = u then some level else p)
      (h.power n y hn) }

theorem recorded {entry : AuditEntry} :
    SamePart w₀ domain k (w.record entry) (r.record entry) :=
  { h with trail := by rw [trail_record, trail_record, h.trail] }

omit h

end SamePart

/-! ## The same call in two worlds -/

theorem withUser_same {α : Type} {a b : α} {w₁ r₁ : World} (hab : a = b)
    (h : SamePart w₀ domain k w r) (h₁ : SamePart w₀ domain k w₁ r₁) :
    (w.withUser k a w₁).1 = (r.withUser k b r₁).1 ∧
      SamePart w₀ domain k (w.withUser k a w₁).2 (r.withUser k b r₁).2 := by
  rw [withUser, withUser, h.record, hab]
  cases r.realm.byId k with
  | none => exact ⟨rfl, h⟩
  | some u => exact ⟨rfl, h₁⟩

theorem withAccount_same {id : String} {w₁ r₁ : World} (hw : Unmoved w₀ w)
    (hr : Unmoved w₀ r) (hid : w₀.HasAccount k id)
    (h₁ : SamePart w₀ domain k w₁ r₁) :
    (w.withAccount id w₁).1 = (r.withAccount id r₁).1 ∧
      SamePart w₀ domain k (w.withAccount id w₁).2 (r.withAccount id r₁).2 := by
  obtain ⟨n, a, hn, ha, hwid⟩ := hw.byId hid
  obtain ⟨n', b, hn', hb, hrid⟩ := hr.byId hid
  rw [withAccount, withAccount, hwid, hrid]
  exact ⟨rfl, h₁⟩

theorem serve_same {c : Call} (hw : Unmoved w₀ w) (hr : Unmoved w₀ r)
    (hc : c.Concerns w₀ domain k) (h : SamePart w₀ domain k w r) :
    SameTo w₀ domain k c (w.serve c).1 (r.serve c).1 ∧
      SamePart w₀ domain k (w.serve c).2 (r.serve c).2 := by
  have hnow : w.now = r.now := hw.now.trans hr.now.symm
  cases c with
  | keycloak c =>
      cases c with
      | searchUsers q m f => exact False.elim hc
      | countUsers q => exact False.elim hc
      | getUser id =>
          cases hc
          show (w.serveKeycloak (.getUser k)).1 = (r.serveKeycloak (.getUser k)).1 ∧
            SamePart w₀ domain k (w.serveKeycloak (.getUser k)).2
              (r.serveKeycloak (.getUser k)).2
          rw [serveKeycloak, serveKeycloak, h.record]
          cases r.realm.byId k with
          | none => exact ⟨rfl, h⟩
          | some u => exact ⟨rfl, h⟩
      | getUserGroups id =>
          cases hc
          have hgroups : w.groups k = r.groups k := by
            rw [hw.steady.groups, hr.steady.groups]
          exact withUser_same hgroups h h
      | getUserRoles id =>
          cases hc
          have hroles : w.roles k = r.roles k := by
            rw [hw.steady.roles, hr.steady.roles]
          exact withUser_same hroles h h
      | logoutUser id =>
          cases hc
          exact withUser_same rfl h h.logout
      | deleteUser id =>
          cases hc
          exact withUser_same rfl h h.eraseUser
      | disableUser id =>
          cases hc
          exact withUser_same rfl h h.setEnabled
      | enableUser id =>
          cases hc
          exact withUser_same rfl h h.setEnabled
  | mas c =>
      cases c with
      | getUserByUsername n => exact ⟨congrArg Except.ok (h.account n hc), h⟩
      | listSessions id =>
          refine ⟨?_, h⟩
          show Except.ok (SessionListResult.mk (w.active id) []) =
            Except.ok (SessionListResult.mk (r.active id) [])
          rw [h.active hc]
      | finishSession i t => exact ⟨rfl, h.finish hnow⟩
      | deactivateUser id => exact withAccount_same hw hr hc (h.deactivate hnow)
      | reactivateUser id =>
          exact withAccount_same hw hr hc (h.setDeactivated rfl)
  | synapse c =>
      cases c with
      | getJoinedRoomMembers x =>
          refine ⟨fun n hn => ?_, h⟩
          show Except.ok ((w.members x).contains _) = Except.ok ((r.members x).contains _)
          refine congrArg Except.ok ?_
          rw [List.contains_eq_mem, List.contains_eq_mem]
          exact decide_eq_decide.2 (h.member n x hn)
      | getSpaceChildren x =>
          refine ⟨?_, h⟩
          show Except.ok (w.children x) = Except.ok (r.children x)
          rw [hw.steady.children, hr.steady.children]
      | forceJoinUser u x => exact ⟨rfl, h.join⟩
      | kickUserFromRoom u x why => exact ⟨rfl, h.kick⟩
      | setPowerLevel x u level => exact ⟨rfl, h.setPower⟩
  | audit entry => exact ⟨rfl, h.recorded⟩
  | policy c =>
      cases c with
      | listBindings =>
          exact ⟨congrArg Except.ok (hw.steady.listed.trans hr.steady.listed.symm), h⟩

section

variable {Allowed : Fault → Prop}

/-- Whatever can happen to the call in the one world can happen in the other. -/
theorem step_same {c : Call} {x : Answer c} (hw : Unmoved w₀ w)
    (hr : Unmoved w₀ r) (hc : c.Concerns w₀ domain k)
    (h : SamePart w₀ domain k w r) (hs : (days fun _ => Allowed).step w c x w') :
    ∃ y r', (days fun _ => Allowed).step r c y r' ∧ SameTo w₀ domain k c x y ∧
      SamePart w₀ domain k w' r' := by
  obtain ⟨fault, hallowed, hs⟩ := hs
  obtain ⟨hanswer, hpart⟩ := serve_same hw hr hc h
  suffices H : SameTo w₀ domain k c (w.respond fault c).1 (r.respond fault c).1 ∧
      SamePart w₀ domain k (w.respond fault c).2 (r.respond fault c).2 by
    rw [hs] at H
    exact ⟨_, _, ⟨fault, hallowed, rfl⟩, H.1, H.2⟩
  cases fault with
  | none => exact ⟨hanswer, hpart⟩
  | fails e tookEffect =>
      refine ⟨SameTo.refl c _, ?_⟩
      cases tookEffect with
      | false => exact h
      | true => exact hpart
  | short warnings cut hcut =>
      by_cases hlist : ∃ id, c = .mas (.listSessions id)
      · obtain ⟨id, rfl⟩ := hlist
        refine ⟨?_, h⟩
        show Except.ok (SessionListResult.mk (cut (w.active id)) warnings) =
          Except.ok (SessionListResult.mk (cut (r.active id)) warnings)
        rw [h.active hc]
      · rw [respond_short fun id hid => hlist ⟨id, hid⟩,
          respond_short fun id hid => hlist ⟨id, hid⟩]
        exact ⟨hanswer, hpart⟩

end

/-! ## The parts of the others -/

theorem matrixId_ne {n' : String} (hj : w₀.Named j n) (hk : w₀.Named k n')
    (hne : j ≠ k) : matrixId n domain ≠ matrixId n' domain := by
  intro heq
  rw [matrixId_inj heq] at hj
  exact hne (hj.inj hk)

/-- What a change of the record `k` leaves as it was for the record `j`. -/
theorem switched_frame {e : Bool} (hne : j ≠ k) :
    SamePart w₀ domain j w (w.setEnabled k e) :=
  { SamePart.refl w with
    record := by
      rw [byId_switched]
      cases hu : w.realm.byId j with
      | none => rfl
      | some u =>
          have hid : u.id ≠ k := by
            rw [(Directory.byId_some.1 hu).2]
            exact hne
          rw [Option.map_some, if_neg hid] }

theorem stamped_frame {id : String} {t : Option String} (hw : Unmoved w₀ w)
    (hc : w₀.HasAccount k id) (hne : j ≠ k) :
    SamePart w₀ domain j w (w.setDeactivated id t) :=
  { SamePart.refl w with
    account := by
      intro n hn
      rw [byName_stamped]
      cases ha : w.accounts.byName n with
      | none => rfl
      | some a =>
          have hid : a.id ≠ id := by
            intro hid
            have hmap := hw.accounts n
            rw [ha, Option.map_some, eq_comm, Option.map_eq_some_iff] at hmap
            obtain ⟨a₀, ha₀, hid₀⟩ := hmap
            exact hne (HasAccount.inj ⟨n, a₀, hn, ha₀, hid₀.trans hid⟩ hc)
          rw [Option.map_some, if_neg hid] }

theorem deactivate_frame {id : String} (hw : Unmoved w₀ w)
    (hc : w₀.HasAccount k id) (hne : j ≠ k) :
    SamePart w₀ domain j w (w.deactivate id) :=
  { stamped_frame hw hc hne with
    sessions := by
      intro i hi
      have hother : i ≠ id := fun heq => hne (HasAccount.inj (heq ▸ hi) hc)
      show w.sessions i = if i = id then _ else w.sessions i
      rw [if_neg hother] }

theorem finish_frame {i t : String} (hw : Unmoved w₀ w)
    (hapart : w₀.SessionsApart) (hc : w₀.HasSession k i t) (hne : j ≠ k) :
    SamePart w₀ domain j w (w.finish i t) :=
  { SamePart.refl w with
    sessions := by
      intro id hid
      obtain ⟨masId, hmas, s₀, hs₀, rfl, rfl⟩ := hc
      have hother : ∀ s ∈ w.sessions id,
          ¬ (s.id = s₀.id ∧ s.sessionType = s₀.sessionType) := by
        intro s hs hkey
        obtain ⟨s₁, hs₁, hid₁, hty₁⟩ := hw.sessions id s hs
        have hmasId : id = masId := hapart id masId s₁ hs₁ s₀ hs₀
          (hid₁.trans hkey.1) (hty₁.trans hkey.2)
        rw [hmasId] at hid
        exact hne (hid.inj hmas)
      show w.sessions id = (w.sessions id).map _
      rw [List.map_congr_left fun s hs => if_neg (hother s hs), List.map_id'] }

/-- A call about one record leaves every other one alone. -/
theorem step_frame {Allowed : World → Fault → Prop} {c : Call} {x : Answer c}
    (hapart : w₀.SessionsApart) (hw : Unmoved w₀ w) (hc : c.Concerns w₀ domain k)
    (hne : j ≠ k) (hs : (days Allowed).step w c x w') : SamePart w₀ domain j w w' := by
  have hout : ∀ {n n' : String}, w₀.Named j n → w₀.Named k n' →
      matrixId n domain ≠ matrixId n' domain := fun hj hk => matrixId_ne hj hk hne
  cases step_change hs with
  | none => exact SamePart.refl w
  | logout id =>
      cases hc
      exact { SamePart.refl w with login := (if_neg hne).symm }
  | disable id =>
      cases hc
      exact switched_frame hne
  | enable id =>
      cases hc
      exact switched_frame hne
  | erase id =>
      cases hc
      exact { SamePart.refl w with
        record := (Directory.byId_erase_of_ne hne).symm }
  | finish i t => exact finish_frame hw hapart hc hne
  | deactivate id => exact deactivate_frame hw hc hne
  | reactivate id => exact stamped_frame hw hc hne
  | join u y =>
      obtain ⟨n', hk, rfl⟩ := hc
      exact { SamePart.refl w with
        member := fun n x hn => by simp [mem_join, hout hn hk] }
  | kick u y why =>
      obtain ⟨n', hk, rfl⟩ := hc
      exact { SamePart.refl w with
        member := fun n x hn => by simp [mem_kick, hout hn hk] }
  | power y u level =>
      obtain ⟨n', hk, rfl⟩ := hc
      exact { SamePart.refl w with
        power := fun n x hn => (if_neg fun h => hout hn hk h.2).symm }
  | record entry =>
      have hentry : ¬ entry.targetKeycloakUserId = some j := by
        rw [show entry.targetKeycloakUserId = some k from hc, Option.some.injEq]
        exact Ne.symm hne
      exact { SamePart.refl w with
        trail := by rw [trail_record, if_neg hentry, List.append_nil] }

end World

/-- The parts of the world, by Keycloak id, whatever can happen on such a day. -/
def userParts (Allowed : Fault → Prop) (domain : String) (w₀ : World)
    (hapart : w₀.SessionsApart) : Parts String (World.days fun _ => Allowed) where
  inv := Unmoved w₀
  told := Told w₀
  own := Call.Concerns w₀ domain
  alike := SameTo w₀ domain
  agree := World.SamePart w₀ domain
  refl _ := .refl
  symm h := h.symm
  trans h h' := h.trans h'
  kept hw hs := hw.trans (step_unmoved hs)
  truth hw hs := step_told hw hs
  frame hw hc hs hne := World.step_frame hapart hw hc hne hs
  mimic hw hr hc h hs := World.step_same hw hr hc h hs

end MatrixIdentityAdmin.Ref
