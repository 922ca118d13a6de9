import MatrixIdentityAdmin.Lib.Exec
import MatrixIdentityAdmin.Proofs.PolicyRefine
import MatrixIdentityAdmin.Spec.Bootstrap

/-!
# When the import drops a mapping

An insert that fails is passed over, whatever it failed of. So a mapping is in
the table afterwards if its pair was bound before or one of the inserts for it
was let through, and the marker is set either way unless the first statement or
the last one fails.
-/

namespace MatrixIdentityAdmin.Ref

open MatrixIdentityAdmin.Lib

namespace Database

variable {faults : Faults} {d d' : Database} {n : Nat} {m : GroupMapping}

/-! ## Statements on schedule -/

theorem wp_scheduled {α : Type} {s : Statement} {k : Result s.Ret → Store α}
    {Q : α → Database × Nat → Prop}
    (hfails : ∀ e, faults n = some e → (k (.error e)).wp (scheduled faults) (d, n + 1) Q)
    (hruns : faults n = none → ∀ refusal r d', d.run refusal s = (r, d') →
      (k r).wp (scheduled faults) (d', n + 1) Q) :
    (Prog.call (.sql s) k).wp (scheduled faults) (d, n) Q := by
  refine ⟨trivial, fun x s' hstep => ?_⟩
  obtain ⟨d', n'⟩ := s'
  obtain ⟨hn, hx⟩ := hstep
  obtain rfl : n' = n + 1 := hn
  cases he : faults n with
  | some e =>
      simp only [he] at hx
      obtain ⟨rfl, rfl⟩ := hx
      exact hfails e he
  | none =>
      simp only [he] at hx
      obtain ⟨refusal, hrun⟩ := hx
      exact hruns he refusal x d' hrun

/-- An id longer than any in use. -/
def unusedId (d : Database) : String :=
  (d.bindings.rows.map BindingRow.id).foldr (· ++ ·) "" ++ "x"

theorem fresh_unusedId (d : Database) : d.Fresh d.unusedId := by
  have hlonger : ∀ ids : List String, ∀ id ∈ ids,
      id.length ≤ (ids.foldr (· ++ ·) "").length := by
    intro ids
    induction ids with
    | nil => exact fun id hid => absurd hid List.not_mem_nil
    | cons head ids ih =>
        intro id hid
        rw [List.foldr_cons, String.length_append]
        rcases List.mem_cons.1 hid with rfl | hid
        · omega
        · have hle := ih id hid
          omega
  intro r hr heq
  have hle := hlonger _ r.id (List.mem_map_of_mem hr)
  have hone : "x".length = 1 := rfl
  rw [heq, unusedId, String.length_append, hone] at hle
  omega

/-- A day the schedule allows. -/
def someDay (faults : Faults) (s : Database × Nat) :
    (c : StoreCall) → c.Answer × (Database × Nat)
  | .sql statement =>
      match faults s.2 with
      | some e => (.error e, (s.1, s.2 + 1))
      | none => ((s.1.run "" statement).1, ((s.1.run "" statement).2, s.2 + 1))
  | .newUuid => (s.1.unusedId, s)
  | .now => ("", s)

theorem step_someDay (s : Database × Nat) (c : StoreCall) :
    (scheduled faults).step s c (someDay faults s c).1 (someDay faults s c).2 := by
  cases c with
  | sql statement =>
      cases hfault : faults s.2 with
      | some e =>
          have hday : someDay faults s (.sql statement) = (.error e, (s.1, s.2 + 1)) := by
            rw [someDay, hfault]
          rw [hday]
          refine ⟨rfl, ?_⟩
          rw [hfault]
          exact ⟨rfl, rfl⟩
      | none =>
          have hday : someDay faults s (.sql statement) =
              ((s.1.run "" statement).1, ((s.1.run "" statement).2, s.2 + 1)) := by
            rw [someDay, hfault]
          rw [hday]
          refine ⟨rfl, ?_⟩
          rw [hfault]
          exact ⟨"", rfl⟩
  | newUuid => exact ⟨fresh_unusedId s.1, rfl⟩
  | now => rfl

/-- A start always comes to an end. -/
theorem exists_starts (faults : Faults) (mappings : List GroupMapping) (source : String)
    (d : Database) : ∃ r d', Starts faults mappings source d r d' :=
  ⟨_, _, _, _, Prog.exec_runs, Prog.exec_path step_someDay⟩

/-! ## Pairs -/

/-- Some binding has the pair of the mapping. -/
def Taken (d : Database) (m : GroupMapping) : Prop :=
  ∃ r ∈ d.bindings.rows, r.boundKey = ["group", m.keycloakGroup, m.matrixRoomId]

theorem pair_iff {r : BindingRow} (hr : r ∈ d.bindings.rows) :
    r.boundKey = ["group", m.keycloakGroup, m.matrixRoomId] ↔
      r.toBinding.subject = .group m.keycloakGroup ∧
        r.toBinding.target.roomId = m.matrixRoomId :=
  @BindingRow.Checked.boundKey_eq r (d.bindings.checked r hr) (.group m.keycloakGroup) m.matrixRoomId

/-- A pair is bound as a room or as a space. -/
theorem taken_iff : d.Taken m ↔ d.HasRoom m ∨ d.HasSpace m := by
  constructor
  · intro h
    obtain ⟨r, hr, hkey⟩ := h
    obtain ⟨hsubject, hroom⟩ := (pair_iff hr).1 hkey
    cases htarget : r.toBinding.target with
    | room id => exact .inl ⟨r, hr, hsubject, by rw [htarget] at hroom ⊢; rw [← hroom]; rfl⟩
    | space id => exact .inr ⟨r, hr, hsubject, by rw [htarget] at hroom ⊢; rw [← hroom]; rfl⟩
  · intro h
    rcases h with ⟨r, hr, hsubject, htarget⟩ | ⟨r, hr, hsubject, htarget⟩
    · exact ⟨r, hr, (pair_iff hr).2 ⟨hsubject, by rw [htarget]; rfl⟩⟩
    · exact ⟨r, hr, (pair_iff hr).2 ⟨hsubject, by rw [htarget]; rfl⟩⟩

/-- It is not both. -/
theorem HasRoom.not_hasSpace (h : d.HasRoom m) : ¬ d.HasSpace m := by
  intro hspace
  obtain ⟨r, hr, hsubject, htarget⟩ := h
  obtain ⟨r', hr', hsubject', htarget'⟩ := hspace
  have hkey := (pair_iff hr).2 ⟨hsubject, by rw [htarget]; rfl⟩
  have hkey' := (pair_iff hr').2 ⟨hsubject', by rw [htarget']; rfl⟩
  obtain rfl := KeyedTable.eq_of_key boundKey_key hr hr' (hkey.trans hkey'.symm)
  rw [htarget] at htarget'
  cases htarget'

theorem toBinding_room {r : BindingRow} (h : r.targetType = "room") :
    r.toBinding.target = .room r.targetRoomId := by simp [BindingRow.toBinding, h]

/-- More rows, none of them for a space. -/
def Extends (d d' : Database) : Prop :=
  ∃ added, d'.bindings.rows = d.bindings.rows ++ added ∧
    ∀ r ∈ added, r.targetType = "room"

theorem Extends.refl (d : Database) : d.Extends d :=
  ⟨[], (List.append_nil _).symm, fun _ hr => absurd hr List.not_mem_nil⟩

theorem Extends.hasSpace (h : d.Extends d') : d'.HasSpace m ↔ d.HasSpace m := by
  obtain ⟨added, hrows, hrooms⟩ := h
  constructor
  · intro hspace
    obtain ⟨r, hr, hsubject, htarget⟩ := hspace
    rw [hrows] at hr
    rcases List.mem_append.1 hr with hr | hr
    · exact ⟨r, hr, hsubject, htarget⟩
    · rw [toBinding_room (hrooms r hr)] at htarget
      cases htarget
  · intro hspace
    obtain ⟨r, hr, hbound⟩ := hspace
    exact ⟨r, hrows ▸ List.mem_append_left _ hr, hbound⟩

/-- The room of a mapping is bound where its pair is taken, by no space. -/
theorem Extends.hasRoom (h : d.Extends d') :
    d'.HasRoom m ↔ d'.Taken m ∧ ¬ d.HasSpace m := by
  rw [← h.hasSpace, taken_iff]
  constructor
  · intro hroom
    exact ⟨.inl hroom, hroom.not_hasSpace⟩
  · intro hall
    exact hall.1.resolve_right hall.2

/-! ## The loop -/

theorem letThrough_concat {done : List GroupMapping} {m m' : GroupMapping} :
    LetThrough faults (done ++ [m]) m' ↔
      LetThrough faults done m' ∨ (m = m' ∧ faults (done.length + 1) = none) := by
  constructor
  · intro h
    obtain ⟨i, hi, hfault⟩ := h
    rcases Nat.lt_or_ge i done.length with hlt | hge
    · rw [List.getElem?_append_left hlt] at hi
      exact .inl ⟨i, hi, hfault⟩
    · rw [List.getElem?_append_right hge, List.getElem?_singleton] at hi
      split at hi
      · next hzero =>
          obtain rfl : i = done.length := by omega
          exact .inr ⟨Option.some.inj hi, hfault⟩
      · cases hi
  · intro h
    rcases h with ⟨i, hi, hfault⟩ | ⟨rfl, hfault⟩
    · obtain ⟨hlt, -⟩ := List.getElem?_eq_some_iff.1 hi
      exact ⟨i, by rw [List.getElem?_append_left hlt, hi], hfault⟩
    · exact ⟨done.length, List.getElem?_concat_length .., hfault⟩

/-- After the mappings `done`, counting the statement before the loop. -/
structure Filled (faults : Faults) (d : Database) (done : List GroupMapping)
    (s : Database × Nat) : Prop where
  sent : s.2 = done.length + 1
  bootstrap : s.1.bootstrap = d.bootstrap
  grown : d.Extends s.1
  taken : ∀ m, s.1.Taken m ↔ d.Taken m ∨ LetThrough faults done m

/-- A row for a mapping. -/
def row (id now : String) (m : GroupMapping) : BindingRow :=
  ⟨id, "group", m.keycloakGroup, "room", m.matrixRoomId, none, false, now, now⟩

/-- Under a fresh id it does not fit where its pair is taken, and only there. -/
theorem fits_row {id now : String} (hfresh : d.Fresh id) :
    d.bindings.Fits (row id now m) ↔ ¬ d.Taken m :=
  (@fits_newRow d (.group m.keycloakGroup) (.room m.matrixRoomId) none false id now
    hfresh).trans (not_congr store_taken)

theorem Filled.pass {done : List GroupMapping} (h : Filled faults d done (d', n))
    (hpass : faults n = none → d'.Taken m) : Filled faults d (done ++ [m]) (d', n + 1) := by
  have hn : n = done.length + 1 := h.sent
  refine ⟨?_, h.bootstrap, h.grown, fun m' => ?_⟩
  · rw [List.length_append, List.length_singleton, hn]
  · rw [letThrough_concat, ← hn, ← or_assoc, ← h.taken]
    constructor
    · exact .inl
    · intro hin
      rcases hin with hin | ⟨rfl, hnone⟩
      · exact hin
      · exact hpass hnone

theorem Filled.add {done : List GroupMapping} (h : Filled faults d done (d', n))
    {id now : String} {bindings : Bindings}
    (hrows : bindings.rows = d'.bindings.rows ++ [row id now m]) (hnone : faults n = none) :
    Filled faults d (done ++ [m]) ({ d' with bindings := bindings }, n + 1) := by
  have hn : n = done.length + 1 := h.sent
  obtain ⟨added, hgrown, hrooms⟩ := h.grown
  refine ⟨?_, h.bootstrap, ⟨added ++ [row id now m], ?_, ?_⟩, fun m' => ?_⟩
  · rw [List.length_append, List.length_singleton, hn]
  · show bindings.rows = _
    rw [hrows, ← List.append_assoc, ← hgrown]
  · exact List.forall_mem_append.2 ⟨hrooms, List.forall_mem_singleton.2 rfl⟩
  · rw [letThrough_concat, ← hn, ← or_assoc, ← h.taken]
    have hkey : (row id now m).boundKey = ["group", m'.keycloakGroup, m'.matrixRoomId] ↔
        m = m' := by
      cases m
      cases m'
      simp [row, BindingRow.boundKey]
    constructor
    · intro htaken
      obtain ⟨r, hr, hpair⟩ := htaken
      rw [hrows, List.mem_append, List.mem_singleton] at hr
      rcases hr with hr | rfl
      · exact .inl ⟨r, hr, hpair⟩
      · exact .inr ⟨hkey.1 hpair, hnone⟩
    · intro hin
      rcases hin with ⟨r, hr, hpair⟩ | ⟨rfl, -⟩
      · exact ⟨r, hrows ▸ List.mem_append_left _ hr, hpair⟩
      · exact ⟨_, hrows ▸ List.mem_append_right _ List.mem_cons_self, rfl⟩

theorem importMapping_filled {now : String} {count : Nat} {done : List GroupMapping}
    {s : Database × Nat} (h : Filled faults d done s) :
    (PolicyService.importMapping now count m).wp (scheduled faults) s fun _ s' =>
      Filled faults d (done ++ [m]) s' := by
  obtain ⟨d', n⟩ := s
  refine ⟨trivial, fun id s' hstep => ?_⟩
  obtain ⟨hfresh, rfl⟩ := hstep
  refine wp_scheduled (fun e he => ?_) fun hnone refusal r d'' hrun => ?_
  · exact h.pass fun hnone => by rw [he] at hnone; cases hnone
  · rcases run_insert hrun with ⟨-, rfl, bindings, rfl, hrows⟩ | ⟨hunfit, rfl, rfl⟩
    · exact h.add hrows hnone
    · refine h.pass fun _ => ?_
      by_contra hfree
      exact hunfit ((fits_row hfresh).2 hfree)

/-- What a start without a marker comes to. -/
structure Started (faults : Faults) (mappings : List GroupMapping) (d : Database)
    (r : Result Nat) (d' : Database) : Prop where
  grown : d.Extends d'
  /-- The marker is set if neither the first statement fails nor the last. -/
  marked : d'.bootstrap.isSome = true ↔
    faults 0 = none ∧ faults (mappings.length + 1) = none
  answered : r.isOk = d'.bootstrap.isSome
  taken : d'.bootstrap.isSome = true →
    ∀ m, d'.Taken m ↔ d.Taken m ∨ LetThrough faults mappings m

theorem Started.unmarked {mappings : List GroupMapping} {e : AppError}
    (hgrown : d.Extends d') (hd' : d'.bootstrap = none)
    (hfault : ¬ (faults 0 = none ∧ faults (mappings.length + 1) = none)) :
    Started faults mappings d (.error e) d' where
  grown := hgrown
  marked := by
    rw [hd']
    exact iff_of_false (by decide) hfault
  answered := by
    rw [hd']
    rfl
  taken h := by
    rw [hd'] at h
    cases h

theorem filled_nil : Filled faults d [] (d, 1) where
  sent := rfl
  bootstrap := rfl
  grown := .refl d
  taken m := by
    have hno : ¬ LetThrough faults [] m := by
      intro h
      obtain ⟨i, hi, -⟩ := h
      cases hi
    rw [or_iff_left hno]

theorem starts_started {mappings : List GroupMapping} {source : String} {r : Result Nat}
    (hd : d.bootstrap = none) (hstart : Starts faults mappings source d r d') :
    Started faults mappings d r d' := by
  obtain ⟨t, n, hr, hpath⟩ := hstart
  suffices hall : (PolicyService.bootstrapFromEnv mappings source).wp (scheduled faults) (d, 0)
      fun r s => Started faults mappings d r s.1 from Prog.wp_reaches hall hr hpath
  refine wp_scheduled (fun e he => ?_) fun hfirst refusal r d₁ hrun => ?_
  · refine .unmarked (.refl d) hd fun hnone => ?_
    rw [he] at hnone
    cases hnone.1
  obtain ⟨rfl, rfl⟩ := Prod.mk.inj hrun
  rw [hd]
  refine ⟨trivial, fun now s' hs' => ?_⟩
  obtain rfl : s' = (d, 1) := hs'
  change Prog.wp _ (mappings.foldlM (PolicyService.importMapping now) 0 >>= _) _ _
  refine Prog.wp_seq (Prog.wp_foldlM (fun done _ s => Filled faults d done s)
    (fun done m _ _ count s h => importMapping_filled h) filled_nil) ?_
  intro count s h
  obtain ⟨d₂, n₂⟩ := s
  obtain rfl : n₂ = mappings.length + 1 := h.sent
  refine wp_scheduled (fun e he => ?_) fun hlast refusal r d₃ hrun => ?_
  · refine .unmarked h.grown (h.bootstrap.trans hd) fun hnone => ?_
    rw [he] at hnone
    cases hnone.2
  · obtain ⟨rfl, rfl⟩ := Prod.mk.inj hrun
    exact ⟨h.grown, ⟨fun _ => ⟨hfirst, hlast⟩, fun _ => rfl⟩, rfl, fun _ => h.taken⟩

/-! ## Both ways -/

section

variable {mappings : List GroupMapping} {source : String} {r : Result Nat}

theorem letThrough_noFault (hm : m ∈ mappings) : LetThrough noFault mappings m := by
  obtain ⟨i, hi⟩ := List.mem_iff_getElem?.1 hm
  exact ⟨i, hi, rfl⟩

theorem pairs_nodup (d : Database) : (d.bindings.rows.map fun r =>
    (r.toBinding.subject, r.toBinding.target.roomId)).Nodup := by
  refine List.Nodup.map_on (fun r hr r' hr' heq => ?_)
    (List.Nodup.of_map _ (d.bindings.apart _ boundKey_key))
  obtain ⟨hsubject, hroom⟩ := Prod.mk.inj heq
  have hkey := (d.bindings.checked r hr).boundKey_eq.2 ⟨hsubject, hroom⟩
  have hkey' := (d.bindings.checked r' hr').boundKey_eq.2 ⟨rfl, rfl⟩
  exact KeyedTable.eq_of_key boundKey_key hr hr' (hkey.trans hkey'.symm)

/-- Without a space in the way a start without failures does all of it. -/
theorem completes_of_no_space (hd : d.bootstrap = none)
    (hspace : ∀ m ∈ mappings, ¬ d.HasSpace m) : Completes mappings d := by
  intro source r d' hstart
  have h := starts_started hd hstart
  have hmarked := h.marked.2 ⟨rfl, rfl⟩
  refine ⟨h.answered.trans hmarked, hmarked, fun m hm => ?_, ?_, pairs_nodup d'⟩
  · exact h.grown.hasRoom.2 ⟨(h.taken hmarked m).2 (.inr (letThrough_noFault hm)), hspace m hm⟩
  · obtain ⟨added, hrows, -⟩ := h.grown
    exact ⟨added, hrows.symm⟩

/-- With one in the way nothing does. -/
theorem no_space_of_neverDrops (hd : d.bootstrap = none)
    (h : NeverDrops faults mappings source d) (hm : m ∈ mappings) : ¬ d.HasSpace m := by
  obtain ⟨r, d', hstart⟩ := exists_starts faults mappings source d
  have hstarted := starts_started hd hstart
  obtain ⟨hset, hunset⟩ := h r d' hstart
  cases hmarker : d'.bootstrap with
  | some marker =>
      exact (hstarted.grown.hasRoom.1 (hset (by rw [hmarker]; rfl) m hm)).2
  | none =>
      obtain ⟨r', d'', hagain⟩ := exists_starts noFault mappings source d'
      have hroom := ((hunset hmarker).2 source r' d'' hagain).2.2.1 m hm
      rw [← hstarted.grown.hasSpace]
      exact ((starts_started hmarker hagain).grown.hasRoom.1 hroom).2

/-- No mapping is dropped where no space is in its way, and where a start that
sets the marker finds it bound or gets an insert for it through. -/
theorem neverDrops_iff (faults : Faults) (mappings : List GroupMapping) (source : String)
    (hd : d.bootstrap = none) : NeverDrops faults mappings source d ↔
      (∀ m ∈ mappings, ¬ d.HasSpace m) ∧
      (faults 0 = none → faults (mappings.length + 1) = none →
        ∀ m ∈ mappings, d.HasRoom m ∨ LetThrough faults mappings m) := by
  constructor
  · intro h
    refine ⟨fun m hm => no_space_of_neverDrops hd h hm, fun hfirst hlast m hm => ?_⟩
    obtain ⟨r, d', hstart⟩ := exists_starts faults mappings source d
    have hstarted := starts_started hd hstart
    have hmarked := hstarted.marked.2 ⟨hfirst, hlast⟩
    have hroom := (h r d' hstart).1 hmarked m hm
    obtain ⟨htaken, hspace⟩ := hstarted.grown.hasRoom.1 hroom
    rcases (hstarted.taken hmarked m).1 htaken with hbefore | hthrough
    · exact .inl ((taken_iff.1 hbefore).resolve_right hspace)
    · exact .inr hthrough
  · intro h r d' hstart
    obtain ⟨hspace, hbound⟩ := h
    have hstarted := starts_started hd hstart
    constructor
    · intro hmarked m hm
      obtain ⟨hfirst, hlast⟩ := hstarted.marked.1 hmarked
      refine hstarted.grown.hasRoom.2 ⟨(hstarted.taken hmarked m).2 ?_, hspace m hm⟩
      exact (hbound hfirst hlast m hm).imp (fun hroom => taken_iff.2 (.inl hroom)) id
    · intro hunmarked
      refine ⟨by rw [hstarted.answered, hunmarked]; rfl, completes_of_no_space hunmarked ?_⟩
      intro m hm
      rw [hstarted.grown.hasSpace]
      exact hspace m hm

/-- One mapping, and the database is locked when it is inserted. -/
def lockedOnce : Faults := fun n => if n = 1 then some (.database "database is locked") else none

/-- The marker is set over it. -/
theorem locked_drops : ¬ NeverDrops lockedOnce [⟨"staff", "!lounge:example.org"⟩] "env" empty := by
  intro h
  have hstart : Starts lockedOnce [⟨"staff", "!lounge:example.org"⟩] "env" empty (.ok 0)
      { empty with bootstrap := some ("env", "") } :=
    ⟨[⟨.sql .countBootstrap, .ok 0⟩, ⟨.now, ""⟩, ⟨.newUuid, "id-1"⟩,
      ⟨.sql (.insertBinding ⟨"id-1", "group", "staff", "room", "!lounge:example.org", none,
        false, "", ""⟩), .error (.database "database is locked")⟩,
      ⟨.sql (.replaceBootstrap "env" ""), .ok ()⟩], 3,
      ⟨_, rfl, _, rfl, _, rfl, _, rfl, _, rfl, Prog.reaches_nil.2 rfl⟩,
      ⟨(empty, 1), ⟨rfl, "", rfl⟩, (empty, 1), rfl, (empty, 1),
        ⟨fun r hr => absurd hr List.not_mem_nil, rfl⟩, (empty, 2), ⟨rfl, rfl, rfl⟩,
        (_, 3), ⟨rfl, "", rfl⟩, rfl⟩⟩
  obtain ⟨r, hr, -⟩ := (h _ _ hstart).1 rfl _ List.mem_cons_self
  cases hr

/-- The staff are bound to the lounge by hand before the first start. -/
def staffBound : Database := { empty with
  bindings := ⟨[⟨"id-0", "group", "staff", "room", "!lounge:example.org", some 50, true, "",
    ""⟩], by decide, by decide⟩ }

/-- The insert over that binding fails, the other two do not, and nothing is dropped. -/
theorem bound_before : NeverDrops lockedOnce [⟨"staff", "!lounge:example.org"⟩,
    ⟨"leads", "!bridge:example.org"⟩, ⟨"staff", "!bridge:example.org"⟩] "env" staffBound := by
  refine (neverDrops_iff _ _ _ rfl).2 ⟨fun m _ h => ?_, fun _ _ m hm => ?_⟩
  · obtain ⟨r, hr, -, htarget⟩ := h
    cases List.mem_singleton.1 hr
    cases htarget
  · rw [List.mem_cons, List.mem_cons, List.mem_singleton] at hm
    rcases hm with rfl | rfl | rfl
    · exact .inl ⟨_, List.mem_cons_self, rfl, rfl⟩
    · exact .inr ⟨1, rfl, rfl⟩
    · exact .inr ⟨2, rfl, rfl⟩

end

end Database

end MatrixIdentityAdmin.Ref
