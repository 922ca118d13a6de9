import MatrixIdentityAdmin.Spec.PolicyStore

/-!
# The tables refine the store

The columns of a binding and the binding itself determine each other, because
the constraints leave no third kind of subject or target to fall through to.
With that every statement is an operation on the abstract store, and the rest
of a request is reading off which one it was.
-/

namespace MatrixIdentityAdmin.Ref

open MatrixIdentityAdmin.Lib

/-! ## Columns and bindings -/

namespace BindingRow

theorem Checked.subject_eq {r : BindingRow} (h : r.Checked)
    {subject : PolicySubject} :
    r.toBinding.subject = subject ↔
      r.subjectType = subject.subjectType ∧ r.subjectValue = subject.value := by
  rcases h.1 with htype | htype
  · cases subject with
    | group g => simp [toBinding, htype, PolicySubject.subjectType, PolicySubject.value]
    | role g => simp [toBinding, htype, PolicySubject.subjectType]
  · cases subject with
    | group g => simp [toBinding, htype, PolicySubject.subjectType]
    | role g => simp [toBinding, htype, PolicySubject.subjectType, PolicySubject.value]

/-- The room is the column, whatever the kind of target. -/
theorem toBinding_roomId (r : BindingRow) :
    r.toBinding.target.roomId = r.targetRoomId := by
  simp only [toBinding]
  split <;> rfl

/-- Two checked rows with the same binding bind the same. -/
theorem Checked.boundKey_eq {r : BindingRow} (h : r.Checked)
    {subject : PolicySubject} {roomId : String} :
    r.boundKey = [subject.subjectType, subject.value, roomId] ↔
      r.toBinding.subject = subject ∧ r.toBinding.target.roomId = roomId := by
  rw [h.subject_eq, toBinding_roomId, and_assoc]
  simp [boundKey]

/-- A checked row sorts as its binding does. -/
theorem Checked.sortKey_eq {r : BindingRow} (h : r.Checked) :
    r.sortKey = toLex (r.toBinding.subject.subjectType,
      toLex (r.toBinding.subject.value, r.toBinding.target.roomId)) := by
  obtain ⟨htype, hvalue⟩ := h.subject_eq.1 rfl
  rw [sortKey, htype, hvalue, toBinding_roomId]

end BindingRow

namespace PolicyMutation

variable {subject : PolicySubject} {target : PolicyTarget}
  {powerLevel : Option Int} {allowRemove : Bool} {id time : String}

theorem newRow_toBinding :
    (newRow subject target powerLevel allowRemove id time).toBinding =
      ⟨id, subject, target, powerLevel, allowRemove, time, time⟩ := by
  cases subject <;> cases target <;> rfl

theorem newRow_checked :
    (newRow subject target powerLevel allowRemove id time).Checked := by
  constructor
  · cases subject
    · exact .inl rfl
    · exact .inr rfl
  · cases target
    · exact .inl rfl
    · exact .inr rfl

end PolicyMutation

/-! ## Tables and the store -/

namespace Database

variable {d : Database}

theorem id_key : (fun r : BindingRow => [r.id]) ∈ BindingRow.keys :=
  List.mem_cons_self

theorem boundKey_key : BindingRow.boundKey ∈ BindingRow.keys :=
  List.mem_cons_of_mem _ List.mem_cons_self

theorem store_live {id : String} {b : PolicyBinding} :
    d.store.live id = some b ↔
      ∃ r ∈ d.bindings.rows, r.id = id ∧ r.toBinding = b := by
  rw [store, Option.map_eq_some_iff]
  refine exists_congr fun r => ?_
  rw [KeyedTable.lookup_some id_key, and_assoc]
  simp

theorem store_live_none {id : String} :
    d.store.live id = none ↔ d.Fresh id := by
  rw [Option.eq_none_iff_forall_ne_some]
  constructor
  · intro h r hr hid
    exact h r.toBinding (store_live.2 ⟨r, hr, hid, rfl⟩)
  · intro h b hb
    obtain ⟨r, hr, hid, -⟩ := store_live.1 hb
    exact h r hr hid

theorem store_live_isSome {id : String} :
    (d.store.live id).isSome = decide (d.affected id > 0) := by
  rw [Bool.eq_iff_iff, Option.isSome_iff_exists, decide_eq_true_iff, affected_pos]
  constructor
  · intro h
    obtain ⟨b, hb⟩ := h
    obtain ⟨r, hr, hid, -⟩ := store_live.1 hb
    exact ⟨r, hr, hid⟩
  · intro h
    obtain ⟨r, hr, hid⟩ := h
    exact ⟨r.toBinding, store_live.2 ⟨r, hr, hid, rfl⟩⟩

theorem store_taken {subject : PolicySubject} {roomId : String} :
    d.store.Taken subject roomId ↔ ∃ r ∈ d.bindings.rows,
      r.boundKey = [subject.subjectType, subject.value, roomId] := by
  constructor
  · intro h
    obtain ⟨id, b, hb, hbound⟩ := h
    obtain ⟨r, hr, -, rfl⟩ := store_live.1 hb
    exact ⟨r, hr, (d.bindings.checked r hr).boundKey_eq.2 hbound⟩
  · intro h
    obtain ⟨r, hr, hkey⟩ := h
    exact ⟨r.id, r.toBinding, store_live.2 ⟨r, hr, rfl, rfl⟩,
      (d.bindings.checked r hr).boundKey_eq.1 hkey⟩

/-- With a fresh id the only thing in the way of a new binding is another one
of the same subject and room. -/
theorem fits_newRow {subject : PolicySubject} {target : PolicyTarget}
    {powerLevel : Option Int} {allowRemove : Bool} {id time : String}
    (hfresh : d.Fresh id) :
    d.bindings.Fits (PolicyMutation.newRow subject target powerLevel allowRemove
      id time) ↔ ¬ d.store.Taken subject target.roomId := by
  rw [store_taken]
  constructor
  · intro h hs
    obtain ⟨-, happart⟩ := h
    obtain ⟨r, hr, hkey⟩ := hs
    exact happart _ boundKey_key r hr hkey
  · intro hfree
    refine ⟨PolicyMutation.newRow_checked, fun key hkey r hr heq => ?_⟩
    rcases List.mem_pair.1 hkey with rfl | rfl
    · exact hfresh r hr (List.singleton_inj.1 heq)
    · exact hfree ⟨r, hr, heq⟩

/-! ### What each statement amounts to -/

theorem store_insert {r : BindingRow} {bindings : Bindings}
    (hfits : d.bindings.Fits r) (hrows : bindings.rows = d.bindings.rows ++ [r]) :
    ({ d with bindings := bindings } : Database).store =
      d.store.put r.toBinding := by
  refine PolicyStore.ext (funext fun id => ?_) rfl
  show (bindings.lookup _ _).map _ = if id = r.id then _ else (d.bindings.lookup _ _).map _
  rw [KeyedTable.lookup_insert id_key hfits hrows]
  by_cases h : id = r.id
  · simp [h]
  · simp [h]

theorem store_update {id : String} {powerLevel : Option Int}
    {allowRemove : Bool} {stamp : String} :
    ({ d with bindings := d.updated id powerLevel allowRemove stamp } :
      Database).store = d.store.edit id powerLevel allowRemove stamp := by
  refine PolicyStore.ext (funext fun i => ?_) rfl
  have hlookup : (d.updated id powerLevel allowRemove stamp).lookup
      (fun r => [r.id]) [i] = (d.bindings.lookup (fun r => [r.id]) [i]).map
        fun r => if decide (r.id = id) then
          r.edited powerLevel allowRemove stamp else r :=
    KeyedTable.lookup_update id_key [i]
  show ((d.updated id powerLevel allowRemove stamp).lookup _ _).map _ =
    ((d.bindings.lookup _ _).map _).map _
  rw [hlookup, Option.map_map, Option.map_map]
  cases h : d.bindings.lookup (fun r => [r.id]) [i] with
  | none => rfl
  | some r =>
      obtain ⟨-, hid⟩ := (KeyedTable.lookup_some id_key).1 h
      obtain rfl : r.id = i := List.singleton_inj.1 hid
      simp only [Option.map_some, Function.comp_apply, decide_eq_true_eq]
      split
      · rfl
      · rfl

theorem store_delete {id : String} :
    ({ d with bindings := d.deleted id } : Database).store = d.store.drop id := by
  refine PolicyStore.ext (funext fun i => ?_) rfl
  show ((d.deleted id).lookup _ _).map _ = if i = id then _ else _
  rw [deleted, KeyedTable.lookup_delete id_key]
  cases h : d.bindings.lookup (fun r => [r.id]) [i] with
  | none => simp [store, h]
  | some r =>
      obtain ⟨-, hid⟩ := (KeyedTable.lookup_some id_key).1 h
      obtain rfl : r.id = i := List.singleton_inj.1 hid
      by_cases hr : r.id = id
      · simp [hr]
      · simp [hr, store, h]

end Database

/-! ## The import -/

namespace PolicyStore

variable {s : PolicyStore}

theorem put_live_some {b c : PolicyBinding} {id : String}
    (hfree : s.live b.id = none) :
    (s.put b).live id = some c ↔ (b.id = id ∧ b = c) ∨ s.live id = some c := by
  rw [put]
  dsimp only
  split
  · next h =>
      subst h
      simp [hfree]
  · next h => simp [Ne.symm h]

/-- Bindings with ids of their own, put in one by one, are all there together
with what was there. -/
theorem putAll_live {added : List PolicyBinding}
    (hfree : ∀ b ∈ added, s.live b.id = none)
    (hids : (added.map PolicyBinding.id).Nodup) {id : String}
    {c : PolicyBinding} :
    (added.foldl put s).live id = some c ↔
      (c ∈ added ∧ c.id = id) ∨ s.live id = some c := by
  induction added generalizing s with
  | nil => simp
  | cons b added ih =>
      rw [List.map_cons, List.nodup_cons, List.mem_map] at hids
      have hb : s.live b.id = none := hfree b List.mem_cons_self
      have hnext : ∀ a ∈ added, (s.put b).live a.id = none := by
        intro a ha
        rw [put]
        dsimp only
        rw [if_neg fun h => hids.1 ⟨a, ha, h⟩]
        exact hfree a (List.mem_cons_of_mem _ ha)
      rw [List.foldl_cons, ih hnext hids.2, put_live_some hb, List.mem_cons]
      constructor
      · intro h
        rcases h with ⟨hc, hid⟩ | ⟨hid, rfl⟩ | hc
        · exact .inl ⟨.inr hc, hid⟩
        · exact .inl ⟨.inl rfl, hid⟩
        · exact .inr hc
      · intro h
        rcases h with ⟨rfl | hc, hid⟩ | hc
        · exact .inr (.inl ⟨hid, rfl⟩)
        · exact .inl ⟨hc, hid⟩
        · exact .inr (.inr hc)

theorem Imports.nil {now : String} : s.Imports now [] [] where
  only _ h := absurd h List.not_mem_nil
  all _ h := absurd h List.not_mem_nil
  ids := List.nodup_nil
  pairs := List.nodup_nil

section

variable {now : String} {mappings : List GroupMapping}
  {added : List PolicyBinding} (h : s.Imports now mappings added)

include h

theorem Imports.live {id : String} {c : PolicyBinding} :
    (added.foldl put s).live id = some c ↔
      (c ∈ added ∧ c.id = id) ∨ s.live id = some c :=
  putAll_live (fun b hb => (h.only b hb).1) h.ids

theorem Imports.taken {subject : PolicySubject} {roomId : String} :
    (added.foldl put s).Taken subject roomId ↔
      (∃ b ∈ added, b.subject = subject ∧ b.target.roomId = roomId) ∨
        s.Taken subject roomId := by
  constructor
  · intro h
    obtain ⟨id, b, hb, hbound⟩ := h
    rcases h.live.1 hb with ⟨hb, -⟩ | hb
    · exact .inl ⟨b, hb, hbound⟩
    · exact .inr ⟨id, b, hb, hbound⟩
  · intro h
    rcases h with ⟨b, hb, hbound⟩ | ⟨id, b, hb, hbound⟩
    · exact ⟨b.id, b, h.live.2 (.inl ⟨hb, rfl⟩), hbound⟩
    · exact ⟨id, b, h.live.2 (.inr hb), hbound⟩

/-- A mapping of a pair that is taken by now adds nothing. -/
theorem Imports.pass {m : GroupMapping}
    (htaken : (added.foldl put s).Taken (.group m.keycloakGroup) m.matrixRoomId) :
    s.Imports now (mappings ++ [m]) added where
  only b hb := by
    obtain ⟨hlive, m', hm', hb⟩ := h.only b hb
    exact ⟨hlive, m', List.mem_append_left _ hm', hb⟩
  all m' hm' hfree := by
    rcases List.mem_append.1 hm' with hm' | hm'
    · exact h.all m' hm' hfree
    obtain rfl := List.mem_singleton.1 hm'
    rcases h.taken.1 htaken with ⟨b, hb, hsubject, hroom⟩ | htaken
    · -- The pair is an earlier mapping's, and the binding the same.
      obtain ⟨-, m₀, -, heq, -⟩ := h.only b hb
      have hgroup : m₀.keycloakGroup = m'.keycloakGroup := by
        rw [heq] at hsubject
        exact PolicySubject.group.inj hsubject
      have hroom' : m₀.matrixRoomId = m'.matrixRoomId := by
        rw [heq] at hroom
        exact hroom
      refine ⟨b, hb, heq.trans ?_⟩
      rw [imported, imported, hgroup, hroom']
    · exact absurd htaken hfree
  ids := h.ids
  pairs := h.pairs

/-- A mapping of a pair that is free adds the binding it asks for. -/
theorem Imports.add {m : GroupMapping} {id : String}
    (hid : (added.foldl put s).live id = none)
    (hfree : ¬ (added.foldl put s).Taken (.group m.keycloakGroup) m.matrixRoomId) :
    s.Imports now (mappings ++ [m]) (added ++ [imported id now m]) := by
  have hnew : ∀ b ∈ added, b.id ≠ id := by
    intro b hb heq
    rw [h.live.2 (.inl ⟨hb, heq⟩)] at hid
    cases hid
  have hapart : ∀ b ∈ added, (b.subject, b.target.roomId) ≠
      (PolicySubject.group m.keycloakGroup, m.matrixRoomId) := by
    intro b hb heq
    rw [Prod.mk.injEq] at heq
    exact hfree (h.taken.2 (.inl ⟨b, hb, heq⟩))
  refine ⟨fun b hb => ?_, fun m' hm' hm'free => ?_, ?_, ?_⟩
  · rcases List.mem_append.1 hb with hb | hb
    · obtain ⟨hlive, m', hm', hb⟩ := h.only b hb
      exact ⟨hlive, m', List.mem_append_left _ hm', hb⟩
    · obtain rfl := List.mem_singleton.1 hb
      refine ⟨?_, m, List.mem_append_right _ List.mem_cons_self, rfl, ?_⟩
      · rw [Option.eq_none_iff_forall_ne_some] at hid ⊢
        exact fun c hc => hid c (h.live.2 (.inr hc))
      · exact fun htaken => hfree (h.taken.2 (.inr htaken))
  · rcases List.mem_append.1 hm' with hm' | hm'
    · obtain ⟨b, hb, heq⟩ := h.all m' hm' hm'free
      exact ⟨b, List.mem_append_left _ hb, heq⟩
    · obtain rfl := List.mem_singleton.1 hm'
      exact ⟨_, List.mem_append_right _ List.mem_cons_self, rfl⟩
  · rw [List.map_append, List.nodup_append']
    refine ⟨h.ids, List.nodup_singleton _, ?_⟩
    rw [List.map_singleton, List.disjoint_singleton, List.mem_map]
    intro h
    obtain ⟨b, hb, heq⟩ := h
    exact hnew b hb heq
  · rw [List.map_append, List.nodup_append']
    refine ⟨h.pairs, List.nodup_singleton _, ?_⟩
    rw [List.map_singleton, List.disjoint_singleton, List.mem_map]
    intro h
    obtain ⟨b, hb, heq⟩ := h
    exact hapart b hb heq

end

end PolicyStore

/-! ## Requests -/

namespace PolicyRequest

open PolicyStore

variable {d : Database}

/-- A statement with no constraint in its way. -/
theorem wp_day {α : Type} {s : Statement} {k : Result s.Ret → Store α}
    {Q : α → Database → Prop}
    (h : ∀ refusal r d', d.run refusal s = (r, d') → (k r).wp Database.day d' Q) :
    (Prog.call (.sql s) k).wp Database.day d Q :=
  Database.wp_sql (fun _ he => nomatch he) fun _ => h

/-- A row goes in where the pair is free and is refused where it is not. -/
theorem wp_insertRow {α : Type} (subject : PolicySubject)
    (target : PolicyTarget) (powerLevel : Option Int) (allowRemove : Bool)
    {id time : String} {k : Result Unit → Store α} {Q : α → Database → Prop}
    (hfresh : d.Fresh id)
    (htaken : d.store.Taken subject target.roomId → ∀ e,
      (k (.error e)).wp Database.day d Q)
    (hfree : ¬ d.store.Taken subject target.roomId → ∀ d',
      d'.store = d.store.put
        ⟨id, subject, target, powerLevel, allowRemove, time, time⟩ →
      (k (.ok ())).wp Database.day d' Q) :
    (Prog.call (.sql (.insertBinding (PolicyMutation.newRow subject target
      powerLevel allowRemove id time))) k).wp Database.day d Q := by
  refine wp_day fun refusal r d' hrun => ?_
  rcases Database.run_insert hrun with
    ⟨hfits, rfl, bindings, rfl, hrows⟩ | ⟨hfits, rfl, rfl⟩
  · refine hfree ((Database.fits_newRow hfresh).1 hfits) _ ?_
    rw [Database.store_insert hfits hrows, PolicyMutation.newRow_toBinding]
  · refine htaken (not_not.1 fun h => hfits ?_) _
    exact (Database.fits_newRow hfresh).2 h

/-- The audit row changes nothing of the store. -/
theorem wp_audit {α : Type} {entry : AuditEntry} {v : α}
    {Q : Result α → Database → Prop}
    (h : ∀ d' : Database, d'.store = d.store → Q (.ok v) d') :
    ((Store.sql (.insertAudit entry)).andThen
      fun _ => (return .ok v : Store (Result α))).wp Database.day d Q := by
  refine wp_day fun refusal r d' hrun => ?_
  cases hrun
  exact h _ rfl

theorem create_serves {actorSubject actorUsername : String}
    {subject : PolicySubject} {target : PolicyTarget} {powerLevel : Option Int}
    {allowRemove : Bool} :
    (PolicyService.createBinding actorSubject actorUsername subject target
      powerLevel allowRemove).wp Database.day d fun r d' =>
        d.store.Serves (.change actorSubject actorUsername
          (.create subject target powerLevel allowRemove)) r d'.store := by
  refine ⟨trivial, ?_⟩
  intro id d₀ h
  obtain ⟨hfresh, rfl⟩ := h
  refine ⟨trivial, ?_⟩
  intro now d₁ h
  obtain ⟨-, rfl⟩ := h
  refine wp_insertRow subject target powerLevel allowRemove hfresh
    (fun htaken e => ?_) fun hfree d' hput => ?_
  · exact .inl ⟨htaken, rfl, rfl⟩
  · refine wp_audit fun d'' hsame => .inr ⟨hfree, id, now, ?_, rfl, ?_⟩
    · exact Database.store_live_none.2 hfresh
    · rw [hsame, hput]

theorem update_serves {actorSubject actorUsername id : String}
    {powerLevel : Option Int} {allowRemove : Bool} :
    (PolicyService.updateBinding actorSubject actorUsername id powerLevel
      allowRemove).wp Database.day d fun r d' =>
        d.store.Serves (.change actorSubject actorUsername
          (.update id powerLevel allowRemove)) r d'.store := by
  refine ⟨trivial, ?_⟩
  intro now d₁ h
  obtain ⟨-, rfl⟩ := h
  refine wp_day fun refusal r d' hrun => ?_
  cases hrun
  show Prog.wp _ (if decide (d₁.affected id > 0) = true then _ else _) _ _
  rw [← Database.store_live_isSome]
  split
  · next hlive =>
      refine wp_audit fun d'' hsame => ⟨?_, now, ?_⟩
      · rw [Database.store_live_isSome]
      · rw [hsame, Database.store_update]
  · refine ⟨?_, now, Database.store_update⟩
    rw [Database.store_live_isSome]

theorem delete_serves {actorSubject actorUsername id : String} :
    (PolicyService.deleteBinding actorSubject actorUsername id).wp
      Database.day d fun r d' =>
        d.store.Serves (.change actorSubject actorUsername (.delete id)) r
          d'.store := by
  refine wp_day fun refusal r d' hrun => ?_
  cases hrun
  show Prog.wp _ (if decide (d.affected id > 0) = true then _ else _) _ _
  rw [← Database.store_live_isSome]
  split
  · refine wp_audit fun d'' hsame => ⟨?_, ?_⟩
    · rw [Database.store_live_isSome]
    · rw [hsame, Database.store_delete]
  · refine ⟨?_, Database.store_delete⟩
    rw [Database.store_live_isSome]

/-- What the loop of the import has done after some of the mappings. -/
def Imported (d : Database) (now : String) (done : List GroupMapping)
    (count : Nat) (d' : Database) : Prop :=
  ∃ added, d.store.Imports now done added ∧ count = added.length ∧
    d'.store = added.foldl put d.store

theorem importMapping_imports {now : String} {done : List GroupMapping}
    {m : GroupMapping} {count : Nat} {d₁ : Database}
    (h : Imported d now done count d₁) :
    (PolicyService.importMapping now count m).wp Database.day d₁
      (Imported d now (done ++ [m])) := by
  obtain ⟨added, himports, rfl, hstore⟩ := h
  refine ⟨trivial, ?_⟩
  intro id d₂ h
  obtain ⟨hfresh, rfl⟩ := h
  refine wp_insertRow (.group m.keycloakGroup) (.room m.matrixRoomId) none false
    hfresh (fun htaken e => ?_) fun hfree d' hput => ?_
  · rw [hstore] at htaken
    exact ⟨added, himports.pass htaken, rfl, hstore⟩
  · rw [hstore] at hfree
    have hid := Database.store_live_none.2 hfresh
    rw [hstore] at hid
    refine ⟨added ++ [imported id now m], himports.add hid hfree, ?_, ?_⟩
    · rw [List.length_append, List.length_singleton]
      rfl
    · rw [List.foldl_append, ← hstore]
      exact hput

theorem bootstrap_serves {mappings : List GroupMapping} {source : String} :
    (PolicyService.bootstrapFromEnv mappings source).wp Database.day d
      fun r d' => d.store.Serves (.bootstrap mappings source) r d'.store := by
  refine wp_day fun refusal r d' hrun => ?_
  obtain ⟨rfl, rfl⟩ := Prod.mk.inj hrun
  cases hdone : d.bootstrap with
  | some marker =>
      refine .inl ⟨congrArg Option.isSome hdone, ?_, rfl⟩
      rfl
  | none =>
      refine ⟨trivial, ?_⟩
      intro now d₁ h
      obtain ⟨-, rfl⟩ := h
      change Prog.wp _ (mappings.foldlM (PolicyService.importMapping now) 0 >>= _)
        _ _
      refine Prog.wp_seq (Prog.wp_foldlM (Imported d₁ now)
        (fun pre m _ _ count d₂ h => importMapping_imports h)
        ⟨[], .nil, rfl, rfl⟩) ?_
      intro count d₂ h
      obtain ⟨added, himports, rfl, hstore⟩ := h
      refine wp_day fun refusal r d' hrun => ?_
      cases hrun
      refine .inr ⟨congrArg Option.isSome hdone, now, added, himports, rfl, ?_⟩
      rw [← hstore]
      rfl

/-- Every request is served as the contract has it. -/
theorem serves (q : PolicyRequest) (d : Database) :
    q.run.wp Database.day d fun r d' => d.store.Serves q r d'.store := by
  cases q with
  | change actorSubject actorUsername m =>
      cases m with
      | create => exact create_serves
      | update => exact update_serves
      | delete => exact delete_serves
  | bootstrap => exact bootstrap_serves

end PolicyRequest

/-! ## The listing -/

namespace Database

theorem selected_listed (d : Database) :
    d.bindings.Listed BindingRow.sortKey d.selected :=
  ⟨List.perm_insertionSort _ _, List.pairwise_insertionSort _ _⟩

theorem boundKey_of_sortKey {r r' : BindingRow} (h : r.sortKey = r'.sortKey) :
    r.boundKey = r'.boundKey := by
  simp only [BindingRow.sortKey, EmbeddingLike.apply_eq_iff_eq, Prod.mk.injEq] at h
  simp [BindingRow.boundKey, h]

/-- The columns the listing is ordered by are under a constraint. -/
theorem selected_sorted (d : Database) :
    d.selected.Pairwise fun a b => a.sortKey < b.sortKey := by
  refine d.selected_listed.strict (fun a ha b hb heq => ?_) ?_
  · exact KeyedTable.eq_of_key boundKey_key ha hb (boundKey_of_sortKey heq)
  · exact (d.bindings.apart _ id_key).of_map _

theorem mem_selected {d : Database} {r : BindingRow} :
    r ∈ d.selected ↔ r ∈ d.bindings.rows := d.selected_listed.1.mem_iff

theorem lists (d : Database) :
    d.store.Lists (d.selected.map BindingRow.toBinding) := by
  have hchecked : ∀ r ∈ d.selected, r.Checked := fun r hr =>
    d.bindings.checked r (mem_selected.1 hr)
  refine ⟨fun b => ?_, ?_, ?_⟩
  · rw [List.mem_map, store_live]
    constructor
    · intro h
      obtain ⟨r, hr, rfl⟩ := h
      exact ⟨r, mem_selected.1 hr, rfl, rfl⟩
    · intro h
      obtain ⟨r, hr, -, rfl⟩ := h
      exact ⟨r, mem_selected.2 hr, rfl⟩
  · rw [List.pairwise_map]
    refine d.selected_sorted.imp_of_mem fun {a b} ha hb hlt => ?_
    rw [← (hchecked a ha).sortKey_eq, ← (hchecked b hb).sortKey_eq]
    exact hlt
  · rw [List.pairwise_map]
    refine d.selected_sorted.imp_of_mem fun {a b} ha hb hlt heq => ?_
    rw [Prod.mk.injEq] at heq
    rw [(hchecked a ha).sortKey_eq, (hchecked b hb).sortKey_eq, heq.1, heq.2] at hlt
    exact lt_irrefl _ hlt

theorem listBindings_lists (d : Database) :
    PolicyService.listBindings.wp day d fun r d' =>
      ∃ l, r = .ok l ∧ d' = d ∧ d.store.Lists l := by
  refine PolicyRequest.wp_day fun refusal r d' hrun => ?_
  cases hrun
  exact ⟨_, rfl, rfl, d.lists⟩

end Database

/-- Whatever requests were served since the database was empty, the answers are
those of the abstract store, and what is listed is what is live in it. -/
theorem policy_store_refines
    {h : List (Event PolicyRequest PolicyRequest.Answer)} {d : Database}
    (hrun : Database.serving.Path .empty h d) :
    PolicyStore.contract.Path .empty h d.store ∧
      ∀ t r d', PolicyService.listBindings.Runs t r → Database.day.Path d t d' →
        ∃ l, r = .ok l ∧ d' = d ∧ d.store.Lists l := by
  refine ⟨?_, fun t r d' hlist hpath => ?_⟩
  · exact Prog.serving_refines (f := Database.store) PolicyRequest.serves hrun
  · exact Prog.wp_reaches d.listBindings_lists hlist hpath

/-- An import, the deletion of what it brought in, and an import again. -/
def importedOnce : List (Event PolicyRequest PolicyRequest.Answer) :=
  [⟨.bootstrap [⟨"staff", "!lounge:example.org"⟩] "env", .ok 1⟩,
    ⟨.change "sub" "root" (.delete "pb-1"), .ok true⟩,
    ⟨.bootstrap [⟨"staff", "!lounge:example.org"⟩] "env", .ok 0⟩]

/-- The marker of the first import is all that is left of it. -/
def afterImport : Database :=
  { Database.empty with
    bootstrap := some ("env", "2026-03-09T00:00:00Z")
    audit := [PolicyService.deleteEntry "sub" "root" "pb-1"] }

theorem import_not_repeated :
    PolicyStore.contract.Path .empty importedOnce afterImport.store ∧
      ∀ t r d', PolicyService.listBindings.Runs t r →
        Database.day.Path afterImport t d' →
        ∃ l, r = .ok l ∧ d' = afterImport ∧ afterImport.store.Lists l := by
  refine policy_store_refines ⟨_, ⟨[⟨.sql .countBootstrap, .ok 0⟩,
      ⟨.now, "2026-03-09T00:00:00Z"⟩, ⟨.newUuid, "pb-1"⟩,
      ⟨.sql (.insertBinding ⟨"pb-1", "group", "staff", "room",
        "!lounge:example.org", none, false, "2026-03-09T00:00:00Z",
        "2026-03-09T00:00:00Z"⟩), .ok ()⟩,
      ⟨.sql (.replaceBootstrap "env" "2026-03-09T00:00:00Z"), .ok ()⟩],
    ⟨_, rfl, _, rfl, _, rfl, _, rfl, _, rfl, Prog.reaches_nil.2 rfl⟩,
    ⟨_, ⟨"", rfl⟩, _, ⟨trivial, rfl⟩, _, ⟨fun _ h => absurd h List.not_mem_nil, rfl⟩,
      _, ⟨"", rfl⟩, _, ⟨"", rfl⟩, rfl⟩⟩, ?_⟩
  refine ⟨_, ⟨[⟨.sql (.deleteBinding "pb-1"), .ok 1⟩,
      ⟨.sql (.insertAudit (PolicyService.deleteEntry "sub" "root" "pb-1")), .ok ()⟩],
    ⟨_, rfl, _, rfl, Prog.reaches_nil.2 rfl⟩,
    ⟨_, ⟨"", rfl⟩, _, ⟨"", rfl⟩, rfl⟩⟩, ?_⟩
  exact ⟨_, ⟨[⟨.sql .countBootstrap, .ok 1⟩],
    ⟨_, rfl, Prog.reaches_nil.2 rfl⟩, ⟨_, ⟨"", rfl⟩, rfl⟩⟩, rfl⟩

end MatrixIdentityAdmin.Ref
