import MatrixIdentityAdmin.Spec.RoomCache

/-!
# The refresh goes through all of it

One induction on the rooms of a page and one on the pages. An upsert that fails
ends both loops at once, and then there is nothing more to say; otherwise the
exchanges so far are those of what has been listed.
-/

namespace MatrixIdentityAdmin.Ref.PolicyHandlers

open MatrixIdentityAdmin.Lib App

/-! ## One page -/

section

variable {now : String} {pages : Option Pages} {d : Database}
  {h : List RoomExchange} {count : Nat}

/-- The database after the rooms. -/
def stored (now : String) (rooms : List ListedRoom) (d : Database) : Database :=
  { d with cachedRooms :=
      (rooms.map (ListedRoom.cached now)).foldl (upsert CachedRoom.roomId) d.cachedRooms }

theorem refreshed_stored (now : String) (rooms : List ListedRoom) (d : Database) :
    Refreshed now rooms d (stored now rooms d) :=
  ⟨overrides_foldl _ _ _, rfl⟩

theorem stored_append (rooms rooms' : List ListedRoom) (d : Database) :
    stored now (rooms ++ rooms') d = stored now rooms' (stored now rooms d) := by
  rw [stored, stored, stored, List.map_append, List.foldl_append]

/-- No page failed. -/
def Quiet (l : List RoomExchange) : Prop :=
  ∀ limit start e, ⟨.listRooms limit start, .error e⟩ ∉ l

/-- An upsert failed after `h`, and no page. -/
def Broken (h : List RoomExchange) (r : Result Nat) (t : List RoomExchange) : Prop :=
  ∃ e room rest, r = .error e ∧ t = h ++ rest ∧
    ⟨.store (.sql (.upsertCachedRoom room)), .error e⟩ ∈ rest ∧ Quiet rest

theorem Broken.after {l t : List RoomExchange} {r : Result Nat} (hb : Broken (h ++ l) r t)
    (hl : Quiet l) : Broken h r t := by
  obtain ⟨e, room, rest, rfl, rfl, hin, hquiet⟩ := hb
  refine ⟨e, room, l ++ rest, rfl, List.append_assoc .., List.mem_append_right _ hin, ?_⟩
  intro limit start e hin
  rcases List.mem_append.1 hin with hin | hin
  · exact hl limit start e hin
  · exact hquiet limit start e hin

theorem quiet_rooms (rooms : List ListedRoom) :
    Quiet (rooms.flatMap (ListedRoom.exchanges now)) := by
  intro limit start e hin
  obtain ⟨o, -, hin⟩ := List.mem_flatMap.1 hin
  simp [ListedRoom.exchanges] at hin

theorem quiet_page {start : Option String} {list : RoomList} :
    Quiet [⟨.listRooms 100 start, .ok list⟩] := by
  intro limit start' e hin
  simp at hin

/-- After an error the inner loop does nothing. -/
theorem foldlM_error (e : AppError) (l : List RoomListEntry) :
    l.foldlM (cacheRoom now) (.error e) = (pure (.error e) : Handler (Result Nat)) := by
  induction l with
  | nil => rfl
  | cons entry l ih => exact ih

/-- One call of `upsert_cached_room`, which may fail. -/
theorem wp_upsert {room : CachedRoom} {due : List ListedRoom}
    {k : Result Unit → Handler (Result Nat)} {Q : Result Nat → Upstream × List RoomExchange → Prop}
    (hfails : ∀ e, (k (.error e)).wp listing.logged
      (⟨d, pages, due⟩, h ++ [⟨.store (.sql (.upsertCachedRoom room)), .error e⟩]) Q)
    (hruns : (k (.ok ())).wp listing.logged
      (⟨{ d with cachedRooms := upsert CachedRoom.roomId d.cachedRooms room }, pages, due⟩,
        h ++ [⟨.store (.sql (.upsertCachedRoom room)), .ok ()⟩]) Q) :
    (Prog.call (.store (.sql (.upsertCachedRoom room))) k).wp listing.logged
      (⟨d, pages, due⟩, h) Q := by
  refine Prog.wp_logged_cons trivial fun x s hstep => ?_
  rcases hstep with ⟨e, rfl, rfl⟩ | ⟨refusal, db, hrun, rfl⟩
  · exact hfails e
  · obtain ⟨rfl, rfl⟩ := Prod.mk.inj hrun
    exact hruns

/-- The query, then the upsert of what it makes of the room. -/
theorem cacheRoom_eq (now : String) (count : Nat) (entry : RoomListEntry) :
    cacheRoom now (.ok count) entry =
      .call (.service (.synapse (.getSpaceChildren entry.roomId))) fun children =>
        .call (.store (.sql (.upsertCachedRoom (ListedRoom.cached now ⟨entry, children⟩))))
          fun x => .ret (x.map fun _ => count + 1) := by
  have hend : ∀ x : Result Unit, ((store (Prog.ret x)).andThen fun _ =>
      (pure (.ok (count + 1)) : Handler (Result Nat))) = .ret (x.map fun _ => count + 1) := by
    intro x
    cases x with
    | error e => rfl
    | ok u => rfl
  refine congrArg (Prog.call _) (funext fun children => ?_)
  cases children with
  | error e => exact congrArg (Prog.call _) (funext hend)
  | ok c =>
      cases c with
      | nil => exact congrArg (Prog.call _) (funext hend)
      | cons child c => exact congrArg (Prog.call _) (funext hend)

theorem cacheRooms_wp (rooms : List ListedRoom) : ∀ {d : Database} {h : List RoomExchange}
    {count : Nat},
    ((rooms.map ListedRoom.entry).foldlM (cacheRoom now) (.ok count)).wp listing.logged
      (⟨d, pages, rooms⟩, h) fun r s => Broken h r s.2 ∨
        (r = .ok (count + rooms.length) ∧ s.1 = ⟨stored now rooms d, pages, []⟩ ∧
          s.2 = h ++ rooms.flatMap (ListedRoom.exchanges now)) := by
  induction rooms with
  | nil => intro d h count; exact .inr ⟨rfl, rfl, (List.append_nil h).symm⟩
  | cons o rooms ih =>
      intro d h count
      rw [List.map_cons, List.foldlM_cons, cacheRoom_eq]
      refine Prog.wp_logged_cons trivial fun children s hstep => ?_
      obtain ⟨o', rest, hdue, rfl, rfl⟩ := hstep
      obtain ⟨rfl, rfl⟩ := List.cons.inj hdue
      refine wp_upsert (fun e => ?_) ?_
      · show Prog.wp _ ((rooms.map ListedRoom.entry).foldlM (cacheRoom now) (.error e)) _ _
        rw [foldlM_error]
        refine .inl ⟨e, o.cached now, _, rfl, List.append_assoc .., ?_, ?_⟩
        · exact List.mem_append_right _ List.mem_cons_self
        · intro limit start e hin
          simp at hin
      · refine Prog.wp_mono (fun r s hr => ?_) ih
        rcases hr with ⟨e, room, rest, rfl, hlog, hin, hpages⟩ | ⟨rfl, hs, hlog⟩
        · refine .inl (Broken.after (l := o.exchanges now) ?_ ?_)
          · refine ⟨e, room, rest, rfl, ?_, hin, hpages⟩
            rw [hlog, List.append_assoc h]
            rfl
          · intro limit start e hin
            simp [ListedRoom.exchanges] at hin
        · refine .inr ⟨?_, hs, ?_⟩
          · rw [List.length_cons, Nat.add_assoc, Nat.add_comm 1]
          · rw [hlog, List.flatMap_cons, List.append_assoc, List.append_assoc]
            rfl

end

/-! ## Page after page -/

/-- What the pages come to where no upsert fails. -/
def Pages.result (pages : Pages) (count : Nat) : Result Nat :=
  match pages.failed with
  | none => .ok (count + pages.rooms.length)
  | some e => .error e

section

variable {now : String}

/-- Where the paging loop goes from a page that is cached. -/
def goOn (now : String) (fuel count : Nat) : Option String → Handler (Option (Result Nat))
  | some token => cachePages now fuel (some token) count
  | none => .ret (some (.ok count))

theorem wp_page {pages : Pages} {rooms : List ListedRoom} {token : Option String}
    {fuel count : Nat} {start : Option String} {d : Database} {h : List RoomExchange}
    {Q : Option (Result Nat) → Upstream × List RoomExchange → Prop}
    (hanswer : pages.answer = .ok ⟨rooms.map ListedRoom.entry, token⟩)
    (hfront : pages.front = rooms)
    (hbroken : ∀ r s, Broken (h ++ [⟨.listRooms 100 start, pages.answer⟩]) r s.2 → Q (some r) s)
    (hnext : (goOn now fuel (count + rooms.length) token).wp listing.logged
      (⟨stored now rooms d, pages.next, []⟩, h ++ [⟨.listRooms 100 start, pages.answer⟩] ++
        rooms.flatMap (ListedRoom.exchanges now)) Q) :
    (cachePages now (fuel + 1) start count).wp listing.logged (⟨d, some pages, []⟩, h) Q := by
  refine Prog.wp_logged_cons trivial fun x s hstep => ?_
  obtain ⟨pages', hpages, rfl, rfl⟩ := hstep
  obtain rfl := Option.some.inj hpages
  rw [hfront, hanswer]
  rw [hanswer] at hbroken hnext
  show Prog.wp _ (List.foldlM (cacheRoom now) (.ok count) (rooms.map ListedRoom.entry) >>= _) _ _
  refine Prog.wp_seq (cacheRooms_wp rooms) fun r s hr => ?_
  rcases hr with hr | ⟨rfl, hs, hlog⟩
  · have herror := hr
    obtain ⟨e, -, -, rfl, -⟩ := herror
    exact hbroken _ _ hr
  · obtain ⟨s, log⟩ := s
    subst hs hlog
    cases token with
    | none => exact hnext
    | some token => exact hnext

theorem cachePages_wp (pages : Pages) : ∀ {fuel : Nat} {start : Option String} {count : Nat}
    {d : Database} {h : List RoomExchange}, pages.count ≤ fuel →
    (cachePages now fuel start count).wp listing.logged (⟨d, some pages, []⟩, h)
      fun x s => ∃ r, x = some r ∧ (Broken h r s.2 ∨
        (r = pages.result count ∧ s.1.db = stored now pages.rooms d ∧
          s.2 = h ++ pages.exchanges now start)) := by
  induction pages with
  | failure e =>
      intro fuel start count d h hfuel
      obtain ⟨fuel, rfl⟩ := Nat.exists_eq_add_of_le' hfuel
      refine Prog.wp_logged_cons trivial fun x s hstep => ?_
      obtain ⟨pages, hpages, rfl, rfl⟩ := hstep
      obtain rfl := Option.some.inj hpages
      exact ⟨.error e, rfl, .inr ⟨rfl, rfl, rfl⟩⟩
  | last rooms =>
      intro fuel start count d h hfuel
      obtain ⟨fuel, rfl⟩ := Nat.exists_eq_add_of_le' hfuel
      refine wp_page rfl rfl (fun r s hr => ⟨r, rfl, .inl (hr.after quiet_page)⟩) ?_
      exact ⟨_, rfl, .inr ⟨rfl, rfl, List.append_assoc ..⟩⟩
  | page rooms token next ih =>
      intro fuel start count d h hfuel
      obtain ⟨fuel, rfl⟩ := Nat.exists_eq_add_of_le' (Nat.le_trans (Nat.le_add_left 1 _) hfuel)
      refine wp_page rfl rfl (fun r s hr => ⟨r, rfl, .inl (hr.after quiet_page)⟩) ?_
      refine Prog.wp_mono (fun x s hx => ?_) (ih (Nat.le_of_succ_le_succ hfuel))
      obtain ⟨r, rfl, hr⟩ := hx
      refine ⟨r, rfl, ?_⟩
      rcases hr with hr | ⟨rfl, hdb, hlog⟩
      · exact .inl ((hr.after (quiet_rooms rooms)).after quiet_page)
      · refine .inr ⟨?_, ?_, ?_⟩
        · rw [Pages.result, Pages.result, Pages.failed, Pages.rooms, List.length_append,
            Nat.add_assoc]
        · rw [hdb, ← stored_append]
          rfl
        · rw [hlog, List.append_assoc, List.append_assoc]
          rfl

/-! ## From the clock on -/

theorem failed_of_mem (pages : Pages) : ∀ {start start' : Option String} {limit : UInt32}
    {e : AppError}, ⟨.listRooms limit start', .error e⟩ ∈ pages.exchanges now start →
      pages.failed = some e := by
  induction pages with
  | failure e' =>
      intro start start' limit e hin
      cases List.mem_singleton.1 hin
      rfl
  | last rooms =>
      intro start start' limit e hin
      rcases List.mem_cons.1 hin with hin | hin
      · cases hin
      · exact absurd hin (quiet_rooms rooms limit start' e)
  | page rooms token next ih =>
      intro start start' limit e hin
      rcases List.mem_cons.1 hin with hin | hin
      · cases hin
      · rcases List.mem_append.1 hin with hin | hin
        · exact absurd hin (quiet_rooms rooms limit start' e)
        · exact ih hin

theorem mem_of_failed (pages : Pages) : ∀ {start : Option String} {e : AppError},
    pages.failed = some e →
      ∃ start', ⟨.listRooms 100 start', .error e⟩ ∈ pages.exchanges now start := by
  induction pages with
  | failure e' =>
      intro start e he
      obtain rfl := Option.some.inj he
      exact ⟨start, List.mem_cons_self⟩
  | last rooms => intro start e he; cases he
  | page rooms token next ih =>
      intro start e he
      obtain ⟨start', hin⟩ := @ih (some token) e he
      exact ⟨start', List.mem_cons_of_mem _ (List.mem_append_right _ hin)⟩

/-- An upsert that failed, and what is left to say. -/
theorem Broken.exact {pages : Pages} {d d' : Database} {r : Result Nat} {t : List RoomExchange}
    (hb : Broken [⟨.store .now, now⟩] r t) : Exact pages d t r d' now := by
  obtain ⟨e, room, rest, rfl, rfl, hin, hquiet⟩ := hb
  constructor
  · intro n hn
    cases hn
  · intro limit start e' hin'
    rcases List.mem_cons.1 hin' with hin' | hin'
    · cases hin'
    · exact absurd hin' (hquiet limit start e')
  · intro e' he
    obtain rfl := Except.error.inj he
    exact .inr ⟨room, List.mem_append_right _ hin⟩

/-- All pages, or the pages before one that fails. -/
theorem exact_exchanges (pages : Pages) (d : Database) :
    Exact pages d (⟨.store .now, now⟩ :: pages.exchanges now none) (pages.result 0)
      (stored now pages.rooms d) now := by
  have hrefreshed := refreshed_stored now pages.rooms d
  cases hfailed : pages.failed with
  | none =>
      have hresult : pages.result 0 = .ok pages.rooms.length := by
        rw [Pages.result, hfailed, Nat.zero_add]
      rw [hresult]
      constructor
      · intro n hn
        exact ⟨hfailed, (Except.ok.inj hn).symm, rfl, hrefreshed⟩
      · intro limit start e hin
        rcases List.mem_cons.1 hin with hin | hin
        · cases hin
        · rw [failed_of_mem pages hin] at hfailed
          cases hfailed
      · intro e he
        cases he
  | some e =>
      have hresult : pages.result 0 = .error e := by rw [Pages.result, hfailed]
      rw [hresult]
      constructor
      · intro n hn
        cases hn
      · intro limit start e' hin
        rcases List.mem_cons.1 hin with hin | hin
        · cases hin
        · obtain rfl : e = e' := by
            rw [failed_of_mem pages hin] at hfailed
            exact (Option.some.inj hfailed).symm
          exact ⟨rfl, hfailed, rfl, hrefreshed⟩
      · intro e' he
        obtain rfl := Except.error.inj he
        obtain ⟨start, hin⟩ := @mem_of_failed now pages none e hfailed
        exact .inl ⟨start, List.mem_cons_of_mem _ hin⟩

/-! ## There is such a run -/

theorem cacheRooms_runs {pages : Option Pages} (rooms : List ListedRoom) :
    ∀ {d : Database} {count : Nat},
      ((rooms.map ListedRoom.entry).foldlM (cacheRoom now) (.ok count)).Runs
        (rooms.flatMap (ListedRoom.exchanges now)) (.ok (count + rooms.length)) ∧
      listing.Path ⟨d, pages, rooms⟩ (rooms.flatMap (ListedRoom.exchanges now))
        ⟨stored now rooms d, pages, []⟩ := by
  induction rooms with
  | nil => intro d count; exact ⟨Prog.reaches_nil.2 rfl, rfl⟩
  | cons o rooms ih =>
      intro d count
      obtain ⟨hr, hp⟩ := @ih (stored now [o] d) (count + 1)
      rw [Nat.add_assoc, Nat.add_comm 1] at hr
      refine ⟨?_, ?_⟩
      · rw [List.map_cons, List.foldlM_cons, cacheRoom_eq]
        exact ⟨_, rfl, _, rfl, hr⟩
      · exact ⟨_, ⟨o, rooms, rfl, rfl, rfl⟩, _, .inr ⟨"", _, rfl, rfl⟩, hp⟩

/-- A page whose upserts all go through, in front of the rest. -/
theorem page_runs {pages : Pages} {rooms : List ListedRoom} {token : Option String}
    {fuel count : Nat} {start : Option String} {d : Database} {t : List RoomExchange}
    {x : Option (Result Nat)} {s' : Upstream}
    (hanswer : pages.answer = .ok ⟨rooms.map ListedRoom.entry, token⟩)
    (hfront : pages.front = rooms)
    (hr : (goOn now fuel (count + rooms.length) token).Runs t x)
    (hp : listing.Path ⟨stored now rooms d, pages.next, []⟩ t s') :
    (cachePages now (fuel + 1) start count).Runs (⟨.listRooms 100 start, pages.answer⟩ ::
        (rooms.flatMap (ListedRoom.exchanges now) ++ t)) x ∧
      listing.Path ⟨d, some pages, []⟩ (⟨.listRooms 100 start, pages.answer⟩ ::
        (rooms.flatMap (ListedRoom.exchanges now) ++ t)) s' := by
  obtain ⟨hrooms, hrpath⟩ := @cacheRooms_runs now pages.next rooms d count
  constructor
  · refine ⟨_, rfl, ?_⟩
    rw [hanswer]
    show ((List.foldlM (cacheRoom now) (.ok count) (rooms.map ListedRoom.entry)) >>= _).Runs _ _
    refine Prog.Runs.bind ?_ hrooms
    cases token with
    | none => exact hr
    | some token => exact hr
  · refine ⟨⟨d, pages.next, rooms⟩, ⟨pages, rfl, rfl, ?_⟩, hrpath.append hp⟩
    rw [hfront]

theorem cachePages_runs (pages : Pages) : ∀ {fuel : Nat} {start : Option String}
    {count : Nat} {d : Database}, pages.count ≤ fuel →
    (cachePages now fuel start count).Runs (pages.exchanges now start)
        (some (pages.result count)) ∧
      listing.Path ⟨d, some pages, []⟩ (pages.exchanges now start)
        ⟨stored now pages.rooms d, none, []⟩ := by
  induction pages with
  | failure e =>
      intro fuel start count d hfuel
      obtain ⟨fuel, rfl⟩ := Nat.exists_eq_add_of_le' hfuel
      exact ⟨⟨_, rfl, Prog.reaches_nil.2 rfl⟩, _, ⟨_, rfl, rfl, rfl⟩, rfl⟩
  | last rooms =>
      intro fuel start count d hfuel
      obtain ⟨fuel, rfl⟩ := Nat.exists_eq_add_of_le' hfuel
      have hpage := @page_runs now (.last rooms) rooms none fuel count start d [] _ _ rfl rfl
        (Prog.reaches_nil.2 rfl) rfl
      rw [List.append_nil] at hpage
      exact hpage
  | page rooms token next ih =>
      intro fuel start count d hfuel
      obtain ⟨fuel, rfl⟩ := Nat.exists_eq_add_of_le' (Nat.le_trans (Nat.le_add_left 1 _) hfuel)
      obtain ⟨hr, hp⟩ := @ih fuel (some token) (count + rooms.length) (stored now rooms d)
        (Nat.le_of_succ_le_succ hfuel)
      have hresult : next.result (count + rooms.length) =
          (Pages.page rooms token next).result count := by
        rw [Pages.result, Pages.result, Pages.failed, Pages.rooms, List.length_append,
          Nat.add_assoc]
      rw [hresult] at hr
      rw [← stored_append] at hp
      exact page_runs rfl rfl hr hp

/-- On every list of pages the refresh can come to an end, and however it does, it
goes through every page once and caches what it says. -/
theorem refreshRoomCache_exact {pages : Pages} {d : Database} {fuel : Nat}
    (hfuel : pages.count ≤ fuel) :
    (∃ t r s', (refreshRoomCache fuel).Runs t (some r) ∧
      listing.Path ⟨d, some pages, []⟩ t s') ∧
    ∀ t x s', (refreshRoomCache fuel).Runs t x →
      listing.Path ⟨d, some pages, []⟩ t s' →
      ∃ r now, x = some r ∧ Exact pages d t r s'.db now := by
  constructor
  · obtain ⟨hr, hp⟩ := @cachePages_runs "" pages fuel none 0 d hfuel
    exact ⟨⟨.store .now, ""⟩ :: pages.exchanges "" none, pages.result 0, _,
      ⟨_, rfl, hr⟩, _, rfl, hp⟩
  · intro t x s' hr hp
    suffices hall : (refreshRoomCache fuel).wp listing.logged (⟨d, some pages, []⟩, [])
        fun x s => ∃ r now, x = some r ∧ Exact pages d s.2 r s.1.db now from
      Prog.wp_logged_runs hall hr hp
    refine Prog.wp_logged_cons trivial fun now s hstep => ?_
    obtain rfl : s = ⟨d, some pages, []⟩ := hstep
    refine Prog.wp_mono (fun x s hx => ?_) (cachePages_wp pages hfuel)
    obtain ⟨r, rfl, hr⟩ := hx
    refine ⟨r, now, rfl, ?_⟩
    rcases hr with hr | ⟨rfl, hdb, hlog⟩
    · exact hr.exact
    · rw [hlog, hdb]
      exact exact_exchanges pages d

end

/-- A room that is on both pages, with a child on the second. -/
def lounge (children : Result (List String)) : ListedRoom :=
  ⟨⟨"!lounge:example.org", some "Lounge", none⟩, children⟩

def twoPages : Pages :=
  .page [lounge (.error (.upstream "synapse" "404"))] "1" (.last [lounge (.ok ["!a:example.org"])])

/-- It is cached as a space. -/
theorem lounge_cached :
    let room := (lounge (.ok ["!a:example.org"])).cached "now"
    let d' : Database := { Database.empty with cachedRooms := [room] }
    ∃ r now, some (.ok 2) = some r ∧ Exact twoPages .empty
      (⟨.store .now, "now"⟩ :: twoPages.exchanges "now" none) r d' now := by
  intro room d'
  refine (refreshRoomCache_exact (Nat.le_refl 2)).2 _ _ ⟨d', none, []⟩ ?_ ?_
  · exact ⟨_, rfl, _, rfl, _, rfl, _, rfl, _, rfl, _, rfl, _, rfl, Prog.reaches_nil.2 rfl⟩
  · exact ⟨_, rfl, _, ⟨_, rfl, rfl, rfl⟩, _, ⟨_, _, rfl, rfl, rfl⟩, _, .inr ⟨"", _, rfl, rfl⟩,
      _, ⟨_, rfl, rfl, rfl⟩, _, ⟨_, _, rfl, rfl, rfl⟩, _, .inr ⟨"", _, rfl, rfl⟩, rfl⟩

end MatrixIdentityAdmin.Ref.PolicyHandlers
