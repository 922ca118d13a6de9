import MatrixIdentityAdmin.Lib.Hoare
import MatrixIdentityAdmin.Lib.Upsert
import MatrixIdentityAdmin.Ref.PolicyHandlers
import MatrixIdentityAdmin.Spec.Database

/-!
# Synapse, page by page

`refresh_room_cache` goes from page to page and asks about every room on the way.
`Pages` is what there is to go through: the rooms of one page after the other,
each with what the query for its children will be answered, up to a page without
a token or to a call that fails. `listing` hands it out, one answer after the
other, beside a database whose statements may fail.
-/

namespace MatrixIdentityAdmin.Ref.PolicyHandlers

open MatrixIdentityAdmin.Lib App

abbrev RoomExchange : Type := Event AppCall AppCall.Answer

/-- An entry of a page, and the answer about its children. -/
structure ListedRoom where
  entry : RoomListEntry
  children : Result (List String)

namespace ListedRoom

/-- The query succeeded, and there are some. -/
def isSpace (o : ListedRoom) : Bool :=
  match o.children with
  | .ok (_ :: _) => true
  | _ => false

/-- The row it is cached as. -/
def cached (now : String) (o : ListedRoom) : CachedRoom :=
  ⟨o.entry.roomId, o.entry.name, o.entry.canonicalAlias, none, o.isSpace, now⟩

/-- The query and the upsert. -/
def exchanges (now : String) (o : ListedRoom) : List RoomExchange :=
  [⟨.service (.synapse (.getSpaceChildren o.entry.roomId)), o.children⟩,
    ⟨.store (.sql (.upsertCachedRoom (o.cached now))), .ok ()⟩]

end ListedRoom

/-- What the calls of `list_rooms` come back with. -/
inductive Pages where
  | failure (e : AppError)
  | last (rooms : List ListedRoom)
  | page (rooms : List ListedRoom) (token : String) (next : Pages)

namespace Pages

def answer : Pages → Result RoomList
  | .failure e => .error e
  | .last rooms => .ok ⟨rooms.map ListedRoom.entry, none⟩
  | .page rooms token _ => .ok ⟨rooms.map ListedRoom.entry, some token⟩

/-- The rooms on the page that comes first. -/
def front : Pages → List ListedRoom
  | .failure _ => []
  | .last rooms | .page rooms .. => rooms

def next : Pages → Option Pages
  | .failure _ | .last _ => none
  | .page _ _ next => some next

/-- The error at the end. -/
def failed : Pages → Option AppError
  | .failure e => some e
  | .last _ => none
  | .page _ _ next => next.failed

/-- Everything that is listed, in order. -/
def rooms : Pages → List ListedRoom
  | .failure _ => []
  | .last rooms => rooms
  | .page rooms _ next => rooms ++ next.rooms

/-- How many calls it takes. -/
def count : Pages → Nat
  | .failure _ | .last _ => 1
  | .page _ _ next => next.count + 1

/-- Each page once, with the token of the page before, and all that is on it. -/
def exchanges (now : String) : Option String → Pages → List RoomExchange
  | start, .failure e => [⟨.listRooms 100 start, .error e⟩]
  | start, .last rooms =>
      ⟨.listRooms 100 start, (last rooms).answer⟩ ::
        rooms.flatMap (ListedRoom.exchanges now)
  | start, .page rooms token next =>
      ⟨.listRooms 100 start, (page rooms token next).answer⟩ ::
        (rooms.flatMap (ListedRoom.exchanges now) ++ next.exchanges now (some token))

end Pages

/-- The database, the pages still to come, and the rooms of the current page
that have not been asked about. -/
structure Upstream where
  db : Database
  pages : Option Pages
  due : List ListedRoom

/-- Pages and rooms come in their order. A statement may fail. -/
def listing : Env AppCall AppCall.Answer Upstream where
  pre _ _ := True
  step s
    | .listRooms .. => fun x s' => ∃ pages, s.pages = some pages ∧
        x = pages.answer ∧ s' = ⟨s.db, pages.next, pages.front⟩
    | .service (.synapse (.getSpaceChildren _)) => fun x s' => ∃ o rest,
        s.due = o :: rest ∧ x = o.children ∧ s' = { s with due := rest }
    | .store (.sql statement) => fun x s' =>
        (∃ e, x = .error e ∧ s' = s) ∨
          ∃ refusal db, s.db.run refusal statement = (x, db) ∧ s' = { s with db := db }
    | .store .now => fun _ s' => s' = s
    | _ => fun _ _ => False

/-- The cache of `d'` is that of `d` with the rooms put over it; nothing else is
different. -/
def Refreshed (now : String) (rooms : List ListedRoom) (d d' : Database) : Prop :=
  Overrides CachedRoom.roomId d.cachedRooms (rooms.map (ListedRoom.cached now))
    d'.cachedRooms ∧
  d' = { d with cachedRooms := d'.cachedRooms }

/-- What a refresh that comes to `r` has exchanged and left behind. -/
structure Exact (pages : Pages) (d : Database) (t : List RoomExchange)
    (r : Result Nat) (d' : Database) (now : String) : Prop where
  /-- An `Ok` counts the entries of all the pages, and they are cached. -/
  counted : ∀ n, r = .ok n → pages.failed = none ∧ n = pages.rooms.length ∧
    t = ⟨.store .now, now⟩ :: pages.exchanges now none ∧
    Refreshed now pages.rooms d d'
  /-- A page that fails is an `Err`, and the pages before it are cached. -/
  cut : ∀ limit start e, ⟨.listRooms limit start, .error e⟩ ∈ t → r = .error e ∧
    pages.failed = some e ∧
    t = ⟨.store .now, now⟩ :: pages.exchanges now none ∧
    Refreshed now pages.rooms d d'
  /-- There is no other `Err` but that of an upsert. -/
  reason : ∀ e, r = .error e → (∃ start, ⟨.listRooms 100 start, .error e⟩ ∈ t) ∨
    ∃ room, ⟨.store (.sql (.upsertCachedRoom room)), .error e⟩ ∈ t

end MatrixIdentityAdmin.Ref.PolicyHandlers
