/-
The lists of the console. Each is read page by page: a query fetches one row more than the page holds, the row is
dropped, and the last one kept is the cursor of the next page. The audit log and the accounts are listed newest first,
the tickets oldest first, and the three queries are written one by one.

`console_lists_visit`: following the cursors visits each row that matches once, in the order of the list, and ends.
-/
import Genzh.Admin.Support
import Genzh.Lib.Keyset
import Genzh.Lib.Like

namespace Genzh.Admin

open Genzh.Lib Genzh.Domain Genzh.Infrastructure

/-! ## What is listed -/

/-- An entry of the audit log. -/
structure AuditEntry where
  id : Uuid
  /-- `none` once the account of the actor is deleted. -/
  actorId : Option UserId
  actorHandle : Option String
  action : String
  subjectType : Option String
  subjectId : Option Uuid
  summary : String
  /-- The text of a JSON value. -/
  metadata : String
  createdAt : Timestamp
  deriving DecidableEq, Repr

instance : HasKey AuditEntry Uuid := ⟨AuditEntry.id⟩

/-- The database with the audit log, and the column of `users` that only the console reads. -/
structure ConsoleDb extends SupportDb where
  auditLog : Table AuditEntry
  userCreatedAt : UserId → Timestamp

/-- An account as staff see it. -/
structure StaffUserView where
  id : UserId
  handle : String
  email : String
  displayName : Option String
  isActive : Bool
  platformRole : PlatformRole
  suspendedAt : Option Timestamp
  suspensionReason : Option String
  createdAt : Timestamp
  deriving DecidableEq, Repr

/-- A row of `users LEFT JOIN profiles`. -/
def staffUserView (db : ConsoleDb) (u : User) : StaffUserView where
  id := u.id
  handle := u.handle
  email := u.email
  displayName := (db.profiles.find u.id).map (·.displayName)
  isActive := u.isActive
  platformRole := u.platformRole
  suspendedAt := u.suspendedAt
  suspensionReason := u.suspensionReason
  createdAt := db.userCreatedAt u.id

/-- Lower case, as the services have it and as the database has it. -/
structure Folding where
  toLowercase : String → String
  lower : String → String

/-! ## Pages -/

/-- A page, and where to resume. -/
structure Page (α : Type) where
  items : List α
  nextCursor : Option Timestamp
  nextCursorId : Option Uuid
  deriving DecidableEq, Repr

/-- Build a page from a batch fetched with one row more than `limit`. -/
def Page.fromOverfetch {α : Type} (rows : List α) (limit : Int) (key : α → Timestamp × Uuid) : Page α :=
  let hasMore : Bool := limit < rows.length
  let rows := if hasMore then rows.take (max limit 0).toNat else rows
  match hasMore, rows.getLast? with
  | true, some last => { items := rows, nextCursor := some (key last).1, nextCursorId := some (key last).2 }
  | _, _ => { items := rows, nextCursor := none, nextCursorId := none }

/-- `i64::clamp` -/
def clamp (limit low high : Int) : Int := min (max limit low) high

/-- `(created_at, id) < (created_at, id)` -/
def rowLt (a b : Timestamp × Uuid) : Bool := a.1 < b.1 || (a.1 = b.1 && a.2.toNat < b.2.toNat)

/-- The rows past the cursor of a list that is newest first. -/
def olderThan (before : Option Timestamp) (beforeId : Option Uuid) (at_ : Timestamp × Uuid) : Bool :=
  match before, beforeId with
  | none, _ => true
  | some t, none => at_.1 < t
  | some t, some i => rowLt at_ (t, i)

/-- The rows past the cursor of a list that is oldest first. -/
def newerThan (after : Option Timestamp) (afterId : Option Uuid) (at_ : Timestamp × Uuid) : Bool :=
  match after, afterId with
  | none, _ => true
  | some t, none => t < at_.1
  | some t, some i => rowLt (t, i) at_

/-- What is looked for, if anything is: `%..%` around the text. -/
def searchPattern (folding : Folding) (q : String) : Option String :=
  let t := folding.toLowercase (trim q)
  if t.isEmpty then none else some s!"%{t}%"

def like (text pattern : String) : Bool := Like.like text.toList pattern.toList

/-! ## The audit log -/

/-- How to narrow a read of the log. -/
structure AuditQuery where
  actorId : Option UserId := none
  action : Option String := none
  category : Option String := none
  q : Option String := none
  subjectId : Option Uuid := none
  before : Option Timestamp := none
  beforeId : Option Uuid := none
  limit : Int
  deriving DecidableEq, Repr

namespace AuditLog

def key (entry : AuditEntry) : Timestamp × Uuid := (entry.createdAt, entry.id)

/-- The filters of a read. Each passes when it is not asked for. -/
def filtered (folding : Folding) (query : AuditQuery) (entry : AuditEntry) : Bool :=
  let categoryPattern := query.category.map fun c => s!"{c}.%"
  let pattern := query.q.bind (searchPattern folding)
  query.actorId.all (fun actor => entry.actorId = some actor) &&
  query.action.all (fun action => entry.action = action) &&
  query.subjectId.all (fun subject => entry.subjectId = some subject) &&
  categoryPattern.all (fun p => like entry.action p) &&
  pattern.all fun p => like (folding.lower entry.summary) p || like (folding.lower (entry.actorHandle.getD "")) p ||
    like (folding.lower entry.action) p

/-- The entries that match. -/
def matching (folding : Folding) (query : AuditQuery) (db : ConsoleDb) : List AuditEntry :=
  db.auditLog.select (filtered folding query)

/-- Read the log, newest first. -/
def list (folding : Folding) (query : AuditQuery) (db : ConsoleDb) : Page AuditEntry :=
  let limit := clamp query.limit 1 200
  let past := db.auditLog.select fun e => filtered folding query e && olderThan query.before query.beforeId (e.createdAt, e.id)
  let entries := (past.insertionSort fun a b => !rowLt (a.createdAt, a.id) (b.createdAt, b.id)).take (limit + 1).toNat
  Page.fromOverfetch entries limit key

end AuditLog

/-! ## Accounts -/

/-- How to narrow a search of the account list. -/
structure UserSearch where
  q : String := ""
  role : Option PlatformRole := none
  isActive : Option Bool := none
  before : Option Timestamp := none
  beforeId : Option Uuid := none
  limit : Int
  deriving DecidableEq, Repr

namespace StaffService

def key (user : StaffUserView) : Timestamp × Uuid := (user.createdAt, user.id.uuid)

/-- The filters of a search. -/
def filtered (folding : Folding) (search : UserSearch) (u : StaffUserView) : Bool :=
  let needle := if (trim search.q).isEmpty then none else some s!"%{folding.toLowercase (trim search.q)}%"
  needle.all (fun p => like (folding.lower u.handle) p || like (folding.lower u.email) p) &&
  search.role.all (fun role => u.platformRole = role) &&
  search.isActive.all fun active => u.isActive = active

/-- The accounts that match. -/
def matching (folding : Folding) (search : UserSearch) (db : ConsoleDb) : List StaffUserView :=
  (db.users.rows.map (staffUserView db)).filter (filtered folding search)

/-- Find accounts by handle or e-mail, newest first. -/
def searchUsers (folding : Folding) (search : UserSearch) (db : ConsoleDb) : Page StaffUserView :=
  let limit := clamp search.limit 1 100
  let past := (db.users.rows.map (staffUserView db)).filter fun u =>
    filtered folding search u && olderThan search.before search.beforeId (u.createdAt, u.id.uuid)
  let users := (past.insertionSort fun a b => !rowLt (a.createdAt, a.id.uuid) (b.createdAt, b.id.uuid)).take (limit + 1).toNat
  Page.fromOverfetch users limit key

end StaffService

/-! ## Tickets -/

/-- How to narrow a read of the queue. -/
structure TicketQuery where
  status : Option TicketStatus := none
  kind : Option TicketKind := none
  assigneeId : Option UserId := none
  q : Option String := none
  after : Option Timestamp := none
  afterId : Option Uuid := none
  limit : Int
  deriving DecidableEq, Repr

namespace SupportService

def key (ticket : Ticket) : Timestamp × Uuid := (ticket.createdAt, ticket.id)

/-- The filters of a read. -/
def filtered (folding : Folding) (query : TicketQuery) (t : Ticket) : Bool :=
  let pattern := query.q.bind (searchPattern folding)
  query.status.all (fun status => t.status = status) &&
  query.kind.all (fun kind => t.kind = kind) &&
  query.assigneeId.all (fun assignee => t.assigneeId = some assignee) &&
  pattern.all fun p => like (folding.lower t.subject) p || like (folding.lower t.category) p || like (folding.lower t.details) p

/-- The tickets that match. -/
def matching (folding : Folding) (query : TicketQuery) (db : ConsoleDb) : List Ticket :=
  db.supportTickets.select (filtered folding query)

/-- The queue, oldest first. -/
def list (folding : Folding) (query : TicketQuery) (db : ConsoleDb) : Page Ticket :=
  let limit := clamp query.limit 1 200
  let past := db.supportTickets.select fun t => filtered folding query t && newerThan query.after query.afterId (t.createdAt, t.id)
  let tickets := (past.insertionSort fun a b => !rowLt (b.createdAt, b.id) (a.createdAt, a.id)).take (limit + 1).toNat
  Page.fromOverfetch tickets limit key

end SupportService

/-! ## Positions -/

/-- Where a row stands, as the keys of a list order it. -/
def position (at_ : Timestamp × Uuid) : Timestamp ×ₗ Nat := toLex (at_.1, at_.2.toNat)

theorem rowLt_iff {a b : Timestamp × Uuid} : rowLt a b = true ↔ position a < position b := by
  unfold rowLt position
  rw [Prod.Lex.toLex_lt_toLex]
  simp

theorem position_injective : Function.Injective position := by
  intro a b h
  have hpair := Prod.mk.inj (toLex.injective h)
  exact Prod.ext hpair.1 (BitVec.eq_of_toNat_eq hpair.2)

/-- The cursor of a list that is newest first. -/
theorem olderThan_row (last : Option (Timestamp × Uuid)) (at_ : Timestamp × Uuid) :
    olderThan (last.map Prod.fst) (last.map Prod.snd) at_ = (last.map position).all fun c => decide (position at_ < c) := by
  cases last with
  | none => rfl
  | some last =>
    show rowLt at_ last = decide (position at_ < position last)
    rw [Bool.eq_iff_iff, decide_eq_true_eq]
    exact rowLt_iff

/-- The cursor of a list that is oldest first: its order is the opposite one. -/
theorem newerThan_row (last : Option (Timestamp × Uuid)) (at_ : Timestamp × Uuid) :
    newerThan (last.map Prod.fst) (last.map Prod.snd) at_ =
      (last.map (OrderDual.toDual ∘ position)).all fun c => decide (OrderDual.toDual (position at_) < c) := by
  cases last with
  | none => rfl
  | some last =>
    show rowLt last at_ = decide (OrderDual.toDual (position at_) < OrderDual.toDual (position last))
    rw [Bool.eq_iff_iff, decide_eq_true_eq, OrderDual.toDual_lt_toDual]
    exact rowLt_iff

theorem newest_iff (a b : Timestamp × Uuid) : (!rowLt a b) = true ↔ position b ≤ position a := by
  rw [Bool.not_eq_true', ← Bool.not_eq_true, rowLt_iff, not_lt]

theorem oldest_iff (a b : Timestamp × Uuid) :
    (!rowLt b a) = true ↔ OrderDual.toDual (position b) ≤ OrderDual.toDual (position a) := by
  rw [newest_iff, OrderDual.toDual_le_toDual]

theorem one_le_clamp {limit high : Int} (h : 1 ≤ high) : 1 ≤ clamp limit 1 high := le_min (le_max_right limit 1) h

/-! ## Following the cursors -/

/-- Follow the cursor from the `k`-th request on until it is absent. -/
def follow {α : Type} (fetch : Nat → Option Timestamp → Option Uuid → Page α) :
    Nat → Nat → Option Timestamp → Option Uuid → Option (List α)
  | 0, _, _, _ => none
  | fuel + 1, k, cursor, cursorId =>
    let page := fetch k cursor cursorId
    match page.nextCursor with
    | none => some page.items
    | some next => (follow fetch fuel (k + 1) (some next) page.nextCursorId).map (page.items ++ ·)

section Paging

variable {α κ : Type} [LinearOrder κ] {order : Timestamp × Uuid → κ} {key : α → Timestamp × Uuid} {limit : Int}

/-- What a query fetches: the rows past the cursor in the order of the list, one more than the page holds. -/
def Fetches (order : Timestamp × Uuid → κ) (key : α → Timestamp × Uuid) (limit : Int)
    (fetch : Option Timestamp → Option Uuid → Page α) (content : List α) : Prop :=
  ∀ last : Option (Timestamp × Uuid), fetch (last.map Prod.fst) (last.map Prod.snd) =
    Page.fromOverfetch ((Keyset.rows (order ∘ key) (last.map order) content).take (limit + 1).toNat) limit key

/-- A page is a keyset page, its cursor the key of its last row. -/
theorem fromOverfetch_rows (h1 : 1 ≤ limit) (cursor : Option κ) (content : List α) :
    ∃ last : Option (Timestamp × Uuid),
      Page.fromOverfetch ((Keyset.rows (order ∘ key) cursor content).take (limit + 1).toNat) limit key =
        { items := (Keyset.page (order ∘ key) limit.toNat cursor content).1,
          nextCursor := last.map Prod.fst, nextCursorId := last.map Prod.snd } ∧
      (Keyset.page (order ∘ key) limit.toNat cursor content).2 = last.map order := by
  have hfetch : (limit + 1).toNat = limit.toNat + 1 := by omega
  have hmax : (max limit 0).toNat = limit.toNat := by omega
  unfold Page.fromOverfetch Keyset.page
  simp only [hfetch, hmax]
  generalize Keyset.rows (order ∘ key) cursor content = rows
  by_cases hmore : limit.toNat < (rows.take (limit.toNat + 1)).length
  · have hlong : limit < ((rows.take (limit.toNat + 1)).length : Int) := by omega
    refine ⟨((rows.take (limit.toNat + 1)).take limit.toNat).getLast?.map key, ?_, ?_⟩
    · simp only [hlong, decide_true, if_true]
      cases ((rows.take (limit.toNat + 1)).take limit.toNat).getLast? <;> rfl
    · rw [if_pos hmore, Option.map_map]
  · have hshort : ¬ limit < ((rows.take (limit.toNat + 1)).length : Int) := by omega
    refine ⟨none, ?_, if_neg hmore⟩
    simp only [hshort, decide_false, if_false, Bool.false_eq_true]
    rw [@List.take_of_length_le _ limit.toNat (rows.take _) (by omega)]
    rfl

/-- A query of a list that is newest first. -/
theorem fetches_newest (key : α → Timestamp × Uuid) (limit : Int) (wanted : α → Bool) (rows : List α) :
    Fetches position key limit
      (fun before beforeId =>
        let past := rows.filter fun a => wanted a && olderThan before beforeId (key a)
        Page.fromOverfetch ((past.insertionSort fun a b => !rowLt (key a) (key b)).take (limit + 1).toNat) limit key)
      (rows.filter wanted) := by
  intro last
  have hsorted : (rows.filter fun a => wanted a && olderThan (last.map Prod.fst) (last.map Prod.snd) (key a)).insertionSort
      (fun a b => !rowLt (key a) (key b)) = Keyset.rows (position ∘ key) (last.map position) (rows.filter wanted) :=
    Keyset.insertionSort_eq_rows (fun a b => newest_iff (key a) (key b)) (fun a => olderThan_row last (key a)) rows
  rw [← hsorted]

/-- A query of a list that is oldest first. -/
theorem fetches_oldest (key : α → Timestamp × Uuid) (limit : Int) (wanted : α → Bool) (rows : List α) :
    Fetches (OrderDual.toDual ∘ position) key limit
      (fun after afterId =>
        let past := rows.filter fun a => wanted a && newerThan after afterId (key a)
        Page.fromOverfetch ((past.insertionSort fun a b => !rowLt (key b) (key a)).take (limit + 1).toNat) limit key)
      (rows.filter wanted) := by
  intro last
  have hsorted : (rows.filter fun a => wanted a && newerThan (last.map Prod.fst) (last.map Prod.snd) (key a)).insertionSort
      (fun a b => !rowLt (key b) (key a)) =
        Keyset.rows ((OrderDual.toDual ∘ position) ∘ key) (last.map (OrderDual.toDual ∘ position)) (rows.filter wanted) :=
    Keyset.insertionSort_eq_rows (fun a b => oldest_iff (key a) (key b)) (fun a => newerThan_row last (key a)) rows
  rw [← hsorted]

variable {fetch : Nat → Option Timestamp → Option Uuid → Page α} {contents : Nat → List α}

/-- Following the cursors of the pages is following those of the keyset. -/
theorem follow_eq (h1 : 1 ≤ limit) (hfetch : ∀ k, Fetches order key limit (fetch k) (contents k)) (fuel k : Nat)
    (last : Option (Timestamp × Uuid)) :
    follow fetch fuel k (last.map Prod.fst) (last.map Prod.snd) =
      Keyset.follow (order ∘ key) limit.toNat contents fuel k (last.map order) := by
  induction fuel generalizing k last with
  | zero => rfl
  | succ fuel ih =>
    obtain ⟨next, hpage, hcursor⟩ := @fromOverfetch_rows _ _ _ order key limit h1 (last.map order) (contents k)
    rw [follow, Keyset.follow]
    simp only [hfetch k last, hpage]
    rcases hkeyset : Keyset.page (order ∘ key) limit.toNat (last.map order) (contents k) with ⟨items, c⟩
    rw [hkeyset] at hcursor
    obtain rfl : c = next.map order := hcursor
    cases next with
    | none => rfl
    | some next =>
      have hrest := ih (k + 1) (some next)
      simp only [Option.map_some] at hrest ⊢
      rw [hrest]

/-- Following the cursors visits the rows of the first request once, in the order of the list, and ends. -/
theorem follow_visits (h1 : 1 ≤ limit) (hfetch : ∀ k, Fetches order key limit (fetch k) (contents k))
    (hrows : Keyset.OnlyHigher (order ∘ key) contents) :
    ∃ fuel visited, follow fetch fuel 0 none none = some visited ∧ visited.Perm (contents 0) ∧
      visited.Pairwise fun a b => order (key b) < order (key a) := by
  refine ⟨(contents 0).length + 1, Keyset.rows (order ∘ key) none (contents 0), ?_, Keyset.perm_rows_none, Keyset.descending hrows⟩
  exact (follow_eq h1 hfetch _ 0 none).trans (Keyset.follow_eq hrows (by omega))

/-- Rows that come and stay: those of the first request are there at every later one, and the others were created later
than all of them. -/
structure OnlyLater (key : α → Timestamp × Uuid) (contents : Nat → List α) : Prop where
  kept : ∀ k, ∀ a ∈ contents 0, a ∈ contents k
  later : ∀ k, ∀ a ∈ contents k, a ∈ contents 0 ∨ ∀ b ∈ contents 0, (key b).1 < (key a).1

theorem OnlyLater.higher (h : OnlyLater key contents) (hnodup : ∀ k, ((contents k).map fun a => (key a).2).Nodup) :
    Keyset.OnlyHigher (position ∘ key) contents where
  nodup k := by
    have hkeys : ((contents k).map key).Nodup := by
      refine List.Nodup.of_map Prod.snd ?_
      rw [List.map_map]
      exact hnodup k
    rw [← List.map_map]
    exact hkeys.map position_injective
  kept := h.kept
  higher k a ha := (h.later k a ha).imp_right fun hlater b hb => Prod.Lex.toLex_lt_toLex.2 (.inl (hlater b hb))

end Paging

/-! ## The three lists -/

theorem AuditLog.fetches (folding : Folding) (query : AuditQuery) (db : ConsoleDb) :
    Fetches position AuditLog.key (clamp query.limit 1 200) (fun before beforeId => AuditLog.list folding { query with before, beforeId } db)
      (AuditLog.matching folding query db) :=
  fetches_newest AuditLog.key (clamp query.limit 1 200) (AuditLog.filtered folding query) db.auditLog.rows

theorem AuditLog.nodup_ids (folding : Folding) (query : AuditQuery) (db : ConsoleDb) :
    ((AuditLog.matching folding query db).map fun entry => (AuditLog.key entry).2).Nodup :=
  db.auditLog.nodup.sublist (List.filter_sublist.map _)

theorem StaffService.fetches (folding : Folding) (search : UserSearch) (db : ConsoleDb) :
    Fetches position StaffService.key (clamp search.limit 1 100)
      (fun before beforeId => StaffService.searchUsers folding { search with before, beforeId } db)
      (StaffService.matching folding search db) :=
  fetches_newest StaffService.key (clamp search.limit 1 100) (StaffService.filtered folding search)
    (db.users.rows.map (staffUserView db))

theorem StaffService.nodup_ids (folding : Folding) (search : UserSearch) (db : ConsoleDb) :
    ((StaffService.matching folding search db).map fun u => (StaffService.key u).2).Nodup := by
  have hids : ((db.users.rows.map (staffUserView db)).map fun u => (StaffService.key u).2).Nodup := by
    rw [List.map_map]
    have huuid : Function.Injective UserId.uuid := by
      rintro ⟨i⟩ ⟨j⟩ rfl
      rfl
    have hkeys := db.users.nodup.map huuid
    rw [List.map_map] at hkeys
    exact hkeys
  exact hids.sublist (List.filter_sublist.map _)

theorem SupportService.fetches (folding : Folding) (query : TicketQuery) (db : ConsoleDb) :
    Fetches (OrderDual.toDual ∘ position) SupportService.key (clamp query.limit 1 200)
      (fun after afterId => SupportService.list folding { query with after, afterId } db) (SupportService.matching folding query db) :=
  fetches_oldest SupportService.key (clamp query.limit 1 200) (SupportService.filtered folding query) db.supportTickets.rows

theorem SupportService.nodup_keys (folding : Folding) (query : TicketQuery) (db : ConsoleDb) :
    ((SupportService.matching folding query db).map ((OrderDual.toDual ∘ position) ∘ SupportService.key)).Nodup := by
  have hids : ((SupportService.matching folding query db).map fun t => (SupportService.key t).2).Nodup :=
    db.supportTickets.nodup.sublist (List.filter_sublist.map _)
  have hkeys : ((SupportService.matching folding query db).map SupportService.key).Nodup := by
    refine List.Nodup.of_map Prod.snd ?_
    rw [List.map_map]
    exact hids
  rw [← List.map_map]
  exact hkeys.map (OrderDual.toDual.injective.comp position_injective)

/-- For every filter and every limit: following the cursors ends, and has then visited each row that matches once, in the
order of the list. On the lists that are newest first these are the rows there were at the first request, whatever rows
of later times came meanwhile. -/
theorem console_lists_visit (folding : Folding) (dbs : Nat → ConsoleDb) (db : ConsoleDb) (audit : AuditQuery) (users : UserSearch)
    (tickets : TicketQuery) (haudit : OnlyLater AuditLog.key fun k => AuditLog.matching folding audit (dbs k))
    (husers : OnlyLater StaffService.key fun k => StaffService.matching folding users (dbs k)) :
    (∃ fuel visited,
      follow (fun k before beforeId => AuditLog.list folding { audit with before, beforeId } (dbs k)) fuel 0 none none = some visited ∧
      visited.Perm (AuditLog.matching folding audit (dbs 0)) ∧
      visited.Pairwise fun a b => rowLt (b.createdAt, b.id) (a.createdAt, a.id) = true) ∧
    (∃ fuel visited,
      follow (fun k before beforeId => StaffService.searchUsers folding { users with before, beforeId } (dbs k)) fuel 0 none none =
        some visited ∧
      visited.Perm (StaffService.matching folding users (dbs 0)) ∧
      visited.Pairwise fun a b => rowLt (b.createdAt, b.id.uuid) (a.createdAt, a.id.uuid) = true) ∧
    (∃ fuel visited,
      follow (fun _ after afterId => SupportService.list folding { tickets with after, afterId } db) fuel 0 none none = some visited ∧
      visited.Perm (SupportService.matching folding tickets db) ∧
      visited.Pairwise fun a b => rowLt (a.createdAt, a.id) (b.createdAt, b.id) = true) := by
  refine ⟨?_, ?_, ?_⟩
  · obtain ⟨fuel, visited, hvisited, hperm, hsorted⟩ := follow_visits (one_le_clamp (by decide))
      (fun k => AuditLog.fetches folding audit (dbs k)) (haudit.higher fun k => AuditLog.nodup_ids folding audit (dbs k))
    exact ⟨fuel, visited, hvisited, hperm, hsorted.imp fun hlt => rowLt_iff.2 hlt⟩
  · obtain ⟨fuel, visited, hvisited, hperm, hsorted⟩ := follow_visits (one_le_clamp (by decide))
      (fun k => StaffService.fetches folding users (dbs k)) (husers.higher fun k => StaffService.nodup_ids folding users (dbs k))
    exact ⟨fuel, visited, hvisited, hperm, hsorted.imp fun hlt => rowLt_iff.2 hlt⟩
  · -- nothing comes into the queue while it is read: a later ticket would stand at its end
    have hrows : Keyset.OnlyHigher ((OrderDual.toDual ∘ position) ∘ SupportService.key)
        fun _ : Nat => SupportService.matching folding tickets db :=
      ⟨fun _ => SupportService.nodup_keys folding tickets db, fun _ _ ht => ht, fun _ _ ht => .inl ht⟩
    obtain ⟨fuel, visited, hvisited, hperm, hsorted⟩ := follow_visits (one_le_clamp (by decide))
      (fun _ => SupportService.fetches folding tickets db) hrows
    exact ⟨fuel, visited, hvisited, hperm, hsorted.imp fun hlt => rowLt_iff.2 (OrderDual.toDual_lt_toDual.1 hlt)⟩

/-! ### A log that is written while it is read -/

def logged (id : Uuid) (createdAt : Timestamp) : AuditEntry where
  id := id
  actorId := some ⟨1⟩
  actorHandle := some "root"
  action := "user.suspend"
  subjectType := some "user"
  subjectId := some id
  summary := "suspended"
  metadata := "{}"
  createdAt := createdAt

def registered (id : Uuid) : User := { id := ⟨id⟩, handle := "ana", email := "ana@genzh.test", isActive := true }

def waiting (id : Uuid) : Ticket := raised 5 id ⟨1⟩ { kind := .help, category := "other", subject := "hi", details := "hi" } "other" "hi" "hi"

/-- Two entries, two accounts and two tickets, each pair of one instant. -/
def quietConsole : ConsoleDb :=
  { Db.empty 20 with
    users := (Table.empty.insert (registered 1)).insert (registered 2)
    supportTickets := (Table.empty.insert (waiting 1)).insert (waiting 2)
    supportMessages := .empty
    auditLog := (Table.empty.insert (logged 1 5)).insert (logged 2 5)
    userCreatedAt := fun u => if u = ⟨3⟩ then 9 else 5 }

/-- An entry and an account more. -/
def laterConsole : ConsoleDb :=
  { quietConsole with
    users := quietConsole.users.insert (registered 3)
    auditLog := quietConsole.auditLog.insert (logged 3 9) }

/-- They come after the first page. -/
def busyConsole : Nat → ConsoleDb
  | 0 => quietConsole
  | _ + 1 => laterConsole

def unfolded : Folding := { toLowercase := id, lower := id }

theorem onlyLater_busy {α : Type} {key : α → Timestamp × Uuid} {listed : ConsoleDb → List α}
    (hkept : ∀ a ∈ listed quietConsole, a ∈ listed laterConsole)
    (hlater : ∀ a ∈ listed laterConsole, a ∈ listed quietConsole ∨ ∀ b ∈ listed quietConsole, (key b).1 < (key a).1) :
    OnlyLater key fun k => listed (busyConsole k) where
  kept k := by
    cases k with
    | zero => exact fun a ha => ha
    | succ k => exact hkept
  later k := by
    cases k with
    | zero => exact fun a ha => .inl ha
    | succ k => exact hlater

theorem console_lists_visit_busy :
    (∃ fuel visited,
      follow (fun k before beforeId =>
          AuditLog.list unfolded { action := some "user.suspend", before, beforeId, limit := 1 } (busyConsole k)) fuel 0 none none =
        some visited ∧
      visited.Perm (AuditLog.matching unfolded { action := some "user.suspend", limit := 1 } (busyConsole 0)) ∧
      visited.Pairwise fun a b => rowLt (b.createdAt, b.id) (a.createdAt, a.id) = true) ∧
    (∃ fuel visited,
      follow (fun k before beforeId => StaffService.searchUsers unfolded { before, beforeId, limit := 1 } (busyConsole k)) fuel 0
        none none = some visited ∧
      visited.Perm (StaffService.matching unfolded { limit := 1 } (busyConsole 0)) ∧
      visited.Pairwise fun a b => rowLt (b.createdAt, b.id.uuid) (a.createdAt, a.id.uuid) = true) ∧
    (∃ fuel visited,
      follow (fun _ after afterId => SupportService.list unfolded { after, afterId, limit := 1 } quietConsole) fuel 0 none none =
        some visited ∧
      visited.Perm (SupportService.matching unfolded { limit := 1 } quietConsole) ∧
      visited.Pairwise fun a b => rowLt (a.createdAt, a.id) (b.createdAt, b.id) = true) :=
  console_lists_visit unfolded busyConsole quietConsole { action := some "user.suspend", limit := 1 } { limit := 1 } { limit := 1 }
    (onlyLater_busy (by decide) (by decide)) (onlyLater_busy (by decide) (by decide))

end Genzh.Admin
