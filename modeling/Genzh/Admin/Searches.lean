/-
The three searches of the console: accounts, tickets and communities. Each puts the text that is looked for between two
percent signs and leaves the characters in it that have a meaning in a pattern as they are, so that such a text finds rows
it does not occur in. The communities come on one page, and there is no second.
-/
import Genzh.Admin.Console

namespace Genzh.Admin

open Genzh.Lib Genzh.Domain Genzh.Infrastructure

/-! ## Communities -/

/-- The columns of `communities` that the list shows besides. -/
structure CommunityColumns where
  name : String
  description : Option String := none
  quarantinedAt : Option Timestamp := none
  quarantineReason : Option String := none
  createdAt : Timestamp
  deriving DecidableEq, Repr

/-- The database with these columns. -/
structure ModerationDb extends ConsoleDb where
  communityColumns : CommunityId → CommunityColumns

/-- Detailed view of a community for platform staff. -/
structure AdminCommunityView where
  id : CommunityId
  name : String
  description : Option String
  ownerId : UserId
  ownerHandle : Option String
  memberCount : Nat
  roomCount : Nat
  isQuarantined : Bool
  quarantinedAt : Option Timestamp
  quarantineReason : Option String
  createdAt : Timestamp
  deriving DecidableEq, Repr

/-- A row of `communities LEFT JOIN users`, with its counts. -/
def adminCommunityView (db : ModerationDb) (c : Community) : AdminCommunityView where
  id := c.id
  name := (db.communityColumns c.id).name
  description := (db.communityColumns c.id).description
  ownerId := c.ownerId
  ownerHandle := (db.users.find c.ownerId).map (·.handle)
  memberCount := db.communityMembers.count fun m => m.communityId = c.id
  roomCount := db.rooms.count fun r => r.communityId = some c.id
  isQuarantined := c.isQuarantined
  quarantinedAt := (db.communityColumns c.id).quarantinedAt
  quarantineReason := (db.communityColumns c.id).quarantineReason
  createdAt := (db.communityColumns c.id).createdAt

/-- Filter options for listing communities. -/
structure CommunitySearchQuery where
  q : Option String := none
  isQuarantined : Option Bool := none
  limit : Int
  deriving DecidableEq, Repr

/-- `ORDER BY c.created_at DESC`. In what order communities of one instant come is up to the database. -/
structure CommunityOrder where
  sort : List AdminCommunityView → List AdminCommunityView
  perm : ∀ rows, (sort rows).Perm rows
  sorted : ∀ rows, (sort rows).Pairwise fun a b => b.createdAt ≤ a.createdAt

namespace CommunityAdminService

/-- The filters of a list. -/
def filtered (folding : Folding) (query : CommunitySearchQuery) (c : AdminCommunityView) : Bool :=
  let needle := query.q.bind (searchPattern folding)
  needle.all (fun p => like (folding.lower c.name) p || like (folding.lower (c.description.getD "")) p ||
    like (folding.lower (c.ownerHandle.getD "")) p) &&
  query.isQuarantined.all fun quarantined => c.isQuarantined = quarantined

/-- The communities that match. -/
def matching (folding : Folding) (query : CommunitySearchQuery) (db : ModerationDb) : List AdminCommunityView :=
  (db.communities.rows.map (adminCommunityView db)).filter (filtered folding query)

/-- Search and list communities. -/
def list (order : CommunityOrder) (folding : Folding) (query : CommunitySearchQuery) (db : ModerationDb) :
    List AdminCommunityView :=
  (order.sort (matching folding query db)).take (clamp query.limit 1 100).toNat

end CommunityAdminService

/-! ## What is to be found -/

/-- What is looked for. -/
def needle (folding : Folding) (q : String) : List Char := (folding.toLowercase (trim q)).toList

/-- Does the text occur in a field, up to letter case? -/
def occurs (folding : Folding) (q field : String) : Prop := needle folding q <:+: (folding.lower field).toList

instance (folding : Folding) (q field : String) : Decidable (occurs folding q field) :=
  inferInstanceAs (Decidable (_ <:+: _))

namespace StaffUserView

def contains (folding : Folding) (q : String) (u : StaffUserView) : Prop :=
  occurs folding q u.handle ∨ occurs folding q u.email

end StaffUserView

/-- Does the text occur in one of a ticket's searched fields? -/
def ticketContains (folding : Folding) (q : String) (t : Ticket) : Prop :=
  occurs folding q t.subject ∨ occurs folding q t.category ∨ occurs folding q t.details

namespace AdminCommunityView

def contains (folding : Folding) (q : String) (c : AdminCommunityView) : Prop :=
  occurs folding q c.name ∨ occurs folding q (c.description.getD "") ∨ occurs folding q (c.ownerHandle.getD "")

instance (folding : Folding) (q : String) (c : AdminCommunityView) : Decidable (c.contains folding q) :=
  inferInstanceAs (Decidable (_ ∨ _))

end AdminCommunityView

/-- Whatever else a search is narrowed by: the rows that following the cursors comes to, and those of the communities that
a page of some size has, are the rows that contain the text. -/
structure Finds (order : CommunityOrder) (folding : Folding) (q : String) (db : ModerationDb) : Prop where
  accounts : ∀ search : UserSearch, search.q = q → ∃ fuel visited,
    follow (fun _ before beforeId => StaffService.searchUsers folding { search with before, beforeId } db.toConsoleDb) fuel 0 none
      none = some visited ∧
    ∀ u, u ∈ visited ↔ u ∈ db.users.rows.map (staffUserView db.toConsoleDb) ∧ u.contains folding q ∧
      StaffService.filtered folding { search with q := "" } u = true
  tickets : ∀ query : TicketQuery, query.q = some q → ∃ fuel visited,
    follow (fun _ after afterId => SupportService.list folding { query with after, afterId } db.toConsoleDb) fuel 0 none none =
      some visited ∧
    ∀ t, t ∈ visited ↔ t ∈ db.supportTickets.rows ∧ ticketContains folding q t ∧
      SupportService.filtered folding { query with q := none } t = true
  communities : ∀ query : CommunitySearchQuery, query.q = some q → ∀ c,
    (∃ limit, c ∈ CommunityAdminService.list order folding { query with limit } db) ↔
      c ∈ db.communities.rows.map (adminCommunityView db) ∧ c.contains folding q ∧
        CommunityAdminService.filtered folding { query with q := none } c = true

/-- No more communities contain the text than a page can have. -/
def FitOnAPage (folding : Folding) (q : String) (db : ModerationDb) : Prop :=
  ((db.communities.rows.map (adminCommunityView db)).filter fun c => c.contains folding q).length ≤ 100

/-- What has been lower-cased, and percent signs, the database leaves as it is. -/
def Folding.Settled (folding : Folding) : Prop :=
  ∀ q text : String, (∀ c ∈ text.toList, c ∈ (folding.toLowercase q).toList ∨ c = '%') → folding.lower text = text

/-! ## Plain texts -/

section Plain

variable {order : CommunityOrder} {folding : Folding} {q : String} {db : ModerationDb}

theorem like_between (text t : String) : like text s!"%{t}%" = Like.like text.toList ('%' :: (t.toList ++ ['%'])) := by
  unfold like
  congr 1
  show ("%" ++ t ++ "%").toList = '%' :: (t.toList ++ ['%'])
  simp [String.toList_append]

/-- A plain text is found in a field exactly if it occurs there. -/
theorem like_field (hplain : Like.plain (needle folding q) = true) (field : String) :
    like (folding.lower field) s!"%{folding.toLowercase (trim q)}%" = true ↔ occurs folding q field := by
  rw [like_between]
  exact Like.like_of_plain hplain _

/-- Nothing to look for is found everywhere, and occurs everywhere. -/
theorem occurs_of_empty (h : (folding.toLowercase (trim q)).isEmpty = true) (field : String) : occurs folding q field := by
  have hnil : needle folding q = [] := by simpa [needle] using h
  unfold occurs
  rw [hnil]
  exact List.nil_infix

/-- The pattern of three fields. -/
theorem searchPattern_iff (hplain : Like.plain (needle folding q) = true) (a b c : String) :
    ((searchPattern folding q).all fun p => like (folding.lower a) p || like (folding.lower b) p || like (folding.lower c) p) =
      true ↔ occurs folding q a ∨ occurs folding q b ∨ occurs folding q c := by
  unfold searchPattern
  by_cases hempty : (folding.toLowercase (trim q)).isEmpty = true
  · simp [hempty, occurs_of_empty hempty]
  · simp only [hempty, Bool.false_eq_true, if_false, Option.all_some, Bool.or_eq_true, like_field hplain, or_assoc]

theorem filtered_account (hplain : Like.plain (needle folding q) = true) (hq : (trim q).isEmpty = false) {search : UserSearch}
    (hsearch : search.q = q) (u : StaffUserView) : StaffService.filtered folding search u = true ↔
      u.contains folding q ∧ StaffService.filtered folding { search with q := "" } u = true := by
  have hblank : (trim "").isEmpty = true := by decide
  subst hsearch
  simp only [StaffService.filtered, hq, hblank, Bool.false_eq_true, if_false, if_true, Option.all_some, Option.all_none,
    Bool.true_and, Bool.and_eq_true, Bool.or_eq_true, like_field hplain, StaffUserView.contains, and_assoc]

theorem filtered_ticket (hplain : Like.plain (needle folding q) = true) {query : TicketQuery} (hquery : query.q = some q)
    (t : Ticket) : SupportService.filtered folding query t = true ↔
      ticketContains folding q t ∧ SupportService.filtered folding { query with q := none } t = true := by
  simp only [SupportService.filtered, hquery, Option.bind_some, Option.bind_none, Option.all_none, Bool.and_true,
    Bool.and_eq_true, searchPattern_iff hplain, ticketContains]
  tauto

theorem filtered_community (hplain : Like.plain (needle folding q) = true) {query : CommunitySearchQuery}
    (hquery : query.q = some q) (c : AdminCommunityView) : CommunityAdminService.filtered folding query c = true ↔
      c.contains folding q ∧ CommunityAdminService.filtered folding { query with q := none } c = true := by
  simp only [CommunityAdminService.filtered, hquery, Option.bind_some, Option.bind_none, Option.all_none, Bool.true_and,
    Bool.and_eq_true, searchPattern_iff hplain, AdminCommunityView.contains]

/-! ## Following the cursors -/

/-- Whatever the fuel, following the cursors comes to the same rows. -/
theorem follow_unique {α : Type} {fetch : Nat → Option Timestamp → Option Uuid → Page α} {fuel fuel' k : Nat}
    {cursor : Option Timestamp} {cursorId : Option Uuid} {visited visited' : List α}
    (h : follow fetch fuel k cursor cursorId = some visited) (h' : follow fetch fuel' k cursor cursorId = some visited') :
    visited = visited' := by
  induction fuel generalizing fuel' k cursor cursorId visited visited' with
  | zero => cases h
  | succ fuel ih =>
    cases fuel' with
    | zero => cases h'
    | succ fuel' =>
      simp only [follow] at h h'
      rcases hnext : (fetch k cursor cursorId).nextCursor with _ | next
      · simp only [hnext, Option.some.injEq] at h h'
        exact h.symm.trans h'
      · simp only [hnext, Option.map_eq_some_iff] at h h'
        obtain ⟨rest, hrest, rfl⟩ := h
        obtain ⟨rest', hrest', rfl⟩ := h'
        rw [ih hrest hrest']

theorem accounts_visited (folding : Folding) (search : UserSearch) (db : ConsoleDb) : ∃ fuel visited,
    follow (fun _ before beforeId => StaffService.searchUsers folding { search with before, beforeId } db) fuel 0 none none =
      some visited ∧ ∀ u, u ∈ visited ↔ u ∈ StaffService.matching folding search db := by
  have hstays : OnlyLater StaffService.key fun _ : Nat => StaffService.matching folding search db :=
    ⟨fun _ _ hu => hu, fun _ _ hu => .inl hu⟩
  obtain ⟨fuel, visited, hvisited, hperm, -⟩ := follow_visits (one_le_clamp (by decide))
    (fun _ => StaffService.fetches folding search db) (hstays.higher fun _ => StaffService.nodup_ids folding search db)
  exact ⟨fuel, visited, hvisited, fun u => hperm.mem_iff⟩

theorem tickets_visited (folding : Folding) (query : TicketQuery) (db : ConsoleDb) : ∃ fuel visited,
    follow (fun _ after afterId => SupportService.list folding { query with after, afterId } db) fuel 0 none none =
      some visited ∧ ∀ t, t ∈ visited ↔ t ∈ SupportService.matching folding query db := by
  have hstays : Keyset.OnlyHigher ((OrderDual.toDual ∘ position) ∘ SupportService.key)
      fun _ : Nat => SupportService.matching folding query db :=
    ⟨fun _ => SupportService.nodup_keys folding query db, fun _ _ ht => ht, fun _ _ ht => .inl ht⟩
  obtain ⟨fuel, visited, hvisited, hperm, -⟩ := follow_visits (one_le_clamp (by decide))
    (fun _ => SupportService.fetches folding query db) hstays
  exact ⟨fuel, visited, hvisited, fun t => hperm.mem_iff⟩

/-- What pages of some size have is what the largest page has. -/
theorem communities_reached (query : CommunitySearchQuery) (c : AdminCommunityView) :
    (∃ limit, c ∈ CommunityAdminService.list order folding { query with limit } db) ↔
      c ∈ (order.sort (CommunityAdminService.matching folding query db)).take 100 := by
  have hsame : ∀ limit, CommunityAdminService.list order folding { query with limit } db =
      (order.sort (CommunityAdminService.matching folding query db)).take (clamp limit 1 100).toNat := fun _ => rfl
  constructor
  · rintro ⟨limit, hc⟩
    rw [hsame] at hc
    refine (List.take_prefix_take_left ?_).subset hc
    unfold clamp
    omega
  · intro hc
    exact ⟨100, by rw [hsame]; exact hc⟩

/-- A page has all that match exactly if they fit on it. -/
theorem mem_take_iff {rows : List AdminCommunityView} (hnodup : rows.Nodup) :
    (∀ c, c ∈ (order.sort rows).take 100 ↔ c ∈ rows) ↔ rows.length ≤ 100 := by
  have hperm := order.perm rows
  constructor
  · intro h
    have hsub : rows.length ≤ ((order.sort rows).take 100).length := by
      refine (hnodup.subperm fun c hc => (h c).2 hc).length_le
    rw [List.length_take] at hsub
    omega
  · intro hfew c
    rw [List.take_of_length_le (by rw [hperm.length_eq]; exact hfew)]
    exact hperm.mem_iff

theorem nodup_communities (db : ModerationDb) : (db.communities.rows.map (adminCommunityView db)).Nodup := by
  refine List.Nodup.of_map (·.id) ?_
  rw [List.map_map]
  exact db.communities.nodup

/-! ## Which texts are found -/

/-- The two searches with cursors find a plain text where it occurs; the third does if what it finds fits on a page. -/
theorem finds_of_plain (hq : (trim q).isEmpty = false) (hplain : Like.plain (needle folding q) = true) :
    Finds order folding q db ↔ FitOnAPage folding q db := by
  have hcommunities : ∀ query : CommunitySearchQuery, query.q = some q → CommunityAdminService.matching folding query db =
      ((db.communities.rows.map (adminCommunityView db)).filter fun c => c.contains folding q).filter
        (CommunityAdminService.filtered folding { query with q := none }) := by
    intro query hquery
    rw [List.filter_filter]
    refine List.filter_congr fun c _ => ?_
    rw [Bool.eq_iff_iff, filtered_community hplain hquery, Bool.and_eq_true, decide_eq_true_eq, and_comm]
  constructor
  · intro h
    refine (@mem_take_iff order _ ((nodup_communities db).filter fun c => c.contains folding q)).1 fun c => ?_
    -- a query with nothing but the text has every community the text occurs in
    have hnone : ∀ c, CommunityAdminService.filtered folding { limit := 0 } c = true := fun c => rfl
    have hreach := h.communities { q := some q, limit := 0 } rfl c
    rw [communities_reached, hcommunities _ rfl, List.filter_eq_self.2 fun c _ => hnone c] at hreach
    rw [hreach, List.mem_filter, decide_eq_true_eq]
    exact ⟨fun h => ⟨h.1, h.2.1⟩, fun h => ⟨h.1, h.2, hnone c⟩⟩
  · intro hfit
    refine ⟨fun search hsearch => ?_, fun query hquery => ?_, fun query hquery c => ?_⟩
    · obtain ⟨fuel, visited, hvisited, hmem⟩ := accounts_visited folding search db.toConsoleDb
      refine ⟨fuel, visited, hvisited, fun u => ?_⟩
      rw [hmem, StaffService.matching, List.mem_filter, filtered_account hplain hq hsearch]
    · obtain ⟨fuel, visited, hvisited, hmem⟩ := tickets_visited folding query db.toConsoleDb
      refine ⟨fuel, visited, hvisited, fun t => ?_⟩
      rw [hmem, SupportService.matching, Table.mem_select, filtered_ticket hplain hquery]
    · have hfew : (CommunityAdminService.matching folding query db).length ≤ 100 := by
        rw [hcommunities query hquery]
        exact (List.length_filter_le _ _).trans hfit
      have hnodup : (CommunityAdminService.matching folding query db).Nodup := (nodup_communities db).filter _
      rw [communities_reached, (mem_take_iff hnodup).2 hfew c, CommunityAdminService.matching, List.mem_filter,
        filtered_community hplain hquery]

end Plain

section Literal

variable {order : CommunityOrder} {folding : Folding} {q : String}

/-- A ticket that says this everywhere. -/
def saying (text : String) : Ticket :=
  raised 5 1 ⟨1⟩ { kind := .help, category := text, subject := text, details := text } text text text

/-- A console with this one ticket. -/
def oneTicket (text : String) : ModerationDb :=
  { Db.empty 20 with
    supportTickets := Table.empty.insert (saying text)
    supportMessages := .empty
    auditLog := .empty
    userCreatedAt := fun _ => 0
    communityColumns := fun _ => { name := "", createdAt := 0 } }

/-- A text that is not plain finds a ticket it does not occur in. -/
theorem finds_too_much (hsettled : folding.Settled) (hplain : Like.plain (needle folding q) = false) :
    ∃ db, FitOnAPage folding q db ∧ ¬ Finds order folding q db := by
  obtain ⟨text, hlike, hinfix, hchars⟩ := Like.exists_like_not_infix hplain
  have hlower : folding.lower (String.ofList text) = String.ofList text :=
    hsettled (trim q) _ fun c hc => hchars c (by simpa using hc)
  refine ⟨oneTicket (String.ofList text), Nat.zero_le _, fun h => ?_⟩
  have hfields : ¬ occurs folding q (String.ofList text) := by
    unfold occurs
    rw [hlower, String.toList_ofList]
    exact hinfix
  -- the ticket is listed, for it matches the pattern, and then the text would have to occur in it
  obtain ⟨fuel, visited, hvisited, hmem⟩ := h.tickets { q := some q, limit := 1 } rfl
  obtain ⟨fuel', visited', hvisited', hmem'⟩ := tickets_visited folding { q := some q, limit := 1 }
    (oneTicket (String.ofList text)).toConsoleDb
  obtain rfl := follow_unique hvisited hvisited'
  have hpattern : (searchPattern folding q).all (fun p => like (folding.lower (String.ofList text)) p ||
      like (folding.lower (String.ofList text)) p || like (folding.lower (String.ofList text)) p) = true := by
    unfold searchPattern
    by_cases hempty : (folding.toLowercase (trim q)).isEmpty = true
    · simp [hempty]
    · have hmatch : like (String.ofList text) s!"%{folding.toLowercase (trim q)}%" = true := by
        rw [like_between, String.toList_ofList]
        exact hlike
      simp only [hempty, Bool.false_eq_true, if_false, Option.all_some, hlower, hmatch, Bool.or_self]
  have hfound : saying (String.ofList text) ∈ visited := by
    refine (hmem' _).2 (Table.mem_select.2 ⟨List.mem_singleton_self _, ?_⟩)
    simp only [SupportService.filtered, saying, raised, Option.all_none, Option.bind_some, Bool.true_and]
    exact hpattern
  rcases ((hmem _).1 hfound).2.1 with hin | hin | hin <;> exact hfields hin

/-- The searches find a text where it occurs and nowhere else, whatever the tables hold as long as the communities it occurs
in fit on a page, exactly if it has no characters with a meaning in a pattern; and for such a text they do so exactly if
the communities fit on a page. -/
theorem searches_literal_iff (order : CommunityOrder) (folding : Folding) (hsettled : folding.Settled) (q : String)
    (hq : (trim q).isEmpty = false) :
    ((∀ db, FitOnAPage folding q db → Finds order folding q db) ↔ Like.plain (needle folding q) = true) ∧
    (Like.plain (needle folding q) = true → ∀ db, Finds order folding q db ↔ FitOnAPage folding q db) := by
  refine ⟨⟨fun h => ?_, fun hplain db => (finds_of_plain hq hplain).2⟩, fun hplain db => finds_of_plain hq hplain⟩
  rcases hplain : Like.plain (needle folding q)
  · obtain ⟨db, hfit, hnot⟩ := @finds_too_much order folding q hsettled hplain
    exact absurd (h db hfit) hnot
  · rfl

end Literal

/-! ## An underscore -/

section Sample

/-- Communities of one instant in the order they are found. -/
def stableCommunities : CommunityOrder where
  sort rows := rows.insertionSort fun a b => b.createdAt ≤ a.createdAt
  perm rows := List.perm_insertionSort _ rows
  sorted rows := Keyset.pairwise_descending (fun a : AdminCommunityView => a.createdAt) rows

/-- Lower case of the letters from A to Z. -/
def asciiFolding : Folding where
  toLowercase s := String.ofList (s.toList.map Char.toLower)
  lower s := String.ofList (s.toList.map Char.toLower)

/-- A lower-case letter is no upper-case one. -/
theorem toLower_toLower (c : Char) : c.toLower.toLower = c.toLower := by
  have hnot : ¬ (c.toLower.val ≥ 'A'.val ∧ c.toLower.val ≤ 'Z'.val) := by
    unfold Char.toLower
    split <;> grind [UInt32.toNat_add, Char.toNat_val]
  exact dif_neg hnot

theorem asciiFolding_settled : asciiFolding.Settled := by
  intro q text h
  refine String.toList_injective ?_
  show (String.ofList (text.toList.map Char.toLower)).toList = text.toList
  rw [String.toList_ofList]
  refine (List.map_congr_left fun c hc => ?_).trans (List.map_id _)
  rcases h c hc with hlower | rfl
  · obtain ⟨d, -, rfl⟩ := List.mem_map.1 (by simpa [asciiFolding] using hlower)
    exact toLower_toLower d
  · rfl

/-- An account whose handle is `axb`. -/
def underscored : ModerationDb :=
  { Db.empty 20 with
    users := Table.empty.insert { id := ⟨1⟩, handle := "axb", email := "axb@genzh.test", isActive := true }
    supportTickets := .empty
    supportMessages := .empty
    auditLog := .empty
    userCreatedAt := fun _ => 0
    communityColumns := fun _ => { name := "", createdAt := 0 } }

/-- A handle without underscores is found only where it occurs. -/
theorem searches_literal_ana : (trim "ana").isEmpty = false ∧
    ((∀ db, FitOnAPage asciiFolding "ana" db → Finds stableCommunities asciiFolding "ana" db) ↔
      Like.plain (needle asciiFolding "ana") = true) ∧
    (Like.plain (needle asciiFolding "ana") = true → ∀ db, Finds stableCommunities asciiFolding "ana" db ↔
      FitOnAPage asciiFolding "ana" db) :=
  have hq : (trim "ana").isEmpty = false := by decide
  ⟨hq, searches_literal_iff stableCommunities asciiFolding asciiFolding_settled "ana" hq⟩

/-- Who looks for the handle `a_b` is shown `axb`. -/
theorem underscore_found : ¬ Finds stableCommunities asciiFolding "a_b" underscored := by
  intro h
  obtain ⟨fuel, visited, hvisited, hmem⟩ := h.accounts { q := "a_b", limit := 25 } rfl
  obtain ⟨fuel', visited', hvisited', hmem'⟩ := accounts_visited asciiFolding { q := "a_b", limit := 25 }
    underscored.toConsoleDb
  obtain rfl := follow_unique hvisited hvisited'
  have hfound : staffUserView underscored.toConsoleDb
      { id := ⟨1⟩, handle := "axb", email := "axb@genzh.test", isActive := true } ∈ visited := (hmem' _).2 (by decide)
  rcases ((hmem _).1 hfound).2.1 with hin | hin
  · exact absurd hin (by decide)
  · exact absurd hin (by decide)

end Sample

end Genzh.Admin
