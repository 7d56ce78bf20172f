/-
Search over messages. The rooms it looks in are part of the query: those that the caller has a participant row in, and the
one that the request names, if it names one, which is then checked as for reading it.

What a database makes of words is a parameter: whether a message has those of a query, how well it ranks, and how it folds
case to compare characters.
-/
import Genzh.Messaging.Service
import Genzh.Lib.Like
import Genzh.Room.Request

namespace Genzh.Messaging

open Genzh.Lib Genzh.Domain Genzh.Infrastructure Genzh.Room

/-- The text search of the database. -/
structure TextSearch where
  /-- `content_tsv @@ websearch_to_tsquery('english', query)` -/
  words : String → String → Bool
  /-- `GREATEST(ts_rank(..), word_similarity(..))` -/
  rank : String → String → ℚ
  /-- How `ILIKE` folds case: the characters with a meaning in patterns have none, and nothing else becomes one of them. -/
  lower : Char → Char
  lower_special : ∀ c, Like.special (lower c) = Like.special c
  lower_of_special : ∀ c, Like.special c = true → lower c = c

/-- `str::replace` of one character. -/
def replaceChar (c : Char) (new : List Char) (s : List Char) : List Char := s.flatMap fun d => if d = c then new else [d]

/-- Wrap a user's query as a `LIKE` pattern matching it as a literal substring. -/
def containsPattern (query : List Char) : List Char :=
  let escaped := replaceChar '_' ['\\', '_'] (replaceChar '%' ['\\', '%'] (replaceChar '\\' ['\\', '\\'] query))
  '%' :: (escaped ++ ['%'])

/-- `content ILIKE pattern` -/
def ilike (engine : TextSearch) (content pattern : List Char) : Bool :=
  Like.like (content.map engine.lower) (pattern.map engine.lower)

/-- Does the message match, by its words or by its characters? -/
def found (engine : TextSearch) (query : String) (m : Message) : Bool :=
  engine.words m.content query || ilike engine m.content.toList (containsPattern query.toList)

/-- Whichever half matched better decides the position, and then the newer comes first. -/
def ranksFirst (engine : TextSearch) (query : String) (a b : Message) : Bool :=
  engine.rank b.content query < engine.rank a.content query ||
    (engine.rank a.content query = engine.rank b.content query && b.createdAt ≤ a.createdAt)

/-- Full-text search, restricted to rooms the caller is a participant of. -/
def searchMessages (engine : TextSearch) (db : Db) (u : UserId) (query : String) (roomId : Option RoomId) (limit : Int) :
    List Message :=
  let rows := db.messages.select fun m =>
    found engine query m && (roomId.all fun r => m.roomId = r) && db.participates m.roomId u
  (rows.insertionSort fun a b => ranksFirst engine query a b).take limit.toNat

/-- Find messages the caller can already see. -/
def search (engine : TextSearch) (db : Db) (u : UserId) (query : String) (roomId : Option RoomId) (limit : Option Int) :
    Except ServiceError (List Message) := do
  let query := trim query
  if query.isEmpty then .ok []
  else do
    match roomId with
    | some r =>
      let _ ← visibleAccess db r u
      .ok (searchMessages engine db u query roomId (clampPageSize limit))
    | none => .ok (searchMessages engine db u query roomId (clampPageSize limit))

/-! ## Literal text -/

section Literal

variable (engine : TextSearch)

/-- Replacing the backslash first, the three replacements escape what has a meaning, once. -/
theorem containsPattern_eq (query : List Char) : containsPattern query = '%' :: (query.flatMap Like.escaped ++ ['%']) := by
  unfold containsPattern replaceChar
  simp only [List.flatMap_assoc]
  refine congrArg (fun middle => '%' :: (middle ++ ['%'])) (List.flatMap_congr fun c _ => ?_)
  unfold Like.escaped Like.special
  by_cases hescape : c = '\\'
  · subst hescape
    rfl
  · by_cases hpercent : c = '%'
    · subst hpercent
      rfl
    · by_cases hunderscore : c = '_'
      · subst hunderscore
        rfl
      · simp [hescape, hpercent, hunderscore]

/-- A text matches the pattern of a query exactly if the query occurs in it, whatever characters the query has. -/
theorem like_containsPattern (query text : List Char) : Like.like text (containsPattern query) = true ↔ query <:+: text := by
  rw [containsPattern_eq]
  exact Like.like_escape query text

theorem map_escaped (query : List Char) :
    (query.flatMap Like.escaped).map engine.lower = (query.map engine.lower).flatMap Like.escaped := by
  rw [List.map_flatMap, List.flatMap_map]
  refine List.flatMap_congr fun c _ => ?_
  unfold Like.escaped
  rw [engine.lower_special]
  by_cases h : Like.special c = true
  · simp only [if_pos h, List.map_cons, List.map_nil]
    rw [engine.lower_of_special '\\' (by decide)]
  · simp only [if_neg h, List.map_cons, List.map_nil]

/-- What the database finds by its characters contains the query, in either case. -/
theorem ilike_containsPattern (query content : List Char) :
    ilike engine content (containsPattern query) = true ↔ query.map engine.lower <:+: content.map engine.lower := by
  have hpercent : engine.lower '%' = '%' := engine.lower_of_special '%' (by decide)
  have hpattern : (containsPattern query).map engine.lower =
      '%' :: ((query.map engine.lower).flatMap Like.escaped ++ ['%']) := by
    rw [containsPattern_eq, List.map_cons, List.map_append, map_escaped, List.map_singleton, hpercent]
  unfold ilike
  rw [hpattern]
  exact Like.like_escape _ _

end Literal

/-! ## What is returned, and what is found -/

/-- Does the message contain the text, in either case? -/
def containsText (engine : TextSearch) (text : String) (m : Message) : Prop :=
  text.toList.map engine.lower <:+: m.content.toList.map engine.lower

section Order

variable {engine : TextSearch} {query : String}

theorem ranksFirst_iff {a b : Message} : ranksFirst engine query a b = true ↔
    engine.rank b.content query < engine.rank a.content query ∨
      (engine.rank a.content query = engine.rank b.content query ∧ b.createdAt ≤ a.createdAt) := by
  unfold ranksFirst
  simp [Bool.or_eq_true, Bool.and_eq_true]

theorem ranksFirst_total (a b : Message) : ranksFirst engine query a b = true ∨ ranksFirst engine query b a = true := by
  rw [ranksFirst_iff, ranksFirst_iff]
  rcases lt_trichotomy (engine.rank a.content query) (engine.rank b.content query) with h | h | h
  · exact .inr (.inl h)
  · exact (le_total b.createdAt a.createdAt).imp (fun ht => .inr ⟨h, ht⟩) fun ht => .inr ⟨h.symm, ht⟩
  · exact .inl (.inl h)

theorem ranksFirst_trans {a b c : Message} (hab : ranksFirst engine query a b = true) (hbc : ranksFirst engine query b c = true) :
    ranksFirst engine query a c = true := by
  rw [ranksFirst_iff] at hab hbc ⊢
  rcases hab with hab | ⟨hab, htab⟩
  · rcases hbc with hbc | ⟨hbc, -⟩
    · exact .inl (hbc.trans hab)
    · exact .inl (hbc ▸ hab)
  · rcases hbc with hbc | ⟨hbc, htbc⟩
    · exact .inl (hab ▸ hbc)
    · exact .inr ⟨hab.trans hbc, htbc.trans htab⟩

/-- What the limit cuts off comes after all that it leaves. -/
theorem mem_take_or_after {rows : List Message} {limit : Nat} {m : Message} (h : m ∈ rows) :
    m ∈ (rows.insertionSort fun a b => ranksFirst engine query a b).take limit ∨
    ((rows.insertionSort fun a b => ranksFirst engine query a b).take limit).length = limit ∧
      ∀ m' ∈ (rows.insertionSort fun a b => ranksFirst engine query a b).take limit, ranksFirst engine query m' m = true := by
  have htotal : Std.Total (fun a b : Message => ranksFirst engine query a b = true) := ⟨ranksFirst_total⟩
  have htrans : IsTrans Message (fun a b => ranksFirst engine query a b = true) := ⟨fun _ _ _ => ranksFirst_trans⟩
  have hsorted := List.pairwise_insertionSort (fun a b : Message => ranksFirst engine query a b = true) rows
  have hmem : m ∈ rows.insertionSort fun a b => ranksFirst engine query a b = true := (List.mem_insertionSort _).2 h
  rw [← List.take_append_drop limit (rows.insertionSort _)] at hsorted hmem
  rcases List.mem_append.1 hmem with hkept | hcut
  · exact .inl hkept
  · have hlonger := List.length_pos_of_mem hcut
    rw [List.length_drop] at hlonger
    exact .inr ⟨List.length_take_of_le (by omega), fun m' hm' => (List.pairwise_append.1 hsorted).2.2 m' hm' m hcut⟩

end Order

section Search

variable {engine : TextSearch} {db : Db} {u : UserId} {query : String} {roomId : Option RoomId} {limit : Option Int}

theorem mem_searchMessages {m : Message} {n : Int} (h : m ∈ searchMessages engine db u query roomId n) :
    m ∈ db.messages.rows ∧ db.participates m.roomId u = true ∧ ∀ r, roomId = some r → m.roomId = r := by
  obtain ⟨hmem, hwhere⟩ := Table.mem_select.1 ((List.mem_insertionSort _).1 (List.mem_of_mem_take h))
  rw [Bool.and_eq_true, Bool.and_eq_true] at hwhere
  obtain ⟨⟨-, hroom⟩, hin⟩ := hwhere
  refine ⟨hmem, hin, fun r hr => ?_⟩
  rw [hr] at hroom
  exact of_decide_eq_true hroom

theorem found_of_contains {m : Message} {n : Int} (hmem : m ∈ db.messages.rows) (hin : db.participates m.roomId u = true)
    (hroom : ∀ r, roomId = some r → m.roomId = r) (hcontains : containsText engine query m) :
    m ∈ searchMessages engine db u query roomId n ∨ (searchMessages engine db u query roomId n).length = n.toNat ∧
      ∀ m' ∈ searchMessages engine db u query roomId n, ranksFirst engine query m' m = true := by
  refine mem_take_or_after (Table.mem_select.2 ⟨hmem, ?_⟩)
  have hfound : found engine query m = true := by
    unfold found
    rw [(ilike_containsPattern engine query.toList m.content.toList).2 hcontains, Bool.or_true]
  have hnamed : (roomId.all fun r => m.roomId = r) = true := by
    rw [Option.all_eq_true]
    exact fun r hr => decide_eq_true (hroom r hr)
  rw [hfound, hnamed, hin]
  rfl

/-- A search that asks for nothing returns nothing; one that names a room is refused where reading the room is; any other
asks the database. -/
theorem search_cases (engine : TextSearch) (db : Db) (u : UserId) (query : String) (roomId : Option RoomId) (limit : Option Int) :
    ((trim query).isEmpty = true ∧ search engine db u query roomId limit = .ok []) ∨
    (∃ r e, roomId = some r ∧ visibleAccess db r u = .error e ∧ search engine db u query roomId limit = .error e) ∨
    ((∀ r, roomId = some r → (visibleAccess db r u).isOk = true) ∧ search engine db u query roomId limit =
      .ok (searchMessages engine db u (trim query) roomId (clampPageSize limit))) := by
  unfold search
  by_cases hempty : (trim query).isEmpty = true
  · rw [if_pos hempty]
    exact .inl ⟨hempty, rfl⟩
  · rw [if_neg hempty]
    cases roomId with
    | none => exact .inr (.inr ⟨fun r hr => (by cases hr), rfl⟩)
    | some r =>
      rcases hvisible : visibleAccess db r u with e | a
      · exact .inr (.inl ⟨r, e, rfl, hvisible, by simp only [hvisible]; rfl⟩)
      · refine .inr (.inr ⟨fun r' hr => ?_, by simp only [hvisible]; rfl⟩)
        cases hr
        rw [hvisible]
        rfl

/-- What a search that names a room returns lies in it and may be read, and what any search returns lies in rooms the caller
is in. A message of such a room that contains the text is found, unless as many as the limit allows rank before it. A search
is only refused where reading the room it names is. -/
theorem search_scoped (engine : TextSearch) (db : Db) (u : UserId) (query : String) (roomId : Option RoomId) (limit : Option Int) :
    (∀ e, search engine db u query roomId limit = .error e → ∃ r, roomId = some r ∧ visibleAccess db r u = .error e) ∧
    ∀ results, search engine db u query roomId limit = .ok results →
      (∀ m ∈ results, m ∈ db.messages.rows ∧ db.participates m.roomId u = true ∧
        ∀ r, roomId = some r → m.roomId = r ∧ (visibleAccess db r u).isOk = true) ∧
      ((trim query).isEmpty = true ∨ ∀ m ∈ db.messages.rows, db.participates m.roomId u = true →
        (∀ r, roomId = some r → m.roomId = r) → containsText engine (trim query) m →
          m ∈ results ∨ (results.length : Int) = clampPageSize limit ∧
            ∀ m' ∈ results, ranksFirst engine (trim query) m' m = true) := by
  have hpositive : 1 ≤ clampPageSize limit := le_max_left ..
  rcases search_cases engine db u query roomId limit with ⟨hempty, hnone⟩ | ⟨r, e, rfl, hvisible, hrefused⟩ | ⟨hvisible, hasked⟩
  · rw [hnone]
    refine ⟨fun e h => (by cases h), fun results h => ?_⟩
    cases h
    exact ⟨fun m hm => (by cases hm), .inl hempty⟩
  · rw [hrefused]
    refine ⟨fun e' h => ?_, fun results h => by cases h⟩
    cases h
    exact ⟨r, rfl, hvisible⟩
  · rw [hasked]
    refine ⟨fun e h => (by cases h), fun results h => ?_⟩
    cases h
    constructor
    · intro m hm
      obtain ⟨hmem, hin, hroom⟩ := mem_searchMessages hm
      exact ⟨hmem, hin, fun r hr => ⟨hroom r hr, hvisible r hr⟩⟩
    · refine .inr fun m hmem hin hroom hcontains => ?_
      refine (found_of_contains hmem hin hroom hcontains).imp_right ?_
      rintro ⟨hlength, hbefore⟩
      exact ⟨by rw [hlength]; omega, hbefore⟩

end Search

/-! ### A conversation that is closed to one of the two -/

/-- A capital letter lowers to a letter, and everything else to itself. -/
theorem toLower_cases (c : Char) : c.toLower = c ∨ Like.special c.toLower = false ∧ Like.special c = false := by
  by_cases hupper : c.val ≥ 'A'.val ∧ c.val ≤ 'Z'.val
  · right
    have hcapitals : ∀ n < 26, Like.special (Char.ofNat (65 + n)).toLower = false ∧ Like.special (Char.ofNat (65 + n)) = false := by
      decide
    have hlow : 65 ≤ c.toNat := hupper.1
    have hhigh : c.toNat ≤ 90 := hupper.2
    have hc := hcapitals (c.toNat - 65) (by omega)
    rwa [show 65 + (c.toNat - 65) = c.toNat by omega, Char.ofNat_toNat] at hc
  · left
    unfold Char.toLower
    rw [dif_neg hupper]

/-- A database that searches by characters alone, and folds the case of ASCII letters. -/
def asciiSearch : TextSearch where
  words _ _ := false
  rank _ _ := 0
  lower := Char.toLower
  lower_special c := by
    rcases toLower_cases c with h | ⟨hlower, h⟩
    · rw [h]
    · rw [hlower, h]
  lower_of_special c hspecial := by
    rcases toLower_cases c with h | ⟨-, h⟩
    · exact h
    · rw [h] at hspecial
      cases hspecial

/-- A search returns what the caller may read, and all of it that contains the query and lies where they participate. -/
def SearchesWhatIsSeen (engine : TextSearch) (db : Db) (u : UserId) : Prop :=
  ∀ query roomId limit results, search engine db u query roomId limit = .ok results →
    (∀ m ∈ results, (visibleAccess db m.roomId u).isOk = true) ∧
    ∀ m ∈ db.messages.rows, (visibleAccess db m.roomId u).isOk = true → db.participates m.roomId u = true →
      (∀ r, roomId = some r → m.roomId = r) → containsText engine query m → m ∈ results

/-- `ana` writes to `ben`. -/
def greetings : List Room.Request :=
  [.register (account ⟨1⟩ "ana"), .register (account ⟨2⟩ "ben"), .openDirect ⟨10⟩ ⟨1⟩ ⟨2⟩ "Ben" "ben",
    .post ⟨20⟩ ⟨10⟩ ⟨1⟩ "hello ben" false none none, .clock 1, .post ⟨21⟩ ⟨10⟩ ⟨1⟩ "Hello again" false none none]

/-- What she wrote last. -/
def helloAgain : Message :=
  { id := ⟨21⟩, roomId := ⟨10⟩, authorId := ⟨1⟩, content := "Hello again", replyToId := none, isAnonymous := false, editedAt := none
    createdAt := 1 }

/-- He searches the conversation for one message, gets the newer one, and may read it. -/
theorem newest_greeting_found :
    (∀ m ∈ [helloAgain], m ∈ (run step (Db.empty 0) greetings).messages.rows ∧
      (run step (Db.empty 0) greetings).participates m.roomId ⟨2⟩ = true ∧
      ∀ r, (some ⟨10⟩ : Option RoomId) = some r →
        m.roomId = r ∧ (visibleAccess (run step (Db.empty 0) greetings) r ⟨2⟩).isOk = true) ∧
    ((trim " hello").isEmpty = true ∨ ∀ m ∈ (run step (Db.empty 0) greetings).messages.rows,
      (run step (Db.empty 0) greetings).participates m.roomId ⟨2⟩ = true →
        (∀ r, (some ⟨10⟩ : Option RoomId) = some r → m.roomId = r) → containsText asciiSearch (trim " hello") m →
          m ∈ [helloAgain] ∨ (([helloAgain] : List Message).length : Int) = clampPageSize (some 1) ∧
            ∀ m' ∈ [helloAgain], ranksFirst asciiSearch (trim " hello") m' m = true) :=
  (search_scoped asciiSearch (run step (Db.empty 0) greetings) ⟨2⟩ " hello" (some ⟨10⟩) (some 1)).2 [helloAgain]
    (by decide +kernel)

/-- She has blocked him. -/
def greetedAndBlocked : List Room.Request := greetings ++ [.block ⟨1⟩ ⟨2⟩]

/-- When she has blocked him, he still finds what he may not read any more; and before, he finds no more of it than he asks
for. -/
theorem search_beyond_sight :
    ¬ SearchesWhatIsSeen asciiSearch (run step (Db.empty 0) greetedAndBlocked) ⟨2⟩ ∧
    ¬ SearchesWhatIsSeen asciiSearch (run step (Db.empty 0) greetings) ⟨2⟩ := by
  constructor
  · intro h
    have hhidden : ((search asciiSearch (run step (Db.empty 0) greetedAndBlocked) ⟨2⟩ "hello" none none).toOption.any fun results =>
        results.any fun m => !(visibleAccess (run step (Db.empty 0) greetedAndBlocked) m.roomId ⟨2⟩).isOk) = true := by
      decide +kernel
    rcases hresults : search asciiSearch (run step (Db.empty 0) greetedAndBlocked) ⟨2⟩ "hello" none none with e | results
    · rw [hresults] at hhidden
      cases hhidden
    · rw [hresults] at hhidden
      obtain ⟨m, hm, hhidden⟩ := List.any_eq_true.1 hhidden
      rw [(h _ _ _ results hresults).1 m hm] at hhidden
      cases hhidden
  · intro h
    have hmissed : ((search asciiSearch (run step (Db.empty 0) greetings) ⟨2⟩ "hello" none (some 1)).toOption.any fun results =>
        results.all fun m => m.id ≠ ⟨20⟩) = true := by decide +kernel
    have hthere : (run step (Db.empty 0) greetings).messages.rows.find? (fun m => m.id = ⟨20⟩) = some
        { id := ⟨20⟩, roomId := ⟨10⟩, authorId := ⟨1⟩, content := "hello ben", replyToId := none, isAnonymous := false
          editedAt := none, createdAt := 0 } := by decide +kernel
    rcases hresults : search asciiSearch (run step (Db.empty 0) greetings) ⟨2⟩ "hello" none (some 1) with e | results
    · rw [hresults] at hmissed
      cases hmissed
    · rw [hresults] at hmissed
      have hfound := (h _ _ _ results hresults).2 _ (List.mem_of_find?_eq_some hthere) (by decide +kernel) (by decide +kernel)
        (fun r hr => by cases hr) ⟨[], " ben".toList, by decide⟩
      exact absurd rfl (of_decide_eq_true (List.all_eq_true.1 hmissed _ hfound))

end Genzh.Messaging
