/-
The order of a ranking, and of the rows that are loaded for it. The score decides and then the identifier, so that among
candidates with identifiers of their own no two can change places: whatever order they come in, the ranking is the same.
The query for the rows keeps no order; they are put back into that of the ranking, and those that are gone are left out.
-/
import Genzh.Recommend.Surfaces
import Mathlib.Data.List.Sort

namespace Genzh.Recommend

open Genzh.Lib Genzh.Domain Genzh.Infrastructure

/-! ## The order -/

section Order

variable {α : Type} {tiebreak : α → Uuid} {scored scored' : List (Scored α)} {a b c : Scored α}

/-- No two of the candidates have an identifier in common. -/
def Distinct (tiebreak : α → Uuid) (scored : List (Scored α)) : Prop := (scored.map fun a => tiebreak a.item).Nodup

/-- By score, the highest first, and then by identifier. -/
def Before (tiebreak : α → Uuid) (a b : Scored α) : Prop :=
  b.score < a.score ∨ a.score = b.score ∧ (tiebreak a.item).toNat < (tiebreak b.item).toNat

theorem ranksBefore_iff : ranksBefore tiebreak a b = true ↔
    b.score < a.score ∨ a.score = b.score ∧ (tiebreak a.item).toNat ≤ (tiebreak b.item).toNat := by
  simp [ranksBefore]

theorem ranksBefore_total (a b : Scored α) : ranksBefore tiebreak a b = true ∨ ranksBefore tiebreak b a = true := by
  rw [ranksBefore_iff, ranksBefore_iff]
  rcases lt_trichotomy a.score b.score with h | h | h
  · exact .inr (.inl h)
  · -- the scores tie, so the identifiers are compared
    rcases Nat.le_total (tiebreak a.item).toNat (tiebreak b.item).toNat with hle | hle
    · exact .inl (.inr ⟨h, hle⟩)
    · exact .inr (.inr ⟨h.symm, hle⟩)
  · exact .inl (.inl h)

theorem ranksBefore_trans (hab : ranksBefore tiebreak a b = true) (hbc : ranksBefore tiebreak b c = true) :
    ranksBefore tiebreak a c = true := by
  rw [ranksBefore_iff] at *
  rcases hab with hab | ⟨hab, hle⟩
  · rcases hbc with hbc | ⟨hbc, -⟩
    · exact .inl (hbc.trans hab)
    · exact .inl (hbc ▸ hab)
  · rcases hbc with hbc | ⟨hbc, hle'⟩
    · exact .inl (hab ▸ hbc)
    · exact .inr ⟨hab.trans hbc, hle.trans hle'⟩

/-- Two that come before each other have one identifier. -/
theorem tiebreak_eq (hab : ranksBefore tiebreak a b = true) (hba : ranksBefore tiebreak b a = true) :
    tiebreak a.item = tiebreak b.item := by
  rw [ranksBefore_iff] at *
  rcases hab with hab | ⟨heq, hle⟩
  · rcases hba with hba | ⟨heq, -⟩
    · exact absurd hab hba.asymm
    · exact absurd hab (by rw [heq]; exact lt_irrefl _)
  · rcases hba with hba | ⟨-, hle'⟩
    · exact absurd hba (by rw [heq]; exact lt_irrefl _)
    · exact BitVec.eq_of_toNat_eq (Nat.le_antisymm hle hle')

instance : Std.Total fun a b : Scored α => ranksBefore tiebreak a b = true where
  total := ranksBefore_total

instance : IsTrans (Scored α) fun a b => ranksBefore tiebreak a b = true where
  trans _ _ _ := ranksBefore_trans

theorem perm_rank (tiebreak : α → Uuid) (scored : List (Scored α)) : (rank tiebreak scored).Perm scored :=
  List.perm_insertionSort _ scored

theorem pairwise_rank (tiebreak : α → Uuid) (scored : List (Scored α)) :
    (rank tiebreak scored).Pairwise fun a b => ranksBefore tiebreak a b = true :=
  List.pairwise_insertionSort (fun a b => ranksBefore tiebreak a b = true) scored

theorem Distinct.rank (h : Distinct tiebreak scored) : Distinct tiebreak (rank tiebreak scored) :=
  ((perm_rank tiebreak scored).map _).nodup_iff.2 h

theorem Distinct.eq_of_mem (h : Distinct tiebreak scored) (ha : a ∈ scored) (hb : b ∈ scored)
    (heq : tiebreak a.item = tiebreak b.item) : a = b :=
  List.inj_on_of_nodup_map h ha hb heq

/-- In a ranking of candidates with identifiers of their own no two tie. -/
theorem pairwise_before (h : Distinct tiebreak scored) : (rank tiebreak scored).Pairwise (Before tiebreak) := by
  have hne : (rank tiebreak scored).Pairwise fun a b => tiebreak a.item ≠ tiebreak b.item := List.pairwise_map.1 h.rank
  refine ((pairwise_rank tiebreak scored).and hne).imp fun {a b} ⟨hle, hne⟩ => ?_
  rcases ranksBefore_iff.1 hle with hlt | ⟨heq, hle⟩
  · exact .inl hlt
  · exact .inr ⟨heq, lt_of_le_of_ne hle fun heq => hne (BitVec.eq_of_toNat_eq heq)⟩

/-- The order in which the candidates come does not show. -/
theorem rank_eq_of_perm (h : Distinct tiebreak scored) (hperm : scored'.Perm scored) :
    rank tiebreak scored' = rank tiebreak scored := by
  have hranks : (rank tiebreak scored').Perm (rank tiebreak scored) :=
    (perm_rank tiebreak scored').trans (hperm.trans (perm_rank tiebreak scored).symm)
  refine hranks.eq_of_pairwise (fun a b ha hb hab hba => ?_) (pairwise_rank tiebreak scored') (pairwise_rank tiebreak scored)
  exact h.eq_of_mem (hperm.mem_iff.1 (mem_rank.1 ha)) (mem_rank.1 hb) (tiebreak_eq hab hba)

end Order

/-! ## The rows -/

section Rows

variable {db : Db} {scored : List (Scored RoomCandidate)} {rows : List RoomRow}

/-- A winner as it is handed out. -/
def recommendation (entry : Scored RoomCandidate) (row : RoomRow) : RoomRecommendation :=
  { room := row.toRoom, score := entry.score, reasons := entry.reasons }

/-- `SELECT … FROM rooms WHERE id = ANY($1)`, in an order that is not said. -/
structure Selected (db : Db) (scored : List (Scored RoomCandidate)) (rows : List RoomRow) : Prop where
  perm : rows.Perm (db.rooms.select fun r => (scored.map (·.item.id)).contains r.id)

/-- The rows by their identifiers, a later one in the place of an earlier one. -/
def byId (rows : List RoomRow) : Table RoomRow := rows.foldl Table.put .empty

/-- The rows of a query, handed out in the order of the ranking. -/
def hydrateFrom (rows : List RoomRow) (scored : List (Scored RoomCandidate)) : List RoomRecommendation :=
  if scored.isEmpty then [] else takeRooms (byId rows) scored

/-- What the query found of an entry. -/
def survivor (db : Db) (entry : Scored RoomCandidate) : Option RoomRecommendation :=
  (db.rooms.find entry.item.id).map (recommendation entry)

theorem find_byId (h : Selected db scored rows) (id : RoomId) :
    (byId rows).find id = if id ∈ scored.map (·.item.id) then db.rooms.find id else none := by
  have hnodup : (rows.map key).Nodup :=
    ((h.perm.map key).nodup_iff).2 (db.rooms.nodup.sublist (List.filter_sublist.map key))
  have hmem : ∀ row, row ∈ rows ∧ row.id = id ↔ id ∈ scored.map (·.item.id) ∧ db.rooms.find id = some row := by
    intro row
    rw [h.perm.mem_iff, Table.mem_select, Table.find_eq_some, List.contains_iff_mem]
    constructor
    · rintro ⟨⟨hrow, hin⟩, rfl⟩
      exact ⟨hin, hrow, rfl⟩
    · rintro ⟨hin, hrow, rfl⟩
      exact ⟨⟨hrow, hin⟩, rfl⟩
  -- no two rows are of one room, so none takes the place of another
  have hfind : ∀ row, (byId rows).find id = some row ↔ row ∈ rows ∧ row.id = id := by
    intro row
    unfold byId
    rw [Table.find_foldl_put rows .empty hnodup, Table.find_empty, Option.or_none]
    exact Table.find_eq_some (t := ⟨rows, hnodup⟩)
  refine Option.ext fun row => ?_
  rw [hfind, hmem]
  by_cases hin : id ∈ scored.map (·.item.id) <;> simp [hin]

/-- Where every identifier is asked for once, handing a row out does not keep it from another. -/
theorem takeRooms_eq {entries : List (Scored RoomCandidate)} (h : (entries.map (·.item.id)).Nodup) {t : Table RoomRow} :
    takeRooms t entries = entries.filterMap fun entry => (t.find entry.item.id).map (recommendation entry) := by
  induction entries generalizing t with
  | nil => rfl
  | cons entry rest ih =>
    obtain ⟨hnot, h⟩ := List.nodup_cons.1 h
    -- the row that an entry takes out of the map is not one that a later entry looks for
    have hrest : ∀ other ∈ rest, (t.delete entry.item.id).find other.item.id = t.find other.item.id := by
      intro other hother
      rw [Table.find_delete, if_neg]
      exact fun heq => hnot (List.mem_map.2 ⟨other, hother, heq.symm⟩)
    unfold takeRooms
    rcases hfind : t.find entry.item.id with _ | row
    · rw [List.filterMap_cons_none (by rw [hfind]; rfl)]
      exact ih h
    · rw [List.filterMap_cons_some (by rw [hfind]; rfl)]
      simp only [ih h]
      refine congrArg (List.cons _) (List.filterMap_congr fun other hother => ?_)
      rw [hrest other hother]

theorem Distinct.ids (h : Distinct (·.id.uuid) scored) : (scored.map (·.item.id)).Nodup := by
  refine List.Nodup.of_map RoomId.uuid ?_
  rw [List.map_map]
  exact h

/-- Whatever order the rows come in, they are handed out in that of the ranking, and what is gone is left out. -/
theorem hydrateFrom_eq (h : Distinct (·.id.uuid) scored) (hrows : Selected db scored rows) :
    hydrateFrom rows scored = scored.filterMap (survivor db) := by
  unfold hydrateFrom
  split
  · rename_i hempty
    rw [List.isEmpty_iff.1 hempty]
    rfl
  · rw [takeRooms_eq h.ids]
    refine List.filterMap_congr fun entry hentry => ?_
    rw [find_byId hrows, if_pos (List.mem_map_of_mem hentry)]
    rfl

/-- It is what the recommender hands out. -/
theorem hydrateFrom_eq_hydrate (h : Distinct (·.id.uuid) scored) (hrows : Selected db scored rows) :
    hydrateFrom rows scored = hydrate db scored :=
  (hydrateFrom_eq h hrows).trans (takeRooms_eq h.ids).symm

end Rows

/-! ## The law -/

/-- A ranking of candidates with identifiers of their own has each of them once, by score and then by identifier, and is the
same whatever order they come in. The rooms that are loaded for the best of a ranking are those still there, in its order,
whatever order the query returns them in. -/
theorem rank_hydrate {α : Type} (tiebreak : α → Uuid) (scored : List (Scored α)) (h : Distinct tiebreak scored) (db : Db)
    (rooms : List (Scored RoomCandidate)) (hrooms : Distinct (·.id.uuid) rooms) :
    (rank tiebreak scored).Perm scored ∧ (rank tiebreak scored).Pairwise (Before tiebreak) ∧
    (∀ scored' : List (Scored α), scored'.Perm scored → rank tiebreak scored' = rank tiebreak scored) ∧
    ∀ (limit : Nat) (rows : List RoomRow), Selected db ((rank (·.id.uuid) rooms).take limit) rows →
      hydrateFrom rows ((rank (·.id.uuid) rooms).take limit) =
        ((rank (·.id.uuid) rooms).take limit).filterMap (survivor db) := by
  refine ⟨perm_rank tiebreak scored, pairwise_before h, fun _ hperm => rank_eq_of_perm h hperm, fun limit rows hrows => ?_⟩
  have hbest : Distinct (·.id.uuid) ((rank (·.id.uuid) rooms).take limit) :=
    hrooms.rank.sublist ((List.take_sublist _ _).map _)
  exact hydrateFrom_eq hbest hrows

/-- A room nobody is in yet, and how it is scored. -/
def quietRoom (id : Nat) (score : ℚ) : Scored RoomCandidate where
  item := { id := ⟨id⟩, category := "random", currentParticipants := 0, startedAt := none, peers := 0, friends := 0, recentMessages := 0 }
  score := score
  reasons := []

/-- Its row, where it is still there. -/
def quietRow (id : Nat) : RoomRow where
  id := ⟨id⟩
  communityId := none
  ownerId := none
  name := "lounge"
  topic := none
  category := "random"
  roomType := .text
  visibility := .public
  status := .active
  isAnonymous := false
  position := 0
  maxParticipants := none
  currentParticipants := 0
  startedAt := none
  expiresAt := none
  endedAt := none
  createdAt := 0
  updatedAt := 0
  emptiedAt := none

/-- Two that tie go by their identifiers, and the one with a higher score comes first. One of the three rooms is gone. -/
theorem three_ranked :
    (rank (·.id.uuid) [quietRoom 3 0, quietRoom 1 0, quietRoom 2 1]).Pairwise (Before (·.id.uuid)) ∧
    rank (·.id.uuid) [quietRoom 1 0, quietRoom 2 1, quietRoom 3 0] =
      rank (·.id.uuid) [quietRoom 3 0, quietRoom 1 0, quietRoom 2 1] ∧
    (hydrateFrom [quietRow 3, quietRow 2] ((rank (·.id.uuid) [quietRoom 3 0, quietRoom 1 0, quietRoom 2 1]).take 3)).map (·.room.id) =
      [⟨2⟩, ⟨3⟩] := by
  have hdistinct : Distinct (·.id.uuid) [quietRoom 3 0, quietRoom 1 0, quietRoom 2 1] := by
    unfold Distinct
    decide
  let db : Db := { Db.empty 0 with rooms := (Table.empty.insert (quietRow 2)).insert (quietRow 3) }
  obtain ⟨-, hordered, hany, hrooms⟩ := rank_hydrate (·.id.uuid) [quietRoom 3 0, quietRoom 1 0, quietRoom 2 1] hdistinct db
    [quietRoom 3 0, quietRoom 1 0, quietRoom 2 1] hdistinct
  refine ⟨hordered, hany _ (by decide), ?_⟩
  have hselected : Selected db ((rank (·.id.uuid) [quietRoom 3 0, quietRoom 1 0, quietRoom 2 1]).take 3) [quietRow 3, quietRow 2] :=
    ⟨by decide⟩
  rw [hrooms 3 _ hselected]
  decide

end Genzh.Recommend
