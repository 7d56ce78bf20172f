/-
Turning counts into a ranking. A scorer adds weighted signals up, and keeps for each of them what it has contributed; what
has been scored is sorted by the score, and those that tie by their identifiers. Scores are exact rationals here, where the
code rounds to floating point.
-/
import Genzh.Domain.Basic

namespace Genzh.Recommend

open Genzh.Domain

/-! ## Reasons -/

/-- Why an item was recommended. -/
inductive ReasonKind where
  | sharedCommunity
  | friendActivity
  | mutualFriends
  | categoryAffinity
  | activity
  | popularity
  | freshness
  deriving DecidableEq, Repr

/-- A short human sentence fragment. -/
def ReasonKind.describe (magnitude : Nat) : ReasonKind → String
  | .sharedCommunity => s!"{magnitude} from your communities"
  | .friendActivity => if magnitude = 1 then "a friend is here" else s!"{magnitude} friends are here"
  | .mutualFriends => if magnitude = 1 then "1 friend in common" else s!"{magnitude} friends in common"
  | .categoryAffinity => "matches what you join"
  | .activity => "active conversation"
  | .popularity => "popular right now"
  | .freshness => "just started"

/-- One contribution to an item's score. -/
structure Reason where
  kind : ReasonKind
  /-- The underlying count. -/
  magnitude : Nat
  contribution : ℚ
  detail : String
  deriving DecidableEq

/-- An item with its score and the reasons behind it. -/
structure Scored (α : Type) where
  item : α
  score : ℚ
  reasons : List Reason
  deriving DecidableEq

/-- How much each signal is worth. -/
structure Weights where
  sharedCommunity : ℚ
  friendActivity : ℚ
  mutualFriends : ℚ
  categoryAffinity : ℚ
  activity : ℚ
  popularity : ℚ
  freshness : ℚ

def Weights.default : Weights where
  sharedCommunity := 1
  friendActivity := 14 / 10
  mutualFriends := 15 / 10
  categoryAffinity := 7 / 10
  activity := 9 / 10
  popularity := 5 / 10
  freshness := 3 / 10

def Weights.of (w : Weights) : ReasonKind → ℚ
  | .sharedCommunity => w.sharedCommunity
  | .friendActivity => w.friendActivity
  | .mutualFriends => w.mutualFriends
  | .categoryAffinity => w.categoryAffinity
  | .activity => w.activity
  | .popularity => w.popularity
  | .freshness => w.freshness

/-- Squash an unbounded count with diminishing returns. -/
def saturate (value half : ℚ) : ℚ := if value ≤ 0 || half ≤ 0 then 0 else value / (value + half)

/-- Decay by age. `halving` is the power of one half. -/
def decay (halving : ℚ → ℚ) (ageHours halfLifeHours : ℚ) : ℚ :=
  if ageHours ≤ 0 then 1 else if halfLifeHours ≤ 0 then 0 else halving (ageHours / halfLifeHours)

/-! ## Scoring -/

/-- Below this, a reason is noise rather than an explanation. -/
def minShownContribution : ℚ := 5 / 100

/-- How many reasons travel with each recommendation. -/
def maxReasons : Nat := 2

/-- `u32::try_from(count).unwrap_or(u32::MAX)` -/
def clampCount (count : Nat) : Nat := min count 4294967295

/-- Accumulates weighted signals into a score and the reasons for it. -/
structure Scorer where
  weights : Weights
  score : ℚ
  reasons : List Reason

namespace Scorer

def new (weights : Weights) : Scorer := { weights, score := 0, reasons := [] }

def add (kind : ReasonKind) (magnitude : Nat) (normalized : ℚ) (s : Scorer) : Scorer :=
  let contribution := normalized * s.weights.of kind
  { s with
    score := s.score + contribution
    reasons :=
      if 0 < contribution then s.reasons ++ [{ kind, magnitude, contribution, detail := kind.describe magnitude }]
      else s.reasons }

/-- Add a signal measured as a count, normalised by `half`. -/
def count (kind : ReasonKind) (count : Nat) (half : ℚ) (s : Scorer) : Scorer := s.add kind count (saturate count half)

/-- Add a signal already normalised. -/
def ratio (kind : ReasonKind) (magnitude : Nat) (normalized : ℚ) (s : Scorer) : Scorer :=
  s.add kind magnitude (max 0 (min 1 normalized))

/-- Finish, keeping only the reasons worth showing, the largest first. -/
def finish {α : Type} (item : α) (s : Scorer) : Scored α :=
  { item, score := s.score
    reasons :=
      ((s.reasons.filter fun r => minShownContribution ≤ r.contribution).insertionSort
        fun a b => b.contribution ≤ a.contribution).take maxReasons }

end Scorer

/-! ## Ranking -/

variable {α : Type}

/-- Does the first come no later than the second? The score decides, and then the identifier. -/
def ranksBefore (tiebreak : α → Uuid) (a b : Scored α) : Bool :=
  b.score < a.score || (a.score = b.score && (tiebreak a.item).toNat ≤ (tiebreak b.item).toNat)

/-- Sort highest-scoring first, breaking ties deterministically. -/
def rank (tiebreak : α → Uuid) (scored : List (Scored α)) : List (Scored α) :=
  scored.insertionSort fun a b => ranksBefore tiebreak a b

theorem mem_rank {tiebreak : α → Uuid} {scored : List (Scored α)} {a : Scored α} : a ∈ rank tiebreak scored ↔ a ∈ scored :=
  List.mem_insertionSort _

/-- The best of a list of candidates, and no more than `limit` of them. -/
def best (tiebreak : α → Uuid) (scorer : α → Scorer) (limit : Nat) (candidates : List α) : List (Scored α) :=
  (rank tiebreak (candidates.map fun candidate => (scorer candidate).finish candidate)).take limit

/-- Whatever is ranked was a candidate. -/
theorem item_mem_best {tiebreak : α → Uuid} {scorer : α → Scorer} {limit : Nat} {candidates : List α} {a : Scored α}
    (h : a ∈ best tiebreak scorer limit candidates) : a.item ∈ candidates := by
  obtain ⟨candidate, hcandidate, rfl⟩ := List.mem_map.1 (mem_rank.1 (List.mem_of_mem_take h))
  exact hcandidate

end Genzh.Recommend
