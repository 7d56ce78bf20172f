/-
Cutting a text into tokens and what stands between them, where the search for the next token resumes at the last letter
of the one before: two tokens may share a letter.

The pieces show every token of the text in order, and no two texts next to each other (`values_pieces`, `texts_pieces`);
they write the text again exactly where no two tokens share a letter (`written_pieces_iff`).
-/
import Mathlib.Tactic

namespace Genzh.Lib

/-- Either a text that is no token, or a token and its value. -/
inductive Piece (α γ : Type*) where
  | text (t : List α)
  | token (w : List α) (g : γ)

namespace Piece

variable {α γ : Type*}

/-- What the piece is written as. -/
def written : Piece α γ → List α
  | text t => t
  | token w _ => w

def isText : Piece α γ → Bool
  | text _ => true
  | token .. => false

/-- The token, if it is one. -/
def value : Piece α γ → Option (List α × γ)
  | text _ => none
  | token w g => some (w, g)

/-- A text, unless it is empty. -/
def ofText (t : List α) : List (Piece α γ) :=
  match t with
  | [] => []
  | a :: t => [text (a :: t)]

theorem written_ofText (t : List α) : (ofText t : List (Piece α γ)).flatMap written = t := by
  cases t with
  | nil => rfl
  | cons a t => exact List.append_nil _

theorem value_ofText (t : List α) : (ofText t : List (Piece α γ)).filterMap value = [] := by
  cases t <;> rfl

theorem ne_nil_of_mem_ofText {t : List α} {p : Piece α γ} (h : p ∈ ofText t) : p.written ≠ [] := by
  cases t with
  | nil => cases h
  | cons a t =>
    rw [List.mem_singleton.1 h]
    exact List.cons_ne_nil _ _

end Piece

/-- What is a token at the beginning of a text. It has two letters at least, and none begins within it, before its last
letter. -/
structure Recogniser (α γ : Type*) where
  read : List α → Option (List α × γ)
  starts : ∀ {s w g}, read s = some (w, g) → w <+: s
  long : ∀ {s w g}, read s = some (w, g) → 2 ≤ w.length
  apart : ∀ {s w g}, read s = some (w, g) → ∀ i, 0 < i → i + 1 < w.length → read (s.drop i) = none

namespace Recogniser

variable {α γ : Type*} (R : Recogniser α γ)

/-- What follows a token, from its last letter on. -/
def resume (s w : List α) : List α := s.drop (w.length - 1)

variable {R}

theorem length_resume_lt {s w : List α} {g : γ} (h : R.read s = some (w, g)) : (resume s w).length < s.length := by
  have hlong := R.long h
  have hle := (R.starts h).length_le
  unfold resume
  rw [List.length_drop]
  omega

variable (R)

/-- The pieces of a text, with what precedes it and is not told apart yet. When its first letter closed a token it is
written already. -/
def pieces (pending : List α) (closed : Bool) : List α → List (Piece α γ)
  | [] => Piece.ofText pending
  | a :: s =>
    match h : R.read (a :: s) with
    | some (w, g) => Piece.ofText pending ++ Piece.token w g :: pieces [] true (resume (a :: s) w)
    | none => pieces (if closed then pending else pending ++ [a]) false s
termination_by s => s.length
decreasing_by
  · exact length_resume_lt h
  · exact Nat.lt_succ_self _

/-- What is left to write. -/
def unwritten (closed : Bool) (s : List α) : List α := if closed then s.tail else s

/-- Two tokens share a letter: the last of the one is the first of the other. -/
def Shares (s : List α) : Prop :=
  ∃ i w g, R.read (s.drop i) = some (w, g) ∧ (R.read (resume (s.drop i) w)).isSome = true

variable {R} {s w pending : List α} {g : γ} {closed : Bool}

theorem read_nil : R.read [] = none := by
  rcases h : R.read [] with _ | ⟨w, g⟩
  · rfl
  · have hle := (R.starts h).length_le
    have hlong := R.long h
    rw [List.length_nil] at hle
    omega

/-! ## Where the pieces are cut -/

theorem pieces_some {a : α} (h : R.read (a :: s) = some (w, g)) : R.pieces pending closed (a :: s) =
    Piece.ofText pending ++ Piece.token w g :: R.pieces [] true (resume (a :: s) w) := by
  rw [pieces]
  split
  · rename_i w' g' h'
    rw [h] at h'
    cases h'
    rfl
  · rename_i h'
    rw [h] at h'
    cases h'

theorem pieces_none {a : α} (h : R.read (a :: s) = none) :
    R.pieces pending closed (a :: s) = R.pieces (if closed then pending else pending ++ [a]) false s := by
  rw [pieces]
  split
  · rename_i h'
    rw [h] at h'
    cases h'
  · rfl

/-- Every text is empty, begins with a token, or begins with a letter that does not begin one. -/
theorem reading_induction {P : List α → Prop} (nil : P [])
    (token : ∀ a s w g, R.read (a :: s) = some (w, g) → P (resume (a :: s) w) → P (a :: s))
    (letter : ∀ a s, R.read (a :: s) = none → P s → P (a :: s)) (s : List α) : P s := by
  induction hn : s.length using Nat.strong_induction_on generalizing s with
  | _ n ih =>
    cases s with
    | nil => exact nil
    | cons a s =>
      rcases h : R.read (a :: s) with _ | ⟨w, g⟩
      · exact letter a s h (ih _ (by rw [← hn]; exact Nat.lt_succ_self _) s rfl)
      · exact token a s w g h (ih _ (by rw [← hn]; exact length_resume_lt h) _ rfl)

/-! ## The tokens -/

theorem filterMap_tails_drop (n : Nat) (h : ∀ i < n, R.read (s.drop i) = none) :
    s.tails.filterMap R.read = (s.drop n).tails.filterMap R.read := by
  induction n generalizing s with
  | zero => rfl
  | succ n ih =>
    cases s with
    | nil => rfl
    | cons a s =>
      have hread : R.read (a :: s) = none := h 0 (Nat.succ_pos n)
      rw [List.tails_cons, List.filterMap_cons_none hread, List.drop_succ_cons]
      exact ih fun i hi => h (i + 1) (Nat.succ_lt_succ hi)

theorem tokens_some {a : α} (h : R.read (a :: s) = some (w, g)) :
    (a :: s).tails.filterMap R.read = (w, g) :: (resume (a :: s) w).tails.filterMap R.read := by
  have hlong := R.long h
  obtain ⟨n, hn⟩ : ∃ n, w.length - 1 = n + 1 := ⟨w.length - 2, by omega⟩
  -- nothing begins between the first letter of the token and its last
  have hnone : ∀ i < n, R.read (s.drop i) = none := by
    intro i hi
    have hread := R.apart h (i + 1) (Nat.succ_pos i) (by omega)
    rwa [List.drop_succ_cons] at hread
  unfold resume
  rw [List.tails_cons, List.filterMap_cons_some h, filterMap_tails_drop n hnone, hn, List.drop_succ_cons]

/-- The tokens among the pieces are those of the text, in order. -/
theorem values_pieces (pending : List α) (closed : Bool) (s : List α) :
    (R.pieces pending closed s).filterMap Piece.value = s.tails.filterMap R.read := by
  induction s using R.reading_induction generalizing pending closed with
  | nil =>
    rw [pieces, Piece.value_ofText, List.tails, List.filterMap_cons_none read_nil]
    rfl
  | token a s w g h ih =>
    have hvalue : Piece.value (Piece.token w g) = some (w, g) := rfl
    rw [pieces_some h, List.filterMap_append, Piece.value_ofText, List.nil_append, List.filterMap_cons_some hvalue, ih,
      tokens_some h]
  | letter a s h ih => rw [pieces_none h, ih, List.tails_cons, List.filterMap_cons_none h]

/-! ## The texts -/

/-- No text follows another. -/
def TextsApart (ps : List (Piece α γ)) : Prop := ps.IsChain fun p q => p.isText = true → q.isText = false

theorem textsApart_token {ps : List (Piece α γ)} (h : TextsApart ps) : TextsApart (Piece.token w g :: ps) := by
  cases ps with
  | nil => exact List.IsChain.singleton _
  | cons p ps => exact List.isChain_cons_cons.2 ⟨fun hw => (by cases hw), h⟩

theorem textsApart_ofText {ps : List (Piece α γ)} (t : List α) (h : TextsApart (Piece.token w g :: ps)) :
    TextsApart (Piece.ofText t ++ Piece.token w g :: ps) := by
  cases t with
  | nil => exact h
  | cons a t => exact List.isChain_cons_cons.2 ⟨fun _ => rfl, h⟩

/-- No two texts stand next to each other, and no piece is empty. -/
theorem texts_pieces (pending : List α) (closed : Bool) (s : List α) :
    TextsApart (R.pieces pending closed s) ∧ ∀ p ∈ R.pieces pending closed s, p.written ≠ [] := by
  induction s using R.reading_induction generalizing pending closed with
  | nil =>
    rw [pieces]
    refine ⟨?_, fun p => Piece.ne_nil_of_mem_ofText⟩
    cases pending with
    | nil => exact List.IsChain.nil
    | cons a t => exact List.IsChain.singleton _
  | token a s w g h ih =>
    obtain ⟨hchain, hne⟩ := ih [] true
    rw [pieces_some h]
    refine ⟨textsApart_ofText pending (textsApart_token hchain), fun p hp => ?_⟩
    rcases List.mem_append.1 hp with hp | hp
    · exact Piece.ne_nil_of_mem_ofText hp
    · rcases List.mem_cons.1 hp with rfl | hp
      · have hlong := R.long h
        intro hnil
        have hw : w = [] := hnil
        rw [hw, List.length_nil] at hlong
        omega
      · exact hne p hp
  | letter a s h ih =>
    rw [pieces_none h]
    exact ih _ _

/-! ## The text again -/

theorem not_shares_nil : ¬ R.Shares [] := by
  rintro ⟨i, w, g, hread, -⟩
  rw [List.drop_nil, read_nil] at hread
  cases hread

theorem shares_none {a : α} (h : R.read (a :: s) = none) : R.Shares (a :: s) ↔ R.Shares s := by
  constructor
  · rintro ⟨i, w, g, hread, hsome⟩
    cases i with
    | zero =>
      rw [List.drop_zero, h] at hread
      cases hread
    | succ i => exact ⟨i, w, g, hread, hsome⟩
  · rintro ⟨i, w, g, hread, hsome⟩
    exact ⟨i + 1, w, g, hread, hsome⟩

theorem drop_resume (s w : List α) (i : Nat) : (resume s w).drop i = s.drop (w.length - 1 + i) := List.drop_drop

theorem shares_some (h : R.read s = some (w, g)) :
    R.Shares s ↔ (R.read (resume s w)).isSome = true ∨ R.Shares (resume s w) := by
  constructor
  · rintro ⟨i, w', g', hread, hsome⟩
    -- of two tokens that share a letter, the first is this one, or begins where the search resumes
    rcases Nat.lt_or_ge (i + 1) w.length with hlt | hge
    · rcases Nat.eq_zero_or_pos i with rfl | hpos
      · rw [List.drop_zero] at hread hsome
        rw [h] at hread
        cases hread
        exact .inl hsome
      · rw [R.apart h i hpos hlt] at hread
        cases hread
    · obtain ⟨j, rfl⟩ : ∃ j, i = w.length - 1 + j := ⟨i - (w.length - 1), by omega⟩
      rw [← drop_resume] at hread hsome
      exact .inr ⟨j, w', g', hread, hsome⟩
  · rintro (hsome | ⟨i, w', g', hread, hsome⟩)
    · exact ⟨0, w, g, h, hsome⟩
    · rw [drop_resume] at hread hsome
      exact ⟨_, w', g', hread, hsome⟩

theorem append_tail_resume (h : R.read s = some (w, g)) : w ++ (resume s w).tail = s := by
  have hlong := R.long h
  unfold resume
  rw [List.tail_drop, Nat.sub_add_cancel (by omega)]
  exact (List.prefix_iff_eq_append.1 (R.starts h)).symm ▸ rfl

theorem written_pieces_token {a : α} (h : R.read (a :: s) = some (w, g)) :
    (R.pieces pending closed (a :: s)).flatMap Piece.written =
      pending ++ (w ++ (R.pieces [] true (resume (a :: s) w)).flatMap Piece.written) := by
  rw [pieces_some h, List.flatMap_append, Piece.written_ofText, List.flatMap_cons]
  rfl

/-- Where no two tokens share a letter, the pieces write what is left. -/
theorem written_pieces (hshares : ¬ R.Shares s) (hclosed : closed = true → R.read s = none) :
    (R.pieces pending closed s).flatMap Piece.written = pending ++ unwritten closed s := by
  induction s using R.reading_induction generalizing pending closed with
  | nil =>
    rw [pieces, Piece.written_ofText]
    cases closed <;> exact (List.append_nil _).symm
  | token a s w g h ih =>
    rw [shares_some h, not_or, Bool.not_eq_true, Option.isSome_eq_false_iff, Option.isNone_iff_eq_none] at hshares
    cases closed with
    | true =>
      -- the letter that closed a token opens another
      rw [hclosed rfl] at h
      cases h
    | false =>
      rw [written_pieces_token h, ih hshares.2 fun _ => hshares.1]
      exact congrArg (pending ++ ·) (append_tail_resume h)
  | letter a s h ih =>
    rw [shares_none h] at hshares
    rw [pieces_none h, ih hshares fun h => (by cases h)]
    cases closed with
    | true => rfl
    | false => exact List.append_assoc _ _ _

/-- A letter that is shared is written twice. -/
theorem length_pieces (pending : List α) (closed : Bool) (s : List α) :
    (pending ++ unwritten closed s).length ≤ ((R.pieces pending closed s).flatMap Piece.written).length ∧
    (closed = true ∧ (R.read s).isSome = true ∨ R.Shares s →
      (pending ++ unwritten closed s).length < ((R.pieces pending closed s).flatMap Piece.written).length) := by
  induction s using R.reading_induction generalizing pending closed with
  | nil =>
    rw [pieces, Piece.written_ofText]
    refine ⟨by cases closed <;> simp [unwritten], ?_⟩
    rintro (⟨-, hsome⟩ | hshares)
    · rw [read_nil] at hsome
      cases hsome
    · exact absurd hshares not_shares_nil
  | token a s w g h ih =>
    obtain ⟨hle, hlt⟩ := ih [] true
    have hall := congrArg List.length (append_tail_resume h)
    have hunwritten : (unwritten true (resume (a :: s) w)).length = (resume (a :: s) w).tail.length := rfl
    rw [List.length_append, List.length_cons] at hall
    rw [List.nil_append, hunwritten] at hle hlt
    rw [written_pieces_token h]
    cases closed with
    | true =>
      have hhead : (unwritten true (a :: s)).length = s.length := rfl
      simp only [List.length_append, hhead]
      exact ⟨by omega, fun _ => by omega⟩
    | false =>
      have hhead : (unwritten false (a :: s)).length = s.length + 1 := rfl
      simp only [List.length_append, hhead]
      refine ⟨by omega, ?_⟩
      rintro (⟨hclosed, -⟩ | hshares)
      · cases hclosed
      · have := hlt (((shares_some h).1 hshares).imp (fun hsome => ⟨rfl, hsome⟩) id)
        omega
  | letter a s h ih =>
    have hwrite : (if closed then pending else pending ++ [a]) ++ unwritten false s = pending ++ unwritten closed (a :: s) := by
      cases closed with
      | true => rfl
      | false => exact List.append_assoc _ _ _
    obtain ⟨hle, hlt⟩ := ih (if closed then pending else pending ++ [a]) false
    rw [pieces_none h, ← hwrite]
    refine ⟨hle, ?_⟩
    rintro (⟨-, hsome⟩ | hshares)
    · rw [h] at hsome
      cases hsome
    · exact hlt (.inr ((shares_none h).1 hshares))

/-- The pieces write the text again exactly where no two tokens share a letter. -/
theorem written_pieces_iff (s : List α) : (R.pieces [] false s).flatMap Piece.written = s ↔ ¬ R.Shares s := by
  constructor
  · intro h hshares
    have hlt := (length_pieces (R := R) [] false s).2 (.inr hshares)
    rw [h] at hlt
    exact absurd hlt (lt_irrefl _)
  · intro h
    exact written_pieces h fun hclosed => (by cases hclosed)

end Recogniser

end Genzh.Lib
