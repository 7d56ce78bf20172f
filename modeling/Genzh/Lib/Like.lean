/-
The pattern language of SQL's `LIKE`: a percent sign stands for any text, an underscore for any one character, and a
backslash takes the meaning from the character after it. A text that is escaped, between two percent signs, is found
wherever it occurs.
-/
import Mathlib.Tactic

namespace Genzh.Lib.Like

inductive Token where
  | any
  | one
  | lit (c : Char)
  deriving DecidableEq, Repr

/-- The tokens of a pattern. One that ends in the escape character has none. -/
def parse : List Char → Option (List Token)
  | [] => some []
  | '\\' :: [] => none
  | '\\' :: c :: pattern => (parse pattern).map (.lit c :: ·)
  | '%' :: pattern => (parse pattern).map (.any :: ·)
  | '_' :: pattern => (parse pattern).map (.one :: ·)
  | c :: pattern => (parse pattern).map (.lit c :: ·)

/-- Does a text match the tokens, from beginning to end? -/
def accepts : List Token → List Char → Bool
  | [], text => text.isEmpty
  | .any :: tokens, text => text.tails.any (accepts tokens)
  | .one :: tokens, text => !text.isEmpty && accepts tokens text.tail
  | .lit d :: tokens, text => text.head? = some d && accepts tokens text.tail

/-- `text LIKE pattern` -/
def like (text pattern : List Char) : Bool := (parse pattern).any (accepts · text)

/-- Has the character a meaning of its own in a pattern? -/
def special (c : Char) : Bool := c = '\\' || c = '%' || c = '_'

/-- A character that stands for itself in a pattern. -/
def escaped (c : Char) : List Char := if special c then ['\\', c] else [c]

/-! ## What matches -/

variable {tokens : List Token} {text query : List Char}

theorem accepts_any : accepts (.any :: tokens) text = true ↔ ∃ skipped rest, text = skipped ++ rest ∧ accepts tokens rest = true := by
  simp only [accepts, List.any_eq_true, List.mem_tails]
  constructor
  · rintro ⟨rest, ⟨skipped, rfl⟩, h⟩
    exact ⟨skipped, rest, rfl, h⟩
  · rintro ⟨skipped, rest, rfl, h⟩
    exact ⟨rest, ⟨skipped, rfl⟩, h⟩

theorem accepts_lits (query : List Char) :
    accepts (query.map .lit ++ tokens) text = true ↔ ∃ rest, text = query ++ rest ∧ accepts tokens rest = true := by
  induction query generalizing text with
  | nil => simp
  | cons d query ih =>
    cases text with
    | nil => simp [accepts]
    | cons c text =>
      simp only [List.map_cons, List.cons_append, accepts, Bool.and_eq_true, decide_eq_true_eq, List.head?_cons, List.tail_cons,
        Option.some.injEq, ih, List.cons.injEq]
      constructor
      · rintro ⟨rfl, rest, rfl, h⟩
        exact ⟨rest, ⟨rfl, rfl⟩, h⟩
      · rintro ⟨rest, ⟨rfl, rfl⟩, h⟩
        exact ⟨rfl, rest, rfl, h⟩

/-- A text between two percent signs is looked for anywhere. -/
theorem accepts_infix (query text : List Char) :
    accepts (.any :: (query.map .lit ++ [.any])) text = true ↔ query <:+: text := by
  rw [accepts_any]
  constructor
  · rintro ⟨before, rest, rfl, h⟩
    obtain ⟨after, rfl, -⟩ := (accepts_lits query).1 h
    exact ⟨before, after, List.append_assoc ..⟩
  · rintro ⟨before, after, rfl⟩
    refine ⟨before, query ++ after, List.append_assoc .., (accepts_lits query).2 ⟨after, rfl, ?_⟩⟩
    exact accepts_any.2 ⟨after, [], (List.append_nil _).symm, by simp [accepts]⟩

theorem parse_escaped (c : Char) (pattern : List Char) : parse (escaped c ++ pattern) = (parse pattern).map (.lit c :: ·) := by
  unfold escaped
  by_cases h : special c = true
  · rw [if_pos h]
    rfl
  · rw [if_neg h]
    simp only [special, Bool.or_eq_true, decide_eq_true_eq, not_or] at h
    obtain ⟨⟨hescape, hpercent⟩, hunderscore⟩ := h
    rw [List.singleton_append, parse]
    · exact fun h _ => hescape h
    · exact fun _ _ h _ => hescape h
    · exact hpercent
    · exact hunderscore

theorem parse_escape (query pattern : List Char) :
    parse (query.flatMap escaped ++ pattern) = (parse pattern).map (query.map .lit ++ ·) := by
  induction query with
  | nil => simp
  | cons c query ih =>
    rw [List.flatMap_cons, List.append_assoc, parse_escaped, ih, Option.map_map]
    rfl

/-- What is escaped is found literally. -/
theorem like_escape (query text : List Char) : like text ('%' :: (query.flatMap escaped ++ ['%'])) = true ↔ query <:+: text := by
  have hparse : parse ('%' :: (query.flatMap escaped ++ ['%'])) = some (.any :: (query.map .lit ++ [.any])) := by
    have hrest := parse_escape query ['%']
    rw [parse, hrest]
    rfl
  unfold like
  rw [hparse]
  exact accepts_infix query text

/-! ## What is not escaped

Between two percent signs, a text that has no characters with a meaning is found wherever it occurs, and any other text
is found somewhere it does not occur. -/

/-- Has no character of the text a meaning? -/
def plain (text : List Char) : Bool := text.all fun c => !special c

/-- What is plain is its own escape. -/
theorem flatMap_escaped_of_plain (h : plain query = true) : query.flatMap escaped = query := by
  induction query with
  | nil => rfl
  | cons c query ih =>
    simp only [plain, List.all_cons, Bool.and_eq_true, Bool.not_eq_true'] at h
    rw [List.flatMap_cons, ih h.2, escaped, if_neg (by simp [h.1])]
    rfl

theorem like_of_plain (h : plain query = true) (text : List Char) :
    like text ('%' :: (query ++ ['%'])) = true ↔ query <:+: text := by
  rw [← like_escape query text, flatMap_escaped_of_plain h]

/-- Does a text match a pattern of some tokens? -/
def Matches (pattern text : List Char) : Prop := ∃ tokens, parse pattern = some tokens ∧ accepts tokens text = true

theorem like_iff {pattern : List Char} : like text pattern = true ↔ Matches pattern text := by
  simp [like, Matches, Option.any_eq_true]

theorem Matches.any {pattern : List Char} (h : Matches pattern text) : Matches ('%' :: pattern) text := by
  obtain ⟨tokens, hparse, haccepts⟩ := h
  exact ⟨.any :: tokens, by simp [parse, hparse], accepts_any.2 ⟨[], text, rfl, haccepts⟩⟩

theorem Matches.any_append {pattern : List Char} (skipped : List Char) (h : Matches pattern text) :
    Matches ('%' :: pattern) (skipped ++ text) := by
  obtain ⟨tokens, hparse, haccepts⟩ := h
  exact ⟨.any :: tokens, by simp [parse, hparse], accepts_any.2 ⟨skipped, text, rfl, haccepts⟩⟩

theorem Matches.one {pattern : List Char} (c : Char) (h : Matches pattern text) : Matches ('_' :: pattern) (c :: text) := by
  obtain ⟨tokens, hparse, haccepts⟩ := h
  exact ⟨.one :: tokens, by simp [parse, hparse], by simpa [accepts] using haccepts⟩

theorem Matches.escape {pattern : List Char} (c : Char) (h : Matches pattern text) :
    Matches ('\\' :: c :: pattern) (c :: text) := by
  obtain ⟨tokens, hparse, haccepts⟩ := h
  exact ⟨.lit c :: tokens, by simp [parse, hparse], by simpa [accepts] using haccepts⟩

theorem Matches.lits {pattern : List Char} (hplain : plain query = true) (h : Matches pattern text) :
    Matches (query ++ pattern) (query ++ text) := by
  obtain ⟨tokens, hparse, haccepts⟩ := h
  refine ⟨query.map .lit ++ tokens, ?_, (accepts_lits query).2 ⟨text, rfl, haccepts⟩⟩
  have hescape := parse_escape query pattern
  rw [flatMap_escaped_of_plain hplain, hparse] at hescape
  exact hescape

/-- Without a backslash, a pattern matches its own characters. -/
theorem Matches.self {pattern : List Char} (hescape : ∀ c ∈ query, c ≠ '\\') (h : Matches pattern text) :
    Matches (query ++ pattern) (query ++ text) := by
  induction query with
  | nil => exact h
  | cons c query ih =>
    have hrest := ih fun d hd => hescape d (List.mem_cons_of_mem _ hd)
    by_cases hpercent : c = '%'
    · subst hpercent
      exact hrest.any_append ['%']
    by_cases hunderscore : c = '_'
    · subst hunderscore
      exact hrest.one '_'
    · have hplain : plain [c] = true := by
        simp [plain, special, hescape c List.mem_cons_self, hpercent, hunderscore]
      have hlit : Matches ([c] ++ (query ++ pattern)) ([c] ++ (query ++ text)) := hrest.lits hplain
      exact hlit

/-- Every pattern that a percent sign follows matches a text of its own characters, and percent signs, that is no longer
than it. -/
theorem exists_matches (pattern : List Char) : ∃ text, Matches (pattern ++ ['%']) text ∧ text.length ≤ pattern.length ∧
    ∀ c ∈ text, c ∈ pattern ∨ c = '%' := by
  induction pattern using parse.induct with
  | case1 => exact ⟨[], ⟨[.any], rfl, rfl⟩, le_rfl, by simp⟩
  | case2 => exact ⟨['%'], ⟨[.lit '%'], rfl, rfl⟩, le_rfl, by simp⟩
  | case3 c pattern ih =>
    obtain ⟨text, hmatch, hlength, hchars⟩ := ih
    refine ⟨c :: text, hmatch.escape c, by simp; omega, ?_⟩
    rintro d hd
    rcases List.mem_cons.1 hd with rfl | hd
    · exact .inl (by simp)
    · exact (hchars d hd).imp_left fun h => by simp [h]
  | case4 pattern ih =>
    obtain ⟨text, hmatch, hlength, hchars⟩ := ih
    exact ⟨text, hmatch.any, by simp; omega, fun d hd => (hchars d hd).imp_left (List.mem_cons_of_mem _)⟩
  | case5 pattern ih =>
    obtain ⟨text, hmatch, hlength, hchars⟩ := ih
    refine ⟨'%' :: text, hmatch.one '%', by simp; omega, ?_⟩
    rintro d hd
    rcases List.mem_cons.1 hd with rfl | hd
    · exact .inr rfl
    · exact (hchars d hd).imp_left (List.mem_cons_of_mem _)
  | case6 c pattern hlast hescape hpercent hunderscore ih =>
    obtain ⟨text, hmatch, hlength, hchars⟩ := ih
    have hbackslash : c ≠ '\\' := by
      rintro rfl
      cases pattern with
      | nil => exact hlast rfl rfl
      | cons d pattern => exact hescape d pattern rfl rfl
    have hplain : plain [c] = true := by
      simp [plain, special, hbackslash, show c ≠ '%' from hpercent, show c ≠ '_' from hunderscore]
    refine ⟨c :: text, hmatch.lits hplain, by simp; omega, ?_⟩
    rintro d hd
    rcases List.mem_cons.1 hd with rfl | hd
    · exact .inl List.mem_cons_self
    · exact (hchars d hd).imp_left (List.mem_cons_of_mem _)

/-- A text that is not plain, up to its first character with a meaning. -/
theorem exists_split (h : plain query = false) :
    ∃ front c back, query = front ++ c :: back ∧ plain front = true ∧ special c = true := by
  induction query with
  | nil => cases h
  | cons d query ih =>
    rcases hd : special d
    · have hrest : plain query = false := by simpa [plain, hd] using h
      obtain ⟨front, c, back, rfl, hfront, hc⟩ := ih hrest
      exact ⟨d :: front, c, back, rfl, by simpa [plain, hd] using hfront, hc⟩
    · exact ⟨[], d, query, rfl, rfl, hd⟩

/-- What is not plain matches where it does not occur: without the percent sign or the backslash, or with another character
for the underscore. -/
theorem exists_like_not_infix (h : plain query = false) : ∃ text, like text ('%' :: (query ++ ['%'])) = true ∧
    ¬ query <:+: text ∧ ∀ c ∈ text, c ∈ query ∨ c = '%' := by
  obtain ⟨front, c, back, rfl, hfront, hc⟩ := exists_split h
  -- it is enough to match what follows the plain part
  have hsuffices : ∀ rest, Matches (c :: back ++ ['%']) rest → rest.length ≤ (c :: back).length → rest ≠ c :: back →
      (∀ d ∈ rest, d ∈ c :: back ∨ d = '%') → ∃ text, like text ('%' :: (front ++ c :: back ++ ['%'])) = true ∧
        ¬ front ++ c :: back <:+: text ∧ ∀ d ∈ text, d ∈ front ++ c :: back ∨ d = '%' := by
    rintro rest hmatch hlength hne hchars
    refine ⟨front ++ rest, ?_, fun hinfix => ?_, fun d hd => ?_⟩
    · rw [List.append_assoc]
      exact like_iff.2 (hmatch.lits hfront).any
    · have hsame := hinfix.eq_of_length_le (by simpa using hlength)
      exact hne (List.append_cancel_left hsame).symm
    · rcases List.mem_append.1 hd with hd | hd
      · exact .inl (List.mem_append_left _ hd)
      · exact (hchars d hd).imp_left (List.mem_append_right _)
  simp only [special, Bool.or_eq_true, decide_eq_true_eq] at hc
  obtain ⟨rest, hmatch, hlength, hchars⟩ := exists_matches back
  rcases hc with (rfl | rfl) | rfl
  · cases back with
    | nil => exact hsuffices ['%'] ⟨[.lit '%'], rfl, rfl⟩ le_rfl (by simp) (by simp)
    | cons d back =>
      obtain ⟨rest, hmatch, hlength, hchars⟩ := exists_matches back
      refine hsuffices (d :: rest) (hmatch.escape d) (by simp; omega) ?_ ?_
      · rintro heq
        have hsame := congrArg List.length heq
        simp only [List.length_cons] at hsame
        omega
      · rintro e he
        rcases List.mem_cons.1 he with rfl | he
        · exact .inl (by simp)
        · exact (hchars e he).imp_left fun h => by simp [h]
  · refine hsuffices rest hmatch.any (by simp; omega) ?_ fun d hd => (hchars d hd).imp_left (List.mem_cons_of_mem _)
    rintro rfl
    simp only [List.length_cons] at hlength
    omega
  · refine hsuffices ('%' :: rest) (hmatch.one '%') (by simpa using hlength) (by simp) ?_
    rintro d hd
    rcases List.mem_cons.1 hd with rfl | hd
    · exact .inr rfl
    · exact (hchars d hd).imp_left (List.mem_cons_of_mem _)

end Genzh.Lib.Like
