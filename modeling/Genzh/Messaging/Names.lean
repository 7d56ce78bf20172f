/-
The three readers of an emoji's name: the validator of what is stored, the scanner of a text and the reader of a
reaction key. The validator trims and folds what it is given, so the reader of a reaction takes more for a name than the
scanner does: whitespace within the colons, and the letters outside ASCII that fold into it.
-/
import Genzh.Messaging.Reactions
import Genzh.Domain.Mentions

namespace Genzh.Messaging

open Genzh.Domain

/-- A name as it is stored. -/
structure IsName (name : List Char) : Prop where
  least : emojiNameMinLen ≤ name.length
  most : name.length ≤ emojiNameMaxLen
  letters : ∀ c ∈ name, (c.isLower || c.isDigit || c == '_') = true
  notDigits : name.all Char.isDigit = false

variable {toLowercase : String → String}

/-! ## The characters of a name -/

theorem isDigit_iff {c : Char} : c.isDigit = true ↔ 48 ≤ c.toNat ∧ c.toNat ≤ 57 := by
  unfold Char.isDigit
  rw [Bool.and_eq_true, decide_eq_true_eq, decide_eq_true_eq]
  exact Iff.rfl

theorem isLower_iff {c : Char} : c.isLower = true ↔ 97 ≤ c.toNat ∧ c.toNat ≤ 122 := by
  unfold Char.isLower
  rw [Bool.and_eq_true, decide_eq_true_eq, decide_eq_true_eq]
  exact Iff.rfl

theorem isNameChar_iff {c : Char} : isNameChar c = true ↔ (48 ≤ c.toNat ∧ c.toNat ≤ 57) ∨ (65 ≤ c.toNat ∧ c.toNat ≤ 90) ∨
    (97 ≤ c.toNat ∧ c.toNat ≤ 122) ∨ c.toNat = 95 := by
  have hupper : c.isUpper = true ↔ 65 ≤ c.toNat ∧ c.toNat ≤ 90 := by
    unfold Char.isUpper
    rw [decide_eq_true_eq]
    exact Iff.rfl
  have hunderscore : c = '_' ↔ c.toNat = 95 := ⟨fun h => h ▸ rfl, fun h => Char.ext (UInt32.toNat_inj.1 h)⟩
  unfold isNameChar Char.isAlphanum Char.isAlpha
  rw [Bool.or_eq_true, Bool.or_eq_true, Bool.or_eq_true, hupper, isLower_iff, isDigit_iff, beq_iff_eq, hunderscore]
  tauto

theorem isStored_iff {c : Char} : (c.isLower || c.isDigit || c == '_') = true ↔
    isNameChar c = true ∧ c.toLower = c := by
  have hunderscore : c = '_' ↔ c.toNat = 95 := ⟨fun h => h ▸ rfl, fun h => Char.ext (UInt32.toNat_inj.1 h)⟩
  rw [Bool.or_eq_true, Bool.or_eq_true, isLower_iff, isDigit_iff, beq_iff_eq, hunderscore, isNameChar_iff]
  rcases toLower_shift c with ⟨hrange, hsame⟩ | ⟨hrange, hlower⟩
  · rw [hsame]
    constructor
    · exact fun h => ⟨by omega, rfl⟩
    · rintro ⟨h, -⟩
      omega
  · constructor
    · omega
    · rintro ⟨-, hsame⟩
      rw [hsame] at hlower
      omega

/-- The lower case of a name's character is one that is stored, and a digit only if the character is. -/
theorem toLower_nameChar {c : Char} (h : isNameChar c = true) :
    (c.toLower.isLower || c.toLower.isDigit || c.toLower == '_') = true ∧ c.toLower.isDigit = c.isDigit := by
  have hdigit : c.toLower.isDigit = c.isDigit := by
    rw [isNameChar_iff] at h
    rw [Bool.eq_iff_iff, isDigit_iff, isDigit_iff]
    rcases toLower_shift c with ⟨hrange, hsame⟩ | ⟨hrange, hlower⟩
    · rw [hsame]
    · omega
  refine ⟨?_, hdigit⟩
  rw [isStored_iff, isNameChar_iff]
  rw [isNameChar_iff] at h
  refine ⟨?_, toLower_toLower c⟩
  rcases toLower_shift c with ⟨hrange, hsame⟩ | ⟨hrange, hlower⟩
  · rwa [hsame]
  · omega

theorem isNameChar_ascii {c : Char} (h : isNameChar c = true) : c.toNat < 128 := by
  rw [isNameChar_iff] at h
  omega

theorem isNameChar_colon : isNameChar ':' = false := by decide

theorem not_isWhitespace_of_isNameChar {c : Char} (h : isNameChar c = true) : isWhitespace c = false := by
  rw [isNameChar_iff] at h
  simp only [isWhitespace, Bool.or_eq_false_iff, Bool.and_eq_false_iff, decide_eq_false_iff_not, beq_eq_false_iff_ne]
  omega

/-- When the characters of a candidate fold into a name. -/
theorem isName_asciiLowercase_iff {candidate : List Char} (hchars : ∀ c ∈ candidate, isNameChar c = true) :
    IsName (asciiLowercase candidate) ↔ emojiNameMinLen ≤ candidate.length ∧ candidate.length ≤ emojiNameMaxLen ∧
      candidate.all Char.isDigit = false := by
  have hlength : (asciiLowercase candidate).length = candidate.length := List.length_map ..
  have hdigits : (asciiLowercase candidate).all Char.isDigit = candidate.all Char.isDigit := by
    rw [asciiLowercase, List.all_map]
    refine Bool.eq_iff_iff.2 ?_
    rw [List.all_eq_true, List.all_eq_true]
    exact forall₂_congr fun c hc => by rw [Function.comp_apply, (toLower_nameChar (hchars c hc)).2]
  constructor
  · intro h
    exact ⟨hlength ▸ h.least, hlength ▸ h.most, hdigits ▸ h.notDigits⟩
  · rintro ⟨hleast, hmost, hnotDigits⟩
    refine ⟨by rwa [hlength], by rwa [hlength], fun c hc => ?_, by rwa [hdigits]⟩
    obtain ⟨d, hd, rfl⟩ := List.mem_map.1 hc
    exact (toLower_nameChar (hchars d hd)).1

/-! ## The validator -/

theorem validateEmojiName_iff {raw name : String} : validateEmojiName toLowercase raw = .ok name ↔
    toLowercase (trimColons (trim raw)) = name ∧ IsName name.toList := by
  unfold validateEmojiName
  rw [refuse_eq_ok, refuse_eq_ok, refuse_eq_ok, Bool.or_eq_true, decide_eq_true_eq, decide_eq_true_eq, not_or, not_lt, not_lt,
    Bool.not_eq_true', Bool.not_eq_false, Bool.not_eq_true]
  constructor
  · rintro ⟨hlength, hletters, hdigits, ⟨⟩⟩
    exact ⟨rfl, hlength.1, hlength.2, List.all_eq_true.1 hletters, hdigits⟩
  · rintro ⟨rfl, h⟩
    exact ⟨⟨h.least, h.most⟩, List.all_eq_true.2 h.letters, h.notDigits, rfl⟩

theorem trimColons_of_not_colon {s : String} (h : ':' ∉ s.toList) : trimColons s = s := by
  have hnone : ∀ c ∈ s.toList, (c == ':') = false := by
    intro c hc
    rw [beq_eq_false_iff_ne]
    rintro rfl
    exact h hc
  rw [trimColons, strip_of_none hnone, String.ofList_toList]

/-- A text of name characters is left as it stands, but for its case. -/
theorem toLowercase_trimColons (hlower : LowersAscii toLowercase) {s : String} (h : ∀ c ∈ s.toList, isNameChar c = true) :
    toLowercase (trimColons (trim s)) = String.ofList (asciiLowercase s.toList) := by
  have hcolon : ':' ∉ s.toList := fun hmem => by
    exact Bool.false_ne_true (isNameChar_colon.symm.trans (h _ hmem))
  rw [trim_of_not_isWhitespace fun c hc => not_isWhitespace_of_isNameChar (h c hc), trimColons_of_not_colon hcolon,
    ← String.toList_inj, hlower s fun c hc => isNameChar_ascii (h c hc), String.toList_ofList]

theorem IsName.chars {name : List Char} (h : IsName name) : ∀ c ∈ name, isNameChar c = true :=
  fun c hc => (isStored_iff.1 (h.letters c hc)).1

theorem IsName.lower {name : List Char} (h : IsName name) : asciiLowercase name = name :=
  (List.map_congr_left fun c hc => (isStored_iff.1 (h.letters c hc)).2).trans (List.map_id name)

/-- The names that the validator leaves alone. -/
theorem validateEmojiName_fixed_iff (hlower : LowersAscii toLowercase) {name : String} :
    validateEmojiName toLowercase name = .ok name ↔ IsName name.toList := by
  rw [validateEmojiName_iff]
  refine and_iff_right_of_imp fun h => ?_
  rw [toLowercase_trimColons hlower h.chars, h.lower, String.ofList_toList]

/-! ## The scanner -/

/-- The candidate after a colon. -/
def candidateOf (rest : List Char) : List Char := (rest.takeWhile isNameChar).take emojiNameMaxLen

/-- Is the candidate closed by a colon, long enough and not a number? -/
def Closed (rest : List Char) : Prop :=
  (rest.drop (candidateOf rest).length).head? = some ':' ∧ emojiNameMinLen ≤ (candidateOf rest).length ∧
    (candidateOf rest).all Char.isDigit = false

theorem candidateOf_chars {rest : List Char} : ∀ c ∈ candidateOf rest, isNameChar c = true :=
  fun _ hc => List.mem_takeWhile_imp (List.mem_of_mem_take hc)

theorem length_candidateOf (rest : List Char) : (candidateOf rest).length ≤ emojiNameMaxLen := List.length_take_le ..

theorem shortcodesFrom_other {c : Char} (hc : c ≠ ':') (found : List String) (rest : List Char) :
    shortcodesFrom toLowercase found (c :: rest) = shortcodesFrom toLowercase found rest := by
  rw [shortcodesFrom, if_pos hc]

theorem shortcodesFrom_closed {rest : List Char} (h : Closed rest) (found : List String) :
    shortcodesFrom toLowercase found (':' :: rest) =
      shortcodesFrom toLowercase
        (if toLowercase (String.ofList (candidateOf rest)) ∈ found then found
          else found ++ [toLowercase (String.ofList (candidateOf rest))])
        (rest.drop (candidateOf rest).length) := by
  rw [shortcodesFrom, if_neg (fun hne => hne rfl)]
  exact if_pos h

theorem shortcodesFrom_open {rest : List Char} (h : ¬Closed rest) (found : List String) :
    shortcodesFrom toLowercase found (':' :: rest) = shortcodesFrom toLowercase found rest := by
  rw [shortcodesFrom, if_neg (fun hne => hne rfl)]
  exact if_neg h

/-- What has no colon has no shortcode. -/
theorem shortcodesFrom_skip {skipped : List Char} (h : ':' ∉ skipped) (found : List String) (rest : List Char) :
    shortcodesFrom toLowercase found (skipped ++ rest) = shortcodesFrom toLowercase found rest := by
  induction skipped with
  | nil => rfl
  | cons c skipped ih =>
    rw [List.mem_cons, not_or] at h
    rw [List.cons_append, shortcodesFrom_other (Ne.symm h.1), ih h.2]

theorem shortcodesFrom_none {text : List Char} (h : ':' ∉ text) (found : List String) :
    shortcodesFrom toLowercase found text = found := by
  have hskip : shortcodesFrom toLowercase found (text ++ []) = _ := shortcodesFrom_skip h found []
  rw [List.append_nil] at hskip
  rw [hskip, shortcodesFrom]

theorem not_colon_of_isWhitespace {cs : List Char} (h : ∀ c ∈ cs, isWhitespace c = true) : ':' ∉ cs := by
  intro hmem
  have hcolon := h _ hmem
  revert hcolon
  decide

/-- A colon before nothing but whitespace opens no shortcode. -/
theorem shortcodesFrom_whitespace {after : List Char} (h : ∀ c ∈ after, isWhitespace c = true) (found : List String) :
    shortcodesFrom toLowercase found (':' :: after) = found := by
  have hcandidate : candidateOf after = [] := by
    unfold candidateOf
    rcases after with _ | ⟨c, after⟩
    · rfl
    · have hc : isNameChar c = false := by
        by_contra hname
        rw [Bool.not_eq_false] at hname
        exact Bool.false_ne_true ((not_isWhitespace_of_isNameChar hname).symm.trans (h c List.mem_cons_self))
      rw [List.takeWhile_cons_of_neg (by simp [hc]), List.take_nil]
  have hopen : ¬Closed after := by
    unfold Closed
    rw [hcandidate]
    exact fun h => absurd h.2.1 (by decide)
  rw [shortcodesFrom_open hopen, shortcodesFrom_none (not_colon_of_isWhitespace h)]

/-- What the scanner finds are names. -/
theorem isName_of_mem_shortcodesFrom (hlower : LowersAscii toLowercase) {found : List String} {text : List Char}
    (h : ∀ name ∈ found, IsName name.toList) : ∀ name ∈ shortcodesFrom toLowercase found text, IsName name.toList := by
  -- on the length of the text: after a shortcode the scan goes on from its closing colon, not from the next character
  induction hlength : text.length using Nat.strongRecOn generalizing text found with
  | ind length ih =>
    subst hlength
    rcases text with _ | ⟨c, rest⟩
    · rwa [shortcodesFrom]
    by_cases hc : c = ':'
    · subst hc
      by_cases hclosed : Closed rest
      · rw [shortcodesFrom_closed hclosed]
        have hname : IsName (toLowercase (String.ofList (candidateOf rest))).toList := by
          have hfold := hlower (String.ofList (candidateOf rest)) fun c hc =>
            isNameChar_ascii (candidateOf_chars c (String.toList_ofList ▸ hc))
          rw [String.toList_ofList] at hfold
          rw [hfold]
          exact (isName_asciiLowercase_iff candidateOf_chars).2 ⟨hclosed.2.1, length_candidateOf rest, hclosed.2.2⟩
        refine ih (rest.drop (candidateOf rest).length).length ?_ ?_ rfl
        · rw [List.length_drop, List.length_cons]
          omega
        · intro name hmem
          split at hmem
          · exact h name hmem
          · rcases List.mem_append.1 hmem with hmem | hmem
            · exact h name hmem
            · rw [List.mem_singleton.1 hmem]
              exact hname
      · rw [shortcodesFrom_open hclosed]
        exact ih rest.length (Nat.lt_succ_self _) h rfl
    · rw [shortcodesFrom_other hc]
      exact ih rest.length (Nat.lt_succ_self _) h rfl

/-- The candidate between two colons, if it is no longer than a name. -/
theorem candidateOf_between {w : List Char} (h : ∀ c ∈ w, isNameChar c = true) (hmost : w.length ≤ emojiNameMaxLen)
    (after : List Char) : candidateOf (w ++ ':' :: after) = w := by
  unfold candidateOf
  rw [List.takeWhile_append_of_pos h, List.takeWhile_cons_of_neg (by decide), List.append_nil,
    List.take_of_length_le hmost]

/-- A name between two colons is found, and nothing else where no further colon follows. -/
theorem shortcodesFrom_between {w after : List Char} (h : ∀ c ∈ w, isNameChar c = true)
    (hleast : emojiNameMinLen ≤ w.length) (hmost : w.length ≤ emojiNameMaxLen) (hdigits : w.all Char.isDigit = false)
    (hafter : ∀ c ∈ after, isWhitespace c = true) :
    shortcodesFrom toLowercase [] (':' :: (w ++ ':' :: after)) = [toLowercase (String.ofList w)] := by
  have hcandidate := candidateOf_between h hmost after
  have hdrop : (w ++ ':' :: after).drop w.length = ':' :: after := List.drop_left ..
  have hclosed : Closed (w ++ ':' :: after) := by
    unfold Closed
    rw [hcandidate, hdrop]
    exact ⟨rfl, hleast, hdigits⟩
  rw [shortcodesFrom_closed hclosed, hcandidate, hdrop, if_neg List.not_mem_nil, List.nil_append]
  exact shortcodesFrom_whitespace hafter _

/-- A candidate that is shorter than what stands before the next colon is not closed. -/
theorem not_closed_of_length_lt {inner rest : List Char} (hcolon : ':' ∉ inner)
    (hshort : (candidateOf (inner ++ rest)).length < inner.length) : ¬Closed (inner ++ rest) := by
  rintro ⟨hhead, -, -⟩
  rw [List.head?_drop, List.getElem?_append_left hshort] at hhead
  exact hcolon (List.mem_of_getElem? hhead)

/-- The candidate ends before the first character that no name has. -/
theorem length_candidateOf_lt {inner : List Char} (h : ¬∀ c ∈ inner, isNameChar c = true) (rest : List Char) :
    (candidateOf (inner ++ rest)).length < inner.length := by
  by_contra hlength
  -- otherwise all of `inner` would be in the candidate, which has none but a name's characters
  have hstart : inner <+: candidateOf (inner ++ rest) :=
    List.prefix_of_prefix_length_le (List.prefix_append ..)
      ((List.take_prefix ..).trans (List.takeWhile_prefix _)) (Nat.le_of_not_lt hlength)
  exact h fun c hc => candidateOf_chars c (hstart.subset hc)

/-- Nothing is found between two colons where a character is none of a name's. -/
theorem shortcodesFrom_stray {inner after : List Char} (hcolon : ':' ∉ inner) (h : ¬∀ c ∈ inner, isNameChar c = true)
    (hafter : ∀ c ∈ after, isWhitespace c = true) :
    shortcodesFrom toLowercase [] (':' :: (inner ++ ':' :: after)) = [] := by
  rw [shortcodesFrom_open (not_closed_of_length_lt hcolon (length_candidateOf_lt h _)), shortcodesFrom_skip hcolon,
    shortcodesFrom_whitespace hafter]

/-! ## The reader of a reaction -/

/-- What `trim` takes off. -/
theorem exists_trim (s : String) : ∃ before after, s.toList = before ++ ((trim s).toList ++ after) ∧
    (∀ c ∈ before, isWhitespace c = true) ∧ ∀ c ∈ after, isWhitespace c = true := by
  refine ⟨s.toList.takeWhile isWhitespace, (s.toList.dropWhile isWhitespace).rtakeWhile isWhitespace, ?_,
    fun c hc => List.mem_takeWhile_imp hc, fun c hc => List.mem_rtakeWhile_imp hc⟩
  rw [trim, String.toList_ofList, List.rdropWhile_append_rtakeWhile, List.takeWhile_append_dropWhile]

theorem betweenColons_iff {cs : List Char} {inner : String} : betweenColons cs = some inner ↔
    cs = ':' :: (inner.toList ++ [':']) ∧ ':' ∉ inner.toList := by
  unfold betweenColons
  split
  · rename_i rest
    rw [Option.ite_none_right_eq_some, Option.some_inj]
    constructor
    · rintro ⟨⟨hlast, hcolon⟩, rfl⟩
      rw [String.toList_ofList]
      exact ⟨congrArg _ (List.dropLast_append_getLast? _ hlast).symm, hcolon⟩
    · rintro ⟨hrest, hcolon⟩
      rw [(List.cons.inj hrest).2, List.getLast?_concat, List.dropLast_concat, String.ofList_toList]
      exact ⟨⟨rfl, hcolon⟩, rfl⟩
  · rename_i hne
    refine ⟨fun h => ?_, fun h => absurd h.1 (hne _)⟩
    cases h

theorem not_colon_of_trim {s : String} (h : ':' ∉ s.toList) : ':' ∉ (trim s).toList := by
  obtain ⟨before, after, hs, -, -⟩ := exists_trim s
  exact fun hmem => h (hs ▸ List.mem_append_right _ (List.mem_append_left _ hmem))

/-- The name a reaction is read as, by what stands between its colons. -/
theorem shortcodeName_iff {s name : String} : shortcodeName toLowercase s = some name ↔
    ∃ inner : String, (trim s).toList = ':' :: (inner.toList ++ [':']) ∧ ':' ∉ inner.toList ∧
      toLowercase (trim inner) = name ∧ IsName name.toList := by
  have hvalid {inner : String} (hcolon : ':' ∉ inner.toList) :
      (validateEmojiName toLowercase inner).toOption = some name ↔
        toLowercase (trim inner) = name ∧ IsName name.toList := by
    rw [← trimColons_of_not_colon (not_colon_of_trim hcolon), ← validateEmojiName_iff]
    rcases validateEmojiName toLowercase inner with e | found
    · constructor
      · intro h
        cases h
      · intro h
        cases h
    · exact ⟨fun h => congrArg _ (Option.some_inj.1 h), fun h => congrArg _ (Except.ok.inj h)⟩
  unfold shortcodeName
  rw [Option.bind_eq_some_iff]
  constructor
  · rintro ⟨inner, hinner, hname⟩
    obtain ⟨htrim, hcolon⟩ := betweenColons_iff.1 hinner
    exact ⟨inner, htrim, hcolon, (hvalid hcolon).1 hname⟩
  · rintro ⟨inner, htrim, hcolon, hname⟩
    exact ⟨inner, betweenColons_iff.2 ⟨htrim, hcolon⟩, (hvalid hcolon).2 hname⟩

/-- The scan of a text that is a reaction begins at its first colon. -/
theorem parseShortcodes_trim (toLowercase : String → String) {s : String} {inner : List Char} (h : (trim s).toList = ':' :: (inner ++ [':'])) :
    ∃ after, (∀ c ∈ after, isWhitespace c = true) ∧
      parseShortcodes toLowercase s = shortcodesFrom toLowercase [] (':' :: (inner ++ ':' :: after)) := by
  obtain ⟨before, after, hs, hbefore, hafter⟩ := exists_trim s
  refine ⟨after, hafter, ?_⟩
  rw [parseShortcodes, hs, shortcodesFrom_skip (not_colon_of_isWhitespace hbefore), h, List.cons_append, List.append_assoc,
    List.singleton_append]

/-- Does a reaction that is read as a name have none but a name's characters between its colons? -/
def Bare (toLowercase : String → String) (s : String) : Prop :=
  ∀ inner : String, (trim s).toList = ':' :: (inner.toList ++ [':']) → ':' ∉ inner.toList →
    IsName (toLowercase (trim inner)).toList → ∀ c ∈ inner.toList, isNameChar c = true

/-- The scanner finds what the reader of a reaction reads exactly where the reader takes nothing off. -/
theorem mem_parseShortcodes_iff (hlower : LowersAscii toLowercase) (s : String) :
    (∀ name, shortcodeName toLowercase s = some name → name ∈ parseShortcodes toLowercase s) ↔ Bare toLowercase s := by
  constructor
  · -- with a stray character between the colons nothing is found, and the reader has read a name
    intro h inner htrim hcolon hname
    by_contra hstray
    obtain ⟨after, hafter, hscan⟩ := parseShortcodes_trim toLowercase htrim
    have hmem := h _ (shortcodeName_iff.2 ⟨inner, htrim, hcolon, rfl, hname⟩)
    rw [hscan, shortcodesFrom_stray hcolon hstray hafter] at hmem
    exact List.not_mem_nil hmem
  · -- without one, `inner` is its own trim, and its fold is the name that both come to
    intro h name hread
    obtain ⟨inner, htrim, hcolon, rfl, hname⟩ := shortcodeName_iff.1 hread
    have hchars := h inner htrim hcolon hname
    obtain ⟨after, hafter, hscan⟩ := parseShortcodes_trim toLowercase htrim
    have htrimmed : trim inner = inner := trim_of_not_isWhitespace fun c hc => not_isWhitespace_of_isNameChar (hchars c hc)
    rw [htrimmed] at hname ⊢
    rw [hlower inner fun c hc => isNameChar_ascii (hchars c hc)] at hname
    obtain ⟨hleast, hmost, hdigits⟩ := (isName_asciiLowercase_iff hchars).1 hname
    rw [hscan, shortcodesFrom_between hchars hleast hmost hdigits hafter, String.ofList_toList]
    exact List.mem_singleton.2 rfl

/-! ## The names that are stored -/

theorem toList_shortcode (name : String) : (":" ++ name ++ ":").toList = ':' :: (name.toList ++ ':' :: []) := by
  rw [String.toList_append, String.toList_append]
  rfl

/-- The names that the scanner finds in their own shortcodes. -/
theorem parseShortcodes_shortcode_iff (hlower : LowersAscii toLowercase) (name : String) :
    parseShortcodes toLowercase (":" ++ name ++ ":") = [name] ↔ IsName name.toList := by
  unfold parseShortcodes
  rw [toList_shortcode]
  constructor
  · intro h
    have hnames : ∀ found ∈ shortcodesFrom toLowercase [] (':' :: (name.toList ++ [':'])), IsName found.toList :=
      isName_of_mem_shortcodesFrom hlower (List.forall_mem_nil _)
    exact hnames name (h ▸ List.mem_singleton.2 rfl)
  · intro h
    have hfold : toLowercase name = name := by
      rw [← String.toList_inj, hlower name fun c hc => isNameChar_ascii (h.chars c hc), h.lower]
    rw [shortcodesFrom_between h.chars h.least h.most h.notDigits (List.forall_mem_nil _), String.ofList_toList, hfold]

/-- Is a name that the validator accepts one that it leaves as it is? -/
def Kept (toLowercase : String → String) (name : String) : Prop :=
  IsName (toLowercase (trimColons (trim name))).toList → toLowercase (trimColons (trim name)) = name

/-- The validator accepts what the scanner finds exactly where it leaves the name as it is. -/
theorem validates_iff (hlower : LowersAscii toLowercase) (name : String) :
    ((∃ stored, validateEmojiName toLowercase name = .ok stored) ↔
      parseShortcodes toLowercase (":" ++ name ++ ":") = [name]) ↔ Kept toLowercase name := by
  have haccepts : (∃ stored, validateEmojiName toLowercase name = .ok stored) ↔
      IsName (toLowercase (trimColons (trim name))).toList := by
    constructor
    · rintro ⟨stored, hstored⟩
      obtain ⟨rfl, hname⟩ := validateEmojiName_iff.1 hstored
      exact hname
    · exact fun hname => ⟨_, validateEmojiName_iff.2 ⟨rfl, hname⟩⟩
  rw [haccepts, parseShortcodes_shortcode_iff hlower]
  constructor
  · exact fun h hname => (validateEmojiName_iff.1 ((validateEmojiName_fixed_iff hlower).2 (h.1 hname))).1
  · intro hkept
    constructor
    · exact fun hname => hkept hname ▸ hname
    · intro hname
      rw [(validateEmojiName_iff.1 ((validateEmojiName_fixed_iff hlower).2 hname)).1]
      exact hname

/-- Where the three readers agree: a reaction is read as a name that the scanner finds in it exactly if it is bare, what
the validator accepts is what the scanner finds exactly if it is kept, and what the validator stores is always found. -/
theorem readers_agree_iff (hlower : LowersAscii toLowercase) :
    (∀ s, (∀ name, shortcodeName toLowercase s = some name → name ∈ parseShortcodes toLowercase s) ↔ Bare toLowercase s) ∧
    (∀ name, ((∃ stored, validateEmojiName toLowercase name = .ok stored) ↔
      parseShortcodes toLowercase (":" ++ name ++ ":") = [name]) ↔ Kept toLowercase name) ∧
    ∀ name, (∃ raw, validateEmojiName toLowercase raw = .ok name) ↔
      parseShortcodes toLowercase (":" ++ name ++ ":") = [name] := by
  refine ⟨mem_parseShortcodes_iff hlower, validates_iff hlower, fun name => ?_⟩
  rw [parseShortcodes_shortcode_iff hlower]
  constructor
  · rintro ⟨raw, hraw⟩
    exact (validateEmojiName_iff.1 hraw).2
  · exact fun hname => ⟨name, (validateEmojiName_fixed_iff hlower).2 hname⟩

/-- A name that is stored, in its shortcode. -/
theorem readers_agree_blob : parseShortcodes lowerAscii (":" ++ "blob" ++ ":") = ["blob"] := by
  have hname : IsName "blob".toList := ⟨by decide, by decide, List.all_eq_true.1 (by decide), by decide⟩
  exact ((readers_agree_iff lowersAscii_lowerAscii).2.2 "blob").1 ⟨"blob", validateEmojiName_iff.2 ⟨rfl, hname⟩⟩

theorem parseShortcodes_spaced : parseShortcodes lowerAscii ": blob :" = [] :=
  have hscan : shortcodesFrom lowerAscii [] (':' :: (" blob ".toList ++ ':' :: [])) = [] :=
    shortcodesFrom_stray (by decide) (fun h => absurd (h ' ' (by decide)) (by decide)) (List.forall_mem_nil _)
  hscan

/-- The validator takes off whitespace, which the scanner does not: what stands between these colons is a name to the
reader of a reaction, it is accepted for storing, and the scanner finds nothing. -/
theorem not_readers_agree :
    ¬(∀ s name, shortcodeName lowerAscii s = some name → name ∈ parseShortcodes lowerAscii s) ∧
      ¬∀ name, (∃ stored, validateEmojiName lowerAscii name = .ok stored) ↔
        parseShortcodes lowerAscii (":" ++ name ++ ":") = [name] := by
  constructor
  · intro h
    have hmem := h ": blob :" "blob" (by decide)
    rw [parseShortcodes_spaced] at hmem
    exact List.not_mem_nil hmem
  · intro h
    have hfound : parseShortcodes lowerAscii ": blob :" = [" blob "] := (h " blob ").1 ⟨"blob", by decide⟩
    rw [parseShortcodes_spaced] at hfound
    cases hfound

end Genzh.Messaging
