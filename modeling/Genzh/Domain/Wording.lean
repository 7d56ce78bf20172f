/-
What two messages with one fingerprint have in common. `normalize` is the join of the message's folded
words, so it forgets invisible characters, the make-up of runs of whitespace and the case of letters, and
nothing else.
-/
import Genzh.Domain.Spam
import Genzh.Lib.Words

namespace Genzh.Domain

open Genzh.Lib

/-- What `normalize` relies on `char::to_lowercase` for: whitespace and invisible characters have no case,
and every other character becomes one or more characters of its kind that are lower case already. -/
structure CaseFolds (toLowercase : Char → List Char) : Prop where
  whitespace : ∀ c, isWhitespace c = true → toLowercase c = [c]
  invisible : ∀ c, isInvisible c = true → toLowercase c = [c]
  nonempty : ∀ c, toLowercase c ≠ []
  letter : ∀ c, isWhitespace c = false → isInvisible c = false → ∀ d ∈ toLowercase c,
    isWhitespace d = false ∧ isInvisible d = false ∧ toLowercase d = [d]

/-- A text without its invisible characters. -/
def visible (text : List Char) : List Char := text.filter fun c => !isInvisible c

/-- The words of a message, without its invisible characters and with its case folded. -/
def foldedWords (toLowercase : Char → List Char) (content : String) : List (List Char) :=
  (words isWhitespace (visible content.toList)).map (·.flatMap toLowercase)

theorem mem_visible {text : List Char} {c : Char} : c ∈ visible text ↔ c ∈ text ∧ isInvisible c = false := by
  simp [visible]

theorem visible_append (left right : List Char) : visible (left ++ right) = visible left ++ visible right :=
  List.filter_append ..

theorem visible_of_visible {text : List Char} (h : ∀ c ∈ text, isInvisible c = false) : visible text = text :=
  List.filter_eq_self.2 fun c hc => by rw [h c hc]; rfl

variable {toLowercase : Char → List Char}

/-! ## The loop -/

theorem normalizeFrom_invisible {c : Char} (hc : isInvisible c = true) (out : List Char) (pendingSpace : Bool)
    (rest : List Char) :
    normalizeFrom toLowercase out pendingSpace (c :: rest) = normalizeFrom toLowercase out pendingSpace rest := by
  rw [normalizeFrom, if_pos hc]

theorem normalizeFrom_whitespace {c : Char} (hc : isInvisible c = false) (hw : isWhitespace c = true)
    (out : List Char) (pendingSpace : Bool) (rest : List Char) :
    normalizeFrom toLowercase out pendingSpace (c :: rest) = normalizeFrom toLowercase out (!out.isEmpty) rest := by
  rw [normalizeFrom, if_neg (by simp [hc]), if_pos hw]

theorem normalizeFrom_letter {c : Char} (hc : isInvisible c = false) (hw : isWhitespace c = false)
    (out : List Char) (pendingSpace : Bool) (rest : List Char) :
    normalizeFrom toLowercase out pendingSpace (c :: rest) =
      normalizeFrom toLowercase (out ++ (if pendingSpace then [' '] else []) ++ toLowercase c) false rest := by
  rw [normalizeFrom, if_neg (by simp [hc]), if_neg (by simp [hw])]

/-- Invisible characters are skipped wherever they stand. -/
theorem normalizeFrom_visible (text out : List Char) (pendingSpace : Bool) :
    normalizeFrom toLowercase out pendingSpace text = normalizeFrom toLowercase out pendingSpace (visible text) := by
  induction text generalizing out pendingSpace with
  | nil => rfl
  | cons c rest ih =>
    rcases hc : isInvisible c
    · have hcons : visible (c :: rest) = c :: visible rest := List.filter_cons_of_pos (by simp [hc])
      rw [hcons]
      rcases hw : isWhitespace c
      · rw [normalizeFrom_letter hc hw, normalizeFrom_letter hc hw, ih]
      · rw [normalizeFrom_whitespace hc hw, normalizeFrom_whitespace hc hw, ih]
    · have hcons : visible (c :: rest) = visible rest := List.filter_cons_of_neg (by simp [hc])
      rw [hcons, normalizeFrom_invisible hc, ih]

/-- Within a word every letter is folded and nothing is put between. -/
theorem normalizeFrom_letters {letters : List Char}
    (h : ∀ c ∈ letters, isInvisible c = false ∧ isWhitespace c = false) (out rest : List Char) :
    normalizeFrom toLowercase out false (letters ++ rest) =
      normalizeFrom toLowercase (out ++ letters.flatMap toLowercase) false rest := by
  induction letters generalizing out with
  | nil => rw [List.nil_append, List.flatMap_nil, List.append_nil]
  | cons c letters ih =>
    obtain ⟨hc, hw⟩ := h c List.mem_cons_self
    rw [List.cons_append, normalizeFrom_letter hc hw, ih fun d hd => h d (List.mem_cons_of_mem _ hd),
      List.flatMap_cons]
    simp [List.append_assoc]

/-- A word is put behind the words before it, with one space between. -/
theorem normalizeFrom_word {word : List Char} (hword : IsWord isWhitespace word)
    (hvisible : ∀ c ∈ word, isInvisible c = false) (done : List (List Char)) (rest : List Char) :
    normalizeFrom toLowercase (joined ' ' done) (!done.isEmpty) (word ++ rest) =
      normalizeFrom toLowercase (joined ' ' (done ++ [word.flatMap toLowercase])) false rest := by
  obtain ⟨c, letters, rfl⟩ := List.exists_cons_of_ne_nil hword.1
  have hletters : ∀ d ∈ letters, isInvisible d = false ∧ isWhitespace d = false := fun d hd =>
    ⟨hvisible d (List.mem_cons_of_mem _ hd), hword.2 d (List.mem_cons_of_mem _ hd)⟩
  rw [List.cons_append, normalizeFrom_letter (hvisible c List.mem_cons_self) (hword.2 c List.mem_cons_self),
    normalizeFrom_letters hletters, joined_concat, List.flatMap_cons]
  rcases done with _ | ⟨first, done⟩ <;> simp [List.append_assoc]

theorem isEmpty_joined {done : List (List Char)} (h : ∀ w ∈ done, IsWord isWhitespace w) :
    (joined ' ' done).isEmpty = done.isEmpty := by
  rcases done with _ | ⟨first, done⟩
  · rfl
  · obtain ⟨c, letters, rfl⟩ := List.exists_cons_of_ne_nil (h first List.mem_cons_self).1
    rfl

/-- Between two words the loop holds the join of the words it has read. -/
theorem normalizeFrom_words (htables : KeepsWords isWhitespace toLowercase) {text : List Char}
    (hvisible : ∀ c ∈ text, isInvisible c = false) {done : List (List Char)}
    (hdone : ∀ w ∈ done, IsWord isWhitespace w) :
    normalizeFrom toLowercase (joined ' ' done) (!done.isEmpty) text =
      joined ' ' (done ++ (words isWhitespace text).map (·.flatMap toLowercase)) := by
  induction text using words_induction isWhitespace generalizing done with
  | empty => rw [normalizeFrom, words_nil, List.map_nil, List.append_nil]
  | blank_cons b text hb ih =>
    have hrest : ∀ c ∈ text, isInvisible c = false := fun c hc => hvisible c (List.mem_cons_of_mem _ hc)
    rw [normalizeFrom_whitespace (hvisible b List.mem_cons_self) hb, isEmpty_joined hdone, words_blank_cons hb]
    exact ih hrest hdone
  | word w hw =>
    have happend : normalizeFrom toLowercase (joined ' ' done) (!done.isEmpty) (w ++ []) = _ :=
      normalizeFrom_word hw hvisible done []
    rw [List.append_nil] at happend
    rw [happend, normalizeFrom, words_of_letters hw, List.map_singleton]
  | word_append w b text hw hb ih =>
    have hword : ∀ c ∈ w, isInvisible c = false := fun c hc => hvisible c (List.mem_append_left _ hc)
    have hblank : isInvisible b = false := hvisible b (List.mem_append_right _ List.mem_cons_self)
    have hrest : ∀ c ∈ text, isInvisible c = false := fun c hc =>
      hvisible c (List.mem_append_right _ (List.mem_cons_of_mem _ hc))
    have hdone' : ∀ u ∈ done ++ [w.flatMap toLowercase], IsWord isWhitespace u := by
      intro u hu
      rcases List.mem_append.1 hu with hu | hu
      · exact hdone u hu
      · rw [List.mem_singleton.1 hu]
        exact htables.isWord hw
    rw [normalizeFrom_word hw hword, normalizeFrom_whitespace hblank hb, isEmpty_joined hdone', ih hrest hdone',
      words_word_append hw hb, List.map_cons, List.append_assoc, List.singleton_append]

/-! ## What `normalize` keeps -/

theorem CaseFolds.keepsWords (htables : CaseFolds toLowercase) : KeepsWords isWhitespace toLowercase := by
  refine ⟨htables.whitespace, fun c hc => ⟨htables.nonempty c, fun d hd => ?_⟩⟩
  rcases hinvisible : isInvisible c
  · exact (htables.letter c hc hinvisible d hd).1
  · rw [htables.invisible c hinvisible] at hd
    rw [List.mem_singleton.1 hd, hc]

theorem CaseFolds.invisible_image (htables : CaseFolds toLowercase) {c d : Char} (hc : isInvisible c = false)
    (hd : d ∈ toLowercase c) : isInvisible d = false := by
  rcases hw : isWhitespace c
  · exact (htables.letter c hw hc d hd).2.1
  · rw [htables.whitespace c hw] at hd
    rw [List.mem_singleton.1 hd, hc]

/-- Folding twice is folding once. -/
theorem CaseFolds.fold_fold (htables : CaseFolds toLowercase) (text : List Char) :
    (text.flatMap toLowercase).flatMap toLowercase = text.flatMap toLowercase := by
  have hfixed : ∀ c, ∀ d ∈ toLowercase c, toLowercase d = [d] := by
    intro c d hd
    rcases hw : isWhitespace c
    · rcases hi : isInvisible c
      · exact (htables.letter c hw hi d hd).2.2
      · rw [htables.invisible c hi] at hd
        rw [List.mem_singleton.1 hd, htables.invisible c hi]
    · rw [htables.whitespace c hw] at hd
      rw [List.mem_singleton.1 hd, htables.whitespace c hw]
  have hflat : ∀ l : List Char, (∀ d ∈ l, toLowercase d = [d]) → l.flatMap toLowercase = l := by
    intro l hl
    induction l with
    | nil => rfl
    | cons d l ih =>
      rw [List.flatMap_cons, hl d List.mem_cons_self, ih fun d' hd' => hl d' (List.mem_cons_of_mem _ hd'),
        List.singleton_append]
  refine hflat _ fun d hd => ?_
  obtain ⟨c, -, hd⟩ := List.mem_flatMap.1 hd
  exact hfixed c d hd

/-- A normal form is the folded words with a space between every two. -/
theorem normalize_eq_joined (htables : CaseFolds toLowercase) (content : String) :
    (normalize toLowercase content).toList = joined ' ' (foldedWords toLowercase content) := by
  have hvisible : ∀ c ∈ visible content.toList, isInvisible c = false := fun c hc => (mem_visible.1 hc).2
  have hnone : ∀ w ∈ ([] : List (List Char)), IsWord isWhitespace w := fun w hw => absurd hw List.not_mem_nil
  have hloop := normalizeFrom_words htables.keepsWords hvisible hnone
  rw [joined_nil, List.isEmpty_nil, Bool.not_true, List.nil_append] at hloop
  rw [normalize, String.toList_ofList, normalizeFrom_visible]
  exact hloop

theorem isWord_of_mem_foldedWords (htables : CaseFolds toLowercase) {content : String} :
    ∀ w ∈ foldedWords toLowercase content, IsWord isWhitespace w := by
  intro w hw
  obtain ⟨u, hu, rfl⟩ := List.mem_map.1 hw
  exact htables.keepsWords.isWord (isWord_of_mem_words u hu)

/-- Two messages have one normal form exactly if they have the same folded words. -/
theorem normalize_eq_iff (htables : CaseFolds toLowercase) (a b : String) :
    normalize toLowercase a = normalize toLowercase b ↔ foldedWords toLowercase a = foldedWords toLowercase b := by
  have hspace : isWhitespace ' ' = true := by decide
  constructor
  · intro h
    refine joined_injective hspace (isWord_of_mem_foldedWords htables) (isWord_of_mem_foldedWords htables) ?_
    rw [← normalize_eq_joined htables, ← normalize_eq_joined htables, h]
  · intro h
    rw [← String.toList_inj, normalize_eq_joined htables, normalize_eq_joined htables, h]

theorem foldedWords_normalize (htables : CaseFolds toLowercase) (content : String) :
    foldedWords toLowercase (normalize toLowercase content) = foldedWords toLowercase content := by
  have hspace : isWhitespace ' ' = true := by decide
  have hvisible : ∀ c ∈ joined ' ' (foldedWords toLowercase content), isInvisible c = false := by
    intro c hc
    rcases mem_joined hc with rfl | ⟨w, hw, hc⟩
    · decide
    · obtain ⟨u, hu, rfl⟩ := List.mem_map.1 hw
      obtain ⟨d, hd, hc⟩ := List.mem_flatMap.1 hc
      exact htables.invisible_image (mem_visible.1 (mem_of_mem_words hu hd)).2 hc
  have hfold : (foldedWords toLowercase content).map (·.flatMap toLowercase) = foldedWords toLowercase content := by
    unfold foldedWords
    rw [List.map_map]
    exact List.map_congr_left fun w _ => htables.fold_fold w
  rw [foldedWords, normalize_eq_joined htables, visible_of_visible hvisible,
    words_joined hspace (isWord_of_mem_foldedWords htables), hfold]

/-- Lower case is taken before or after the words are. -/
theorem foldedWords_eq_words (htables : CaseFolds toLowercase) (content : String) :
    foldedWords toLowercase content = words isWhitespace (visible (content.toList.flatMap toLowercase)) := by
  have hvisible : ∀ text : List Char, visible (text.flatMap toLowercase) = (visible text).flatMap toLowercase := by
    intro text
    induction text with
    | nil => rfl
    | cons c text ih =>
      rw [List.flatMap_cons, visible_append, ih]
      rcases hc : isInvisible c
      · have hcons : visible (c :: text) = c :: visible text := List.filter_cons_of_pos (by simp [hc])
        rw [hcons, List.flatMap_cons, visible_of_visible fun d hd => htables.invisible_image hc hd]
      · have hcons : visible (c :: text) = visible text := List.filter_cons_of_neg (by simp [hc])
        have hnone : visible [c] = [] := List.filter_cons_of_neg (by simp [hc])
        rw [hcons, htables.invisible c hc, hnone, List.nil_append]
  rw [hvisible, words_flatMap htables.keepsWords, foldedWords]

/-! ## What `normalize` forgets -/

/-- Nothing but whitespace and invisible characters. -/
def Padding (text : String) : Prop := ∀ c ∈ text.toList, isWhitespace c = true ∨ isInvisible c = true

/-- Padding that parts two words. -/
def Gap (text : String) : Prop := Padding text ∧ ∃ c ∈ text.toList, isWhitespace c = true

theorem Padding.blanks {text : String} (h : Padding text) : ∀ c ∈ visible text.toList, isWhitespace c = true := by
  intro c hc
  obtain ⟨hmem, hvisible⟩ := mem_visible.1 hc
  exact (h c hmem).resolve_right (by simp [hvisible])

theorem not_isInvisible_of_isWhitespace {c : Char} (h : isWhitespace c = true) : isInvisible c = false := by
  simp only [isWhitespace, isInvisible, Bool.or_eq_true, Bool.and_eq_true, decide_eq_true_eq, beq_iff_eq,
    Bool.or_eq_false_iff, Bool.and_eq_false_iff, decide_eq_false_iff_not, beq_eq_false_iff_ne] at h ⊢
  omega

theorem Gap.ne_nil {text : String} (h : Gap text) : visible text.toList ≠ [] := by
  obtain ⟨c, hc, hw⟩ := h.2
  exact List.ne_nil_of_mem (mem_visible.2 ⟨hc, not_isInvisible_of_isWhitespace hw⟩)

theorem foldedWords_padding {pad : String} (h : Padding pad) (x : String) :
    foldedWords toLowercase (pad ++ x) = foldedWords toLowercase x ∧
      foldedWords toLowercase (x ++ pad) = foldedWords toLowercase x := by
  unfold foldedWords
  rw [String.toList_append, String.toList_append, visible_append, visible_append, words_blanks_append h.blanks,
    words_append_blanks h.blanks]
  exact ⟨rfl, rfl⟩

/-- Whatever parts two words, the words are those of the two sides. -/
theorem foldedWords_gap {gap : String} (h : Gap gap) (x y : String) :
    foldedWords toLowercase (x ++ gap ++ y) = foldedWords toLowercase x ++ foldedWords toLowercase y := by
  unfold foldedWords
  rw [String.toList_append, String.toList_append, visible_append, visible_append,
    words_append_blanks_append h.1.blanks h.ne_nil, List.map_append]

theorem caseFolds_toLower : CaseFolds fun c => [c.toLower] := by
  refine ⟨fun c h => ?_, fun c h => ?_, fun c => List.cons_ne_nil _ _, fun c hw hi d hd => ?_⟩
  · rcases toLower_shift c with ⟨-, hsame⟩ | ⟨hrange, -⟩
    · rw [hsame]
    · simp only [isWhitespace, Bool.or_eq_true, Bool.and_eq_true, decide_eq_true_eq, beq_iff_eq] at h
      omega
  · rcases toLower_shift c with ⟨-, hsame⟩ | ⟨hrange, -⟩
    · rw [hsame]
    · simp only [isInvisible, Bool.or_eq_true, Bool.and_eq_true, decide_eq_true_eq, beq_iff_eq] at h
      omega
  · obtain rfl : d = c.toLower := List.mem_singleton.1 hd
    rcases toLower_shift c with ⟨-, hsame⟩ | ⟨hrange, hlower⟩
    · rw [hsame]
      exact ⟨hw, hi, by rw [hsame]⟩
    · have hfixed : c.toLower.toLower = c.toLower := by
        rcases toLower_shift c.toLower with ⟨-, hsame⟩ | ⟨hrange', -⟩
        · exact hsame
        · omega
      refine ⟨?_, ?_, by rw [hfixed]⟩
      · simp only [isWhitespace, Bool.or_eq_false_iff, Bool.and_eq_false_iff, decide_eq_false_iff_not,
          beq_eq_false_iff_ne]
        omega
      · simp only [isInvisible, Bool.or_eq_false_iff, Bool.and_eq_false_iff, decide_eq_false_iff_not,
          beq_eq_false_iff_ne]
        omega

end Genzh.Domain
