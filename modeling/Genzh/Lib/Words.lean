/-
The words of a text: its longest runs without a blank. A text is its words up to its runs of blanks,
and a list of words is the words of their join.
-/
import Mathlib.Data.List.TakeWhile

namespace Genzh.Lib

variable {α : Type} (blank : α → Bool)

/-- The words of a text, in order. -/
def words (text : List α) : List (List α) := (text.splitOnP blank).filter fun word => !word.isEmpty

/-- A word has letters and no blanks. -/
def IsWord (word : List α) : Prop := word ≠ [] ∧ ∀ c ∈ word, blank c = false

/-- The words with one separator between every two. -/
def joined (separator : α) : List (List α) → List α
  | [] => []
  | word :: rest => word ++ rest.flatMap fun w => separator :: w

variable {blank}

@[simp] theorem words_nil : words blank [] = [] := rfl

theorem words_blank_cons {b : α} (hb : blank b = true) (text : List α) : words blank (b :: text) = words blank text := by
  unfold words
  rw [List.splitOnP_cons_eq_if_modifyHead, if_pos hb, List.filter_cons_of_neg (by simp)]

/-- A text without blanks is a word, if it is a text at all. -/
theorem words_of_letters {word : List α} (h : IsWord blank word) : words blank word = [word] := by
  unfold words
  rw [List.splitOnP_eq_singleton h.2, List.filter_cons_of_pos (by simpa using h.1), List.filter_nil]

theorem words_append_blank {b : α} (hb : blank b = true) (left right : List α) :
    words blank (left ++ b :: right) = words blank left ++ words blank right := by
  unfold words
  rw [List.splitOnP_append_cons left right hb, List.filter_append]

theorem words_word_append {word : List α} (h : IsWord blank word) {b : α} (hb : blank b = true) (text : List α) :
    words blank (word ++ b :: text) = word :: words blank text := by
  rw [words_append_blank hb, words_of_letters h, List.singleton_append]

/-- A text is nothing, a blank and a text, a word, or a word, a blank and a text. -/
theorem words_induction (blank : α → Bool) {motive : List α → Prop} (empty : motive [])
    (blank_cons : ∀ b text, blank b = true → motive text → motive (b :: text))
    (word : ∀ w, IsWord blank w → motive w)
    (word_append : ∀ w b text, IsWord blank w → blank b = true → motive text → motive (w ++ b :: text))
    (text : List α) : motive text := by
  induction hlen : text.length using Nat.strongRecOn generalizing text with
  | ind n ih =>
    subst hlen
    rcases text with _ | ⟨c, text⟩
    · exact empty
    rcases hc : blank c
    · have hword : IsWord blank (c :: text.takeWhile fun d => !blank d) := by
        refine ⟨List.cons_ne_nil _ _, fun d hd => ?_⟩
        rcases List.mem_cons.1 hd with rfl | hd
        · exact hc
        · simpa using List.mem_takeWhile_imp hd
      have hsplit : c :: text =
          (c :: text.takeWhile fun d => !blank d) ++ text.dropWhile fun d => !blank d := by
        rw [List.cons_append, List.takeWhile_append_dropWhile]
      have hle := (List.dropWhile_suffix (fun d => !blank d) (l := text)).length_le
      rcases hrest : text.dropWhile (fun d => !blank d) with _ | ⟨b, rest⟩
      · rw [hsplit, hrest, List.append_nil]
        exact word _ hword
      · have hb : blank b = true := by
          have hhead := List.head?_dropWhile_not (fun d => !blank d) text
          rw [hrest] at hhead
          simpa using hhead
        rw [hrest, List.length_cons] at hle
        rw [hsplit, hrest]
        exact word_append _ _ _ hword hb (ih _ (by rw [List.length_cons]; omega) _ rfl)
    · exact blank_cons c text hc (ih _ (Nat.lt_succ_self _) _ rfl)

theorem isWord_of_mem_words {text : List α} : ∀ w ∈ words blank text, IsWord blank w := by
  induction text using words_induction blank with
  | empty => simp
  | blank_cons b text hb ih => rwa [words_blank_cons hb]
  | word w hw =>
    rw [words_of_letters hw]
    simpa using hw
  | word_append w b text hw hb ih =>
    rw [words_word_append hw hb]
    exact List.forall_mem_cons.2 ⟨hw, ih⟩

theorem mem_of_mem_words {text word : List α} {c : α} (h : word ∈ words blank text) (hc : c ∈ word) : c ∈ text := by
  induction text using words_induction blank with
  | empty => simp at h
  | blank_cons b text hb ih =>
    rw [words_blank_cons hb] at h
    exact List.mem_cons_of_mem _ (ih h)
  | word w hw =>
    rw [words_of_letters hw, List.mem_singleton] at h
    exact h ▸ hc
  | word_append w b text hw hb ih =>
    rw [words_word_append hw hb] at h
    rcases List.mem_cons.1 h with rfl | h
    · exact List.mem_append_left _ hc
    · exact List.mem_append_right _ (List.mem_cons_of_mem _ (ih h))

/-! ### Runs of blanks -/

theorem words_blanks_append {blanks : List α} (h : ∀ b ∈ blanks, blank b = true) (text : List α) :
    words blank (blanks ++ text) = words blank text := by
  induction blanks with
  | nil => rfl
  | cons b blanks ih =>
    rw [List.cons_append, words_blank_cons (h b List.mem_cons_self)]
    exact ih fun b' hb' => h b' (List.mem_cons_of_mem _ hb')

/-- A run of blanks between two texts: which blanks it is made of does not matter. -/
theorem words_append_blanks_append {blanks : List α} (h : ∀ b ∈ blanks, blank b = true) (hne : blanks ≠ [])
    (left right : List α) : words blank (left ++ blanks ++ right) = words blank left ++ words blank right := by
  obtain ⟨b, blanks, rfl⟩ := List.exists_cons_of_ne_nil hne
  rw [List.append_assoc, List.cons_append, words_append_blank (h b List.mem_cons_self),
    words_blanks_append fun b' hb' => h b' (List.mem_cons_of_mem _ hb')]

theorem words_append_blanks {blanks : List α} (h : ∀ b ∈ blanks, blank b = true) (text : List α) :
    words blank (text ++ blanks) = words blank text := by
  rcases blanks with _ | ⟨b, blanks⟩
  · rw [List.append_nil]
  · have happend := words_append_blanks_append h (List.cons_ne_nil _ _) text []
    rwa [List.append_nil, words_nil, List.append_nil] at happend

/-! ### Joining -/

@[simp] theorem joined_nil (separator : α) : joined separator [] = [] := rfl

theorem joined_cons_cons (separator : α) (word next : List α) (rest : List (List α)) :
    joined separator (word :: next :: rest) = word ++ separator :: joined separator (next :: rest) := by
  rw [joined, joined, List.flatMap_cons, List.cons_append]

/-- One word more behind the others. -/
theorem joined_concat (separator : α) (ws : List (List α)) (word : List α) :
    joined separator (ws ++ [word]) = joined separator ws ++ (if ws.isEmpty then [] else [separator]) ++ word := by
  rcases ws with _ | ⟨first, rest⟩
  · simp [joined]
  · simp [joined, List.append_assoc]

/-- A list of words is the words of their join. -/
theorem words_joined {separator : α} (hseparator : blank separator = true) {ws : List (List α)}
    (hws : ∀ w ∈ ws, IsWord blank w) : words blank (joined separator ws) = ws := by
  induction ws with
  | nil => rfl
  | cons word rest ih =>
    have hword := hws word List.mem_cons_self
    have hrest := ih fun w hw => hws w (List.mem_cons_of_mem _ hw)
    rcases rest with _ | ⟨next, rest⟩
    · rw [joined, List.flatMap_nil, List.append_nil, words_of_letters hword]
    · rw [joined_cons_cons, words_word_append hword hseparator, hrest]

theorem joined_injective {separator : α} (hseparator : blank separator = true) {ws us : List (List α)}
    (hws : ∀ w ∈ ws, IsWord blank w) (hus : ∀ w ∈ us, IsWord blank w)
    (h : joined separator ws = joined separator us) : ws = us := by
  rw [← words_joined hseparator hws, h, words_joined hseparator hus]

theorem mem_joined {separator c : α} {ws : List (List α)} (h : c ∈ joined separator ws) :
    c = separator ∨ ∃ w ∈ ws, c ∈ w := by
  rcases ws with _ | ⟨word, rest⟩
  · cases h
  · rcases List.mem_append.1 h with h | h
    · exact .inr ⟨word, List.mem_cons_self, h⟩
    · obtain ⟨w, hw, hc⟩ := List.mem_flatMap.1 h
      rcases List.mem_cons.1 hc with rfl | hc
      · exact .inl rfl
      · exact .inr ⟨w, List.mem_cons_of_mem _ hw, hc⟩

/-! ### Rewriting the letters -/

/-- A rewriting that keeps the blanks and puts letters for every letter. -/
structure KeepsWords (blank : α → Bool) (f : α → List α) : Prop where
  blanks : ∀ b, blank b = true → f b = [b]
  letters : ∀ c, blank c = false → IsWord blank (f c)

theorem KeepsWords.isWord {f : α → List α} (hf : KeepsWords blank f) {word : List α} (h : IsWord blank word) :
    IsWord blank (word.flatMap f) := by
  constructor
  · obtain ⟨c, rest, rfl⟩ := List.exists_cons_of_ne_nil h.1
    rw [List.flatMap_cons]
    exact List.append_ne_nil_of_left_ne_nil (hf.letters c (h.2 c List.mem_cons_self)).1 _
  · intro d hd
    obtain ⟨c, hc, hd⟩ := List.mem_flatMap.1 hd
    exact (hf.letters c (h.2 c hc)).2 d hd

/-- Such a rewriting works word by word. -/
theorem words_flatMap {f : α → List α} (hf : KeepsWords blank f) (text : List α) :
    words blank (text.flatMap f) = (words blank text).map (·.flatMap f) := by
  induction text using words_induction blank with
  | empty => rfl
  | blank_cons b text hb ih =>
    rw [List.flatMap_cons, hf.blanks b hb, List.singleton_append, words_blank_cons hb, words_blank_cons hb, ih]
  | word w hw => rw [words_of_letters hw, words_of_letters (hf.isWord hw), List.map_singleton]
  | word_append w b text hw hb ih =>
    rw [List.flatMap_append, List.flatMap_cons, hf.blanks b hb, List.singleton_append,
      words_word_append (hf.isWord hw) hb, words_word_append hw hb, List.map_cons, ih]

end Genzh.Lib
