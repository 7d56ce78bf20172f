/-
What the mentions of a text are. The scanner reads every run of handle characters after an `@` that begins
a word; the grammar of handles is `normalizeHandle`'s. The scanner takes more than the grammar has: it asks
neither for the length of a handle nor for how it begins.
-/
import Genzh.Domain.Message
import Genzh.Domain.User

namespace Genzh.Domain

/-! ## The grammar of handles -/

/-- A handle as it is stored. -/
structure IsHandle (handle : List Char) : Prop where
  least : handleMinLen ≤ handle.length
  most : handle.length ≤ handleMaxLen
  letters : ∀ c ∈ handle, isHandleLetter c = true
  lower : asciiLowercase handle = handle
  first : handle.head? ≠ some '.'
  last : handle.getLast? ≠ some '.'

/-- The characters of a handle by their numbers: a full stop, an underscore, a digit or a letter. -/
theorem isHandleLetter_range {c : Char} (h : isHandleLetter c = true) :
    c.toNat = 46 ∨ c.toNat = 95 ∨ (48 ≤ c.toNat ∧ c.toNat ≤ 57) ∨ (65 ≤ c.toNat ∧ c.toNat ≤ 90) ∨
      (97 ≤ c.toNat ∧ c.toNat ≤ 122) := by
  unfold isHandleLetter Char.isAlphanum Char.isAlpha Char.isUpper Char.isLower Char.isDigit at h
  simp only [Bool.or_eq_true, Bool.and_eq_true, decide_eq_true_eq, beq_iff_eq] at h
  rcases h with (((⟨hlow, hhigh⟩ | ⟨hlow, hhigh⟩) | ⟨hlow, hhigh⟩) | rfl) | rfl
  · exact .inr (.inr (.inr (.inl ⟨hlow, hhigh⟩)))
  · exact .inr (.inr (.inr (.inr ⟨hlow, hhigh⟩)))
  · exact .inr (.inr (.inl ⟨hlow, hhigh⟩))
  · exact .inr (.inl rfl)
  · exact .inl rfl

theorem not_isWhitespace_of_isHandleLetter {c : Char} (h : isHandleLetter c = true) : isWhitespace c = false := by
  have hrange := isHandleLetter_range h
  simp only [isWhitespace, Bool.or_eq_false_iff, Bool.and_eq_false_iff, decide_eq_false_iff_not, beq_eq_false_iff_ne]
  omega

theorem isHandleLetter_ascii {c : Char} (h : isHandleLetter c = true) : c.toNat < 128 := by
  have hrange := isHandleLetter_range h
  omega

theorem isHandleLetter_of_range {c : Char} (h : 97 ≤ c.toNat ∧ c.toNat ≤ 122) : isHandleLetter c = true := by
  have hlower : c.isLower = true := by
    unfold Char.isLower
    exact Bool.and_eq_true_iff.2 ⟨decide_eq_true h.1, decide_eq_true h.2⟩
  unfold isHandleLetter Char.isAlphanum Char.isAlpha
  simp [hlower]

theorem isHandleLetter_toLower {c : Char} (h : isHandleLetter c = true) : isHandleLetter c.toLower = true := by
  rcases toLower_shift c with ⟨-, hsame⟩ | ⟨hrange, hlower⟩
  · rwa [hsame]
  · exact isHandleLetter_of_range (by omega)

theorem toLower_toLower (c : Char) : c.toLower.toLower = c.toLower := by
  rcases toLower_shift c with ⟨-, hsame⟩ | ⟨hrange, hlower⟩
  · rw [hsame, hsame]
  · rcases toLower_shift c.toLower with ⟨-, hsame⟩ | ⟨hrange', -⟩
    · exact hsame
    · omega

theorem asciiLowercase_asciiLowercase (cs : List Char) : asciiLowercase (asciiLowercase cs) = asciiLowercase cs := by
  unfold asciiLowercase
  rw [List.map_map]
  exact List.map_congr_left fun c _ => toLower_toLower c

variable {toLowercase : String → String}

/-- A text of handle letters is trimmed and lowered to its ASCII lower case. -/
theorem toLowercase_trim (hlower : LowersAscii toLowercase) {s : String} (h : ∀ c ∈ s.toList, isHandleLetter c = true) :
    toLowercase (trim s) = String.ofList (asciiLowercase s.toList) := by
  rw [trim_of_not_isWhitespace fun c hc => not_isWhitespace_of_isHandleLetter (h c hc), ← String.toList_inj,
    hlower s fun c hc => isHandleLetter_ascii (h c hc), String.toList_ofList]

/-- What `normalizeHandle` lets through, by the handle it comes to. -/
theorem normalizeHandle_iff {raw handle : String} :
    normalizeHandle toLowercase raw = .ok handle ↔ toLowercase (trim raw) = handle ∧
      (handleMinLen ≤ handle.length ∧ handle.length ≤ handleMaxLen) ∧ (∀ c ∈ handle.toList, isHandleLetter c = true) ∧
        handle.toList.head? ≠ some '.' ∧ handle.toList.getLast? ≠ some '.' := by
  unfold normalizeHandle
  simp only [refuse_eq_ok, Bool.or_eq_true, decide_eq_true_eq, not_or, not_lt, Bool.not_eq_true', Bool.not_eq_false]
  constructor
  · rintro ⟨hlength, hletters, hdots, ⟨⟩⟩
    exact ⟨rfl, hlength, List.all_eq_true.1 hletters, hdots⟩
  · rintro ⟨rfl, hlength, hletters, hdots⟩
    exact ⟨hlength, List.all_eq_true.2 hletters, hdots, rfl⟩

/-- The handles that `normalizeHandle` leaves alone. -/
theorem normalizeHandle_fixed_iff (hlower : LowersAscii toLowercase) (handle : String) :
    normalizeHandle toLowercase handle = .ok handle ↔ IsHandle handle.toList := by
  rw [normalizeHandle_iff]
  constructor
  · rintro ⟨hfixed, hlength, hletters, hfirst, hlast⟩
    refine ⟨hlength.1, hlength.2, hletters, ?_, hfirst, hlast⟩
    rw [toLowercase_trim hlower hletters] at hfixed
    have hlist := congrArg String.toList hfixed
    rwa [String.toList_ofList] at hlist
  · intro h
    refine ⟨?_, ⟨h.least, h.most⟩, h.letters, h.first, h.last⟩
    rw [toLowercase_trim hlower h.letters, h.lower, String.ofList_toList]

/-! ## The runs of a text -/

/-- An `@` that begins a word of the text, and all the handle characters after it. -/
def IsRun (text run : List Char) : Prop :=
  ∃ before after, text = before ++ '@' :: (run ++ after) ∧ before.getLast?.any isHandleChar = false ∧
    (∀ c ∈ run, isHandleChar c = true) ∧ after.head?.any isHandleChar = false

/-- The handle a run writes: its lower case, without the full stops at its end. -/
def handleIn (run : List Char) : List Char := asciiLowercase (run.rdropWhile (· == '.'))

/-- Whom a run mentions. -/
def mentionOf (run : List Char) : Option Mention :=
  if (handleIn run).isEmpty then none
  else if handleIn run = "everyone".toList then some .everyone
  else some (.user (String.ofList (handleIn run)))

theorem mentionAt_eq (rest : List Char) : mentionAt rest = mentionOf (rest.takeWhile isHandleChar) := rfl

/-- The run at the beginning of a text. -/
theorem takeWhile_run {run after : List Char} (hrun : ∀ c ∈ run, isHandleChar c = true)
    (hafter : after.head?.any isHandleChar = false) : (run ++ after).takeWhile isHandleChar = run := by
  rw [List.takeWhile_append_of_pos hrun]
  rcases after with _ | ⟨c, after⟩
  · rw [List.takeWhile_nil, List.append_nil]
  · rw [List.head?_cons, Option.any_some] at hafter
    rw [List.takeWhile_cons_of_neg (by simp [hafter]), List.append_nil]

/-- A mention found from a place on belongs to an `@` that begins a word there. -/
theorem mem_mentionsFrom_iff {m : Mention} {previous : Option Char} {text : List Char} :
    m ∈ mentionsFrom previous text ↔ ∃ before after, text = before ++ '@' :: after ∧
      (before.getLast?.or previous).any isHandleChar = false ∧ mentionAt after = some m := by
  induction text generalizing previous with
  | nil => simp [mentionsFrom]
  | cons c rest ih =>
    rw [mentionsFrom, List.mem_append, ih]
    constructor
    · rintro (hhere | ⟨before, after, rfl, hbefore, hmention⟩)
      · split at hhere
        · rename_i hstart
          obtain ⟨rfl, hprevious⟩ := hstart
          exact ⟨[], rest, rfl, Bool.eq_false_iff.2 hprevious, by simpa using hhere⟩
        · cases hhere
      · refine ⟨c :: before, after, rfl, ?_, hmention⟩
        rcases before.eq_nil_or_concat with rfl | ⟨init, d, rfl⟩
        · simpa using hbefore
        · simpa [List.getLast?_cons] using hbefore
    · rintro ⟨before, after, htext, hbefore, hmention⟩
      rcases before with _ | ⟨d, before⟩
      · obtain ⟨rfl, rfl⟩ := List.cons.inj htext
        refine .inl ?_
        rw [if_pos ⟨rfl, Bool.eq_false_iff.1 hbefore⟩, hmention]
        exact List.mem_singleton.2 rfl
      · obtain ⟨rfl, rfl⟩ := List.cons.inj htext
        refine .inr ⟨before, after, rfl, ?_, hmention⟩
        rcases before.eq_nil_or_concat with rfl | ⟨init, d, rfl⟩
        · simpa using hbefore
        · simpa [List.getLast?_cons] using hbefore

/-- The mentions of a text are those of its runs. -/
theorem mem_parseMentions_iff {m : Mention} {content : String} :
    m ∈ parseMentions content ↔ ∃ run, IsRun content.toList run ∧ mentionOf run = some m := by
  unfold parseMentions
  rw [List.mem_insertionSort, List.mem_dedup, mem_mentionsFrom_iff]
  constructor
  · rintro ⟨before, after, htext, hbefore, hmention⟩
    rw [Option.or_none] at hbefore
    refine ⟨after.takeWhile isHandleChar, ⟨before, after.dropWhile isHandleChar, ?_, hbefore, ?_, ?_⟩, ?_⟩
    · rw [List.takeWhile_append_dropWhile, htext]
    · exact fun c hc => List.mem_takeWhile_imp hc
    · have hhead := List.head?_dropWhile_not isHandleChar after
      rcases hrest : after.dropWhile isHandleChar with _ | ⟨c, rest⟩
      · rfl
      · rw [hrest] at hhead
        simpa using hhead
    · rw [← mentionAt_eq, hmention]
  · rintro ⟨run, ⟨before, after, htext, hbefore, hrun, hafter⟩, hmention⟩
    refine ⟨before, run ++ after, htext, ?_, ?_⟩
    · rwa [Option.or_none]
    · rw [mentionAt_eq, takeWhile_run hrun hafter, hmention]

theorem nodup_parseMentions (content : String) : (parseMentions content).Nodup :=
  (List.perm_insertionSort _ _).nodup_iff.2 (List.nodup_dedup _)

/-! ## What a mention is of -/

theorem mentionOf_user {run : List Char} {handle : String} :
    mentionOf run = some (.user handle) ↔
      handleIn run = handle.toList ∧ handle.toList ≠ [] ∧ handle.toList ≠ "everyone".toList := by
  unfold mentionOf
  by_cases hempty : (handleIn run).isEmpty = true
  · rw [if_pos hempty]
    rw [List.isEmpty_iff] at hempty
    refine iff_of_false (fun h => by cases h) ?_
    rintro ⟨heq, hne, -⟩
    exact hne (heq ▸ hempty)
  · rw [if_neg hempty]
    rw [List.isEmpty_iff] at hempty
    by_cases heveryone : handleIn run = "everyone".toList
    · rw [if_pos heveryone]
      refine iff_of_false (fun h => by cases h) ?_
      rintro ⟨heq, -, hne⟩
      exact hne (heq ▸ heveryone)
    · rw [if_neg heveryone]
      constructor
      · intro h
        cases h
        rw [String.toList_ofList]
        exact ⟨rfl, hempty, heveryone⟩
      · rintro ⟨heq, -, -⟩
        rw [heq, String.ofList_toList]

theorem mentionOf_everyone {run : List Char} : mentionOf run = some .everyone ↔ handleIn run = "everyone".toList := by
  unfold mentionOf
  by_cases hempty : (handleIn run).isEmpty = true
  · rw [if_pos hempty]
    refine iff_of_false (fun h => by cases h) fun heveryone => ?_
    rw [heveryone] at hempty
    cases hempty
  · rw [if_neg hempty]
    by_cases heveryone : handleIn run = "everyone".toList
    · rw [if_pos heveryone]
      exact iff_of_true rfl heveryone
    · rw [if_neg heveryone]
      exact iff_of_false (fun h => by cases h) heveryone

/-- The mention of a handle that is written as it is stored. -/
def mentionNamed (handle : String) : Mention := if handle = "everyone" then .everyone else .user handle

/-- A handle written as it is stored is read as it is written. -/
theorem handleIn_of_isHandle {handle : List Char} (h : IsHandle handle) : handleIn handle = handle := by
  have hright : handle.rdropWhile (· == '.') = handle := by
    rw [List.rdropWhile_eq_self_iff]
    intro hne hdot
    refine h.last ?_
    rw [List.getLast?_eq_getLast_of_ne_nil hne, eq_of_beq hdot]
  rw [handleIn, hright, h.lower]

theorem mentionOf_handle {handle : String} (h : IsHandle handle.toList) : mentionOf handle.toList = some (mentionNamed handle) := by
  unfold mentionNamed
  by_cases heveryone : handle = "everyone"
  · rw [if_pos heveryone, mentionOf_everyone, handleIn_of_isHandle h, heveryone]
  · rw [if_neg heveryone, mentionOf_user]
    refine ⟨handleIn_of_isHandle h, fun hnil => ?_, fun heq => heveryone (String.toList_inj.1 heq)⟩
    have hleast := h.least
    rw [hnil] at hleast
    exact absurd hleast (by decide)

/-- What a run writes has handle letters in lower case, and no full stop at its end. -/
theorem handleIn_letters {run : List Char} (h : ∀ c ∈ run, isHandleChar c = true) :
    (∀ c ∈ handleIn run, isHandleLetter c = true) ∧ asciiLowercase (handleIn run) = handleIn run ∧
      (handleIn run).getLast? ≠ some '.' := by
  refine ⟨fun c hc => ?_, asciiLowercase_asciiLowercase _, fun hlast => ?_⟩
  · obtain ⟨d, hd, rfl⟩ := List.mem_map.1 hc
    exact isHandleLetter_toLower (h d ((List.rdropWhile_prefix _ _).mem hd))
  · rw [handleIn, asciiLowercase, List.getLast?_map, Option.map_eq_some_iff] at hlast
    obtain ⟨d, hd, hdot⟩ := hlast
    obtain ⟨hne, rfl⟩ := List.mem_getLast?_eq_getLast hd
    refine List.rdropWhile_last_not _ _ hne (beq_iff_eq.2 ?_)
    rcases toLower_shift ((run.rdropWhile (· == '.')).getLast hne) with ⟨-, hsame⟩ | ⟨hrange, hlower⟩
    · rw [← hsame, hdot]
    · rw [hdot] at hlower
      exact absurd hlower (by change ¬46 = _; omega)

/-! ## What the scanner takes -/

/-- The scanner reads exactly the mentions of the runs, each once: every handle that stands between other characters,
nothing within a word, and only handles. -/
structure ParsesMentions (toLowercase : String → String) (content : String) : Prop where
  exact : ∀ m, m ∈ parseMentions content ↔ ∃ run, IsRun content.toList run ∧ mentionOf run = some m
  once : ∀ m ∈ parseMentions content, (parseMentions content).count m = 1
  everyHandle : ∀ handle, normalizeHandle toLowercase handle = .ok handle → IsRun content.toList handle.toList →
    mentionNamed handle ∈ parseMentions content
  insideWords : (∀ before after, content.toList = before ++ '@' :: after → before.getLast?.any isHandleChar = true) →
    parseMentions content = []
  handles : ∀ handle, .user handle ∈ parseMentions content → normalizeHandle toLowercase handle = .ok handle

/-- Does a run write a handle, or `everyone`, or nothing? -/
def WritesHandle (run : List Char) : Prop :=
  handleIn run = [] ∨ handleIn run = "everyone".toList ∨
    ((handleMinLen ≤ (handleIn run).length ∧ (handleIn run).length ≤ handleMaxLen) ∧ (handleIn run).head? ≠ some '.')

/-- Whom the runs of a text mention has a handle exactly if every run writes one. -/
theorem mentions_are_handles_iff (hlower : LowersAscii toLowercase) (content : String) :
    (∀ handle, .user handle ∈ parseMentions content → normalizeHandle toLowercase handle = .ok handle) ↔
      ∀ run, IsRun content.toList run → WritesHandle run := by
  constructor
  · intro h run hrun
    by_cases hempty : handleIn run = []
    · exact .inl hempty
    by_cases heveryone : handleIn run = "everyone".toList
    · exact .inr (.inl heveryone)
    have hmention : mentionOf run = some (.user (String.ofList (handleIn run))) := by
      rw [mentionOf_user, String.toList_ofList]
      exact ⟨rfl, hempty, heveryone⟩
    have hfixed := h _ (mem_parseMentions_iff.2 ⟨run, hrun, hmention⟩)
    rw [normalizeHandle_fixed_iff hlower, String.toList_ofList] at hfixed
    exact .inr (.inr ⟨⟨hfixed.least, hfixed.most⟩, hfixed.first⟩)
  · intro h handle hmem
    obtain ⟨run, hrun, hmention⟩ := mem_parseMentions_iff.1 hmem
    obtain ⟨hhandle, hne, hnotEveryone⟩ := mentionOf_user.1 hmention
    rw [normalizeHandle_fixed_iff hlower, ← hhandle]
    rw [← hhandle] at hne hnotEveryone
    obtain ⟨hlength, hfirst⟩ := ((h run hrun).resolve_left hne).resolve_left hnotEveryone
    obtain ⟨_, _, _, _, hchars, _⟩ := hrun
    obtain ⟨hletters, hlowercase, hlast⟩ := handleIn_letters hchars
    exact ⟨hlength.1, hlength.2, hletters, hlowercase, hfirst, hlast⟩

/-- The scanner agrees with the grammar of handles on a text exactly if every run of the text writes a handle, or `everyone`,
or nothing. -/
theorem parsesMentions_iff (hlower : LowersAscii toLowercase) (content : String) :
    ParsesMentions toLowercase content ↔ ∀ run, IsRun content.toList run → WritesHandle run := by
  rw [← mentions_are_handles_iff hlower]
  constructor
  · exact fun h => h.handles
  · intro hhandles
    refine ⟨fun m => mem_parseMentions_iff, fun m hm => ?_, fun handle hfixed hrun => ?_, fun hinside => ?_, hhandles⟩
    · exact List.count_eq_one_of_mem (nodup_parseMentions content) hm
    · rw [normalizeHandle_fixed_iff hlower] at hfixed
      exact mem_parseMentions_iff.2 ⟨_, hrun, mentionOf_handle hfixed⟩
    · refine List.eq_nil_iff_forall_not_mem.2 fun m hm => ?_
      obtain ⟨run, ⟨before, after, htext, hbefore, -⟩, -⟩ := mem_parseMentions_iff.1 hm
      rw [hinside before _ htext] at hbefore
      cases hbefore

/-- The lower case of ASCII texts. -/
def lowerAscii (s : String) : String := String.ofList (asciiLowercase s.toList)

theorem lowersAscii_lowerAscii : LowersAscii lowerAscii := by
  intro s _
  rw [lowerAscii, String.toList_ofList]

/-- A text with a mention, an address and a full stop. -/
theorem parsesMentions_plain : ParsesMentions lowerAscii "ask @Ana, not ana@example.com" := by
  have hparse : parseMentions "ask @Ana, not ana@example.com" = [.user "ana"] := by decide +kernel
  refine (parsesMentions_iff lowersAscii_lowerAscii _).2 ((mentions_are_handles_iff lowersAscii_lowerAscii _).1 ?_)
  intro handle hmem
  rw [hparse, List.mem_singleton] at hmem
  cases hmem
  decide +kernel

/-- Two letters are no handle, and the scanner takes them for one. -/
theorem not_parsesMentions : ¬ParsesMentions lowerAscii "@ab" := by
  intro h
  have hfixed := h.handles "ab" (by decide +kernel)
  exact absurd hfixed (by decide +kernel)

end Genzh.Domain
