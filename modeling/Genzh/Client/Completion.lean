/-
Completing a mention in the composer: the `@` run that the caret stands in, and the text with that run replaced by a
handle. The run is found by the client's rules over code units; whether the handle that stands there afterwards is
mentioned is up to the server's scan of the text.
-/
import Genzh.Client.Mentions
import Genzh.Client.Recognisers
import Genzh.Domain.Mentions

namespace Genzh.Client

open Genzh.Lib Genzh.Domain

/-- How far back from the caret to look for the opening `@`. -/
def maxQuery : Nat := 32

/-- The `@` run the caret is sitting in: the `@`, the caret, and what has been typed in between. -/
structure MentionQuery where
  start : Nat
  stop : Nat
  text : JsString
  deriving DecidableEq, Repr

/-- The search from an index backwards. -/
def findFrom (engine : Engine) (text : JsString) (caret : Nat) : Nat → Option MentionQuery
  | 0 => none
  | index + 1 =>
    if maxQuery < caret - (index + 1) then none
    else
      match text[index]? with
      | none => none
      | some char =>
        if char = unit '@' then
          -- an `@` within a word opens nothing
          if 0 < index ∧ (text[index - 1]?).any (isHandleUnit engine) = true then none
          else some { start := index, stop := caret, text := slice text (index + 1) caret }
        else if isHandleUnit engine char then findFrom engine text caret index
        else none

/-- The mention being typed at the caret, if any. -/
def findMentionQuery (engine : Engine) (text : JsString) (caret : Nat) : Option MentionQuery := findFrom engine text caret caret

/-- A new text, and where the caret belongs in it. -/
structure Completion where
  text : JsString
  caret : Nat
  deriving DecidableEq, Repr

/-- Replace the `@` run with a completed mention. -/
def applyMention (text : JsString) (query : MentionQuery) (handle : JsString) : Completion :=
  let spaced := text[query.stop]? = some (unit ' ')
  let inserted := unit '@' :: (handle ++ if spaced then [] else [unit ' '])
  { text := slice text 0 query.start ++ inserted ++ text.drop query.stop
    caret := query.start + inserted.length + if spaced then 1 else 0 }

/-! ## What the search finds -/

section Find

variable {engine : Engine} {text : JsString} {caret index : Nat} {query : MentionQuery}

/-- The run that was found, in the text: what precedes the `@` is no handle character. -/
structure Found (engine : Engine) (text : JsString) (caret : Nat) (query : MentionQuery) : Prop where
  stop : query.stop = caret
  inside : query.start < caret
  opens : text[query.start]? = some (unit '@')
  begins : 0 < query.start → (text[query.start - 1]?).any (isHandleUnit engine) = false
  typed : ∀ i, query.start < i → i < caret → (text[i]?).any (isHandleUnit engine) = true
  text_eq : query.text = slice text (query.start + 1) caret

theorem findFrom_found (h : findFrom engine text caret index = some query) (hle : index ≤ caret)
    (hrun : ∀ i, index ≤ i → i < caret → (text[i]?).any (isHandleUnit engine) = true) : Found engine text caret query := by
  induction index with
  | zero => cases h
  | succ index ih =>
    rw [findFrom] at h
    split at h
    · cases h
    split at h
    · cases h
    rename_i char hchar
    split at h
    · rename_i hat
      split at h
      · cases h
      · rename_i hbefore
        cases h
        refine ⟨rfl, hle, hat ▸ hchar, fun hpos => ?_, hrun, rfl⟩
        rw [← Bool.not_eq_true]
        exact fun hany => hbefore ⟨hpos, hany⟩
    · split at h
      · rename_i hhandle
        -- the run grows by the unit that was passed
        refine ih h (Nat.le_of_succ_le hle) fun i hi hlt => ?_
        rcases Nat.eq_or_lt_of_le hi with rfl | hi
        · rw [hchar]
          exact hhandle
        · exact hrun i hi hlt
      · cases h

theorem findMentionQuery_found (h : findMentionQuery engine text caret = some query) : Found engine text caret query :=
  findFrom_found h le_rfl fun _ hle hlt => absurd hlt (not_lt.2 hle)

theorem Found.le_length (h : Found engine text caret query) : caret ≤ text.length := by
  have hlast : (text[caret - 1]?).isSome = true := by
    have hinside := h.inside
    rcases Nat.eq_or_lt_of_le (show query.start ≤ caret - 1 by omega) with heq | hlt
    · rw [← heq, h.opens]
      rfl
    · have htyped := h.typed (caret - 1) hlt (by omega)
      rcases hget : text[caret - 1]? with _ | v
      · rw [hget] at htyped
        cases htyped
      · rfl
  rw [Option.isSome_iff_exists] at hlast
  obtain ⟨v, hv⟩ := hlast
  have hlt := (List.getElem?_eq_some_iff.1 hv).1
  have hinside := h.inside
  omega

/-- The text is what precedes the run, the run, and what follows the caret. -/
theorem Found.text_split (h : Found engine text caret query) :
    text = text.take query.start ++ unit '@' :: (query.text ++ text.drop caret) := by
  have hinside := h.inside
  obtain ⟨hlt, hget⟩ := List.getElem?_eq_some_iff.1 h.opens
  have hrest : query.text ++ text.drop caret = text.drop (query.start + 1) := by
    have hdrop : text.drop caret = (text.drop (query.start + 1)).drop (caret - (query.start + 1)) := by
      rw [List.drop_drop, Nat.add_sub_cancel' hinside]
    rw [h.text_eq, slice, hdrop, List.take_append_drop]
  rw [hrest, ← hget, ← List.drop_eq_getElem_cons hlt, List.take_append_drop]

theorem Found.mem_text (h : Found engine text caret query) {v : UInt16} (hv : v ∈ query.text) : isHandleUnit engine v = true := by
  rw [h.text_eq, slice] at hv
  obtain ⟨i, hi, rfl⟩ := List.mem_iff_getElem.1 hv
  rw [List.length_take, List.length_drop] at hi
  have htyped := h.typed (query.start + 1 + i) (by omega) (by omega)
  rw [List.getElem?_eq_getElem (by omega)] at htyped
  rwa [List.getElem_take, List.getElem_drop]

end Find

/-! ## What the completion is -/

/-- The mention of a stored handle stands where the run stood: the rest of the text is what it was, up to a space after
the handle, the caret is past that space, and the server reads the mention. A draft that encodes a text becomes one that
does. -/
structure Completes (text : JsString) (query : MentionQuery) (handle : String) (completion : Completion) : Prop where
  encodes : ∀ draft : String, text = utf16 draft.toList → ∃ content : String, completion.text = utf16 content.toList
  mentioned : ∀ content : String, completion.text = utf16 content.toList → mentionNamed handle ∈ Domain.parseMentions content
  run : text = text.take query.start ++ unit '@' :: (query.text ++ text.drop query.stop)
  unchanged : ∃ space : JsString, (space = [] ∨ space = [unit ' ']) ∧ completion.text =
    text.take query.start ++ unit '@' :: (utf16 handle.toList ++ (space ++ text.drop query.stop))
  caret : completion.text.take completion.caret = text.take query.start ++ unit '@' :: (utf16 handle.toList ++ [unit ' ']) ∧
    completion.caret = query.start + 1 + handle.length + 1

section Apply

variable {engine : Engine} {text : JsString} {caret : Nat} {query : MentionQuery} {handle : String}

theorem utf16_handle (h : IsHandle handle.toList) :
    utf16 handle.toList = handle.toList.map unit ∧ (utf16 handle.toList).length = handle.length := by
  have hascii := utf16_ascii fun c hc => decide_eq_true (isHandleLetter_ascii (h.letters c hc))
  refine ⟨hascii, ?_⟩
  rw [hascii, List.length_map, String.length_toList]

theorem not_foreign_unit {c : Char} (h : c.toNat < 128) : ¬ Foreign (unit c) := by
  unfold Foreign
  rw [toNat_unit (by omega)]
  omega

/-- A handle unit is no foreign one. -/
theorem not_foreign_of_isHandleUnit (hengine : engine.Conforms) {v : UInt16} (h : isHandleUnit engine v = true) : ¬ Foreign v := by
  intro hv
  rw [isHandleUnit, inClass_foreign hengine (by decide) hv] at h
  cases h

/-- The new text: what precedes the run, the handle, a space, and what follows the caret, less the space it begins with. -/
theorem applyMention_text (text : JsString) (query : MentionQuery) (inserted : JsString) : ∃ rest,
    (applyMention text query inserted).text = text.take query.start ++ unit '@' :: (inserted ++ unit ' ' :: rest) ∧
    (text.drop query.stop = unit ' ' :: rest ∨ text.drop query.stop = rest) ∧
    (applyMention text query inserted).caret = query.start + 1 + inserted.length + 1 := by
  unfold applyMention slice
  by_cases hspaced : text[query.stop]? = some (unit ' ')
  · obtain ⟨hlt, hget⟩ := List.getElem?_eq_some_iff.1 hspaced
    have hdrop : text.drop query.stop = unit ' ' :: text.drop (query.stop + 1) := by
      rw [List.drop_eq_getElem_cons hlt, hget]
    refine ⟨text.drop (query.stop + 1), ?_, .inl hdrop, ?_⟩
    · simp only [if_pos hspaced, hdrop, List.drop_zero, Nat.sub_zero, List.append_nil, List.append_assoc, List.cons_append]
    · simp only [if_pos hspaced, List.append_nil, List.length_cons]
      omega
  · refine ⟨text.drop query.stop, ?_, .inr rfl, ?_⟩
    · simp only [if_neg hspaced, List.drop_zero, Nat.sub_zero, List.append_assoc, List.cons_append, List.nil_append]
    · simp only [if_neg hspaced, List.length_append, List.length_cons, List.length_nil]
      omega

/-- The text before the `@` ends in no handle character. -/
theorem Found.before (hengine : engine.Conforms) (h : Found engine text caret query) {l : List Char}
    (hl : utf16 l = text.take query.start) : l.getLast?.any isHandleChar = false := by
  rcases l.eq_nil_or_concat with rfl | ⟨init, c, rfl⟩
  · rfl
  rw [List.concat_eq_append, List.getLast?_concat, Option.any_some, ← Bool.not_eq_true]
  intro hc
  have hascii : c.toNat < 128 := isHandleChar_ascii hc
  have hlength : (text.take query.start).length = query.start := by
    rw [List.length_take]
    have hinside := h.inside
    have hle := h.le_length
    omega
  -- the unit of the character is the one the search looked at
  have hlast : (text.take query.start).getLast? = some (unit c) := by
    rw [← hl, List.concat_eq_append, utf16_append, utf16_ascii (l := [c]) (by simpa [isAscii] using hascii), List.map_singleton,
      List.getLast?_concat]
  rw [List.getLast?_eq_getElem?, hlength] at hlast
  have hpos : 0 < query.start := by
    rcases Nat.eq_zero_or_pos query.start with hzero | hpos
    · rw [hzero, List.take_zero] at hlast
      cases hlast
    · exact hpos
  rw [List.getElem?_take_of_lt (by omega)] at hlast
  have hbegins := h.begins hpos
  rw [hlast, Option.any_some, isHandleUnit_ascii hengine hascii, hc] at hbegins
  cases hbegins

/-- A draft that encodes a text is cut by the run at its characters. -/
theorem Found.encodes (hengine : engine.Conforms) (h : Found engine text caret query) {draft : List Char} (hdraft : text = utf16 draft) :
    ∃ l₁ l₂, utf16 l₁ = text.take query.start ∧ utf16 l₂ = text.drop caret := by
  have hat : ¬ Foreign (unit '@') := not_foreign_unit (by decide)
  obtain ⟨l₁, -, rest, -, hl₁, -, -, hrest⟩ := utf16_cut hat (hdraft.symm.trans h.text_split)
  -- behind the run it is cut after the last unit that was typed, which is no half of a pair
  rcases query.text.eq_nil_or_concat with hnil | ⟨init, v, hconcat⟩
  · exact ⟨l₁, rest, hl₁, by rw [hrest, hnil, List.nil_append]⟩
  · have hv : ¬ Foreign v := by
      refine not_foreign_of_isHandleUnit hengine (h.mem_text ?_)
      rw [hconcat, List.concat_eq_append]
      exact List.mem_append_right _ (List.mem_singleton.2 rfl)
    rw [hconcat, List.concat_eq_append, List.append_assoc, List.singleton_append] at hrest
    obtain ⟨-, -, l₂, -, -, -, -, hl₂⟩ := utf16_cut hv hrest
    exact ⟨l₁, l₂, hl₁, hl₂⟩

/-- The handle is a run of the new text. -/
theorem isRun_handle (hengine : engine.Conforms) (h : Found engine text caret query) (hhandle : IsHandle handle.toList)
    {content : List Char} {rest : JsString}
    (hcontent : utf16 content = text.take query.start ++ unit '@' :: (utf16 handle.toList ++ unit ' ' :: rest)) :
    IsRun content handle.toList := by
  -- the `@` and the space are characters of their own in whatever text is encoded
  obtain ⟨before, c, l, rfl, hbefore, hc, hat, hl⟩ := utf16_cut (not_foreign_unit (c := '@') (by decide)) hcontent
  obtain ⟨w, d, after, rfl, hw, hd, hspace, -⟩ := utf16_cut (not_foreign_unit (c := ' ') (by decide)) hl
  obtain rfl : c = '@' := asciiUnit_faithful c '@' (unit '@') (hat ▸ if_pos (decide_eq_true hc)) rfl
  obtain rfl : d = ' ' := asciiUnit_faithful d ' ' (unit ' ') (hspace ▸ if_pos (decide_eq_true hd)) rfl
  obtain rfl : w = handle.toList := utf16_injective hw
  exact ⟨before, ' ' :: after, rfl, h.before hengine hbefore, hhandle.letters, rfl⟩

end Apply

/-- Whatever the draft and the caret, and whatever handle is chosen: a run that is found is completed to a mention of it. -/
theorem applyMention_completes {engine : Engine} (hengine : engine.Conforms) {text : JsString} {caret : Nat}
    {query : MentionQuery} (hquery : findMentionQuery engine text caret = some query) {handle : String}
    (hhandle : IsHandle handle.toList) : Completes text query handle (applyMention text query (utf16 handle.toList)) := by
  have hfound := findMentionQuery_found hquery
  obtain ⟨rest, htext, hrest, hcaret⟩ := applyMention_text text query (utf16 handle.toList)
  obtain ⟨hascii, hlength⟩ := utf16_handle hhandle
  have hstart : (text.take query.start).length = query.start := by
    rw [List.length_take]
    have hinside := hfound.inside
    have hle := hfound.le_length
    omega
  constructor
  case encodes =>
    intro draft hdraft
    obtain ⟨l₁, l₂, hl₁, hl₂⟩ := hfound.encodes hengine hdraft
    rw [← hfound.stop] at hl₂
    have hat : utf16 ['@'] = [unit '@'] := rfl
    have hspace : utf16 [' '] = [unit ' '] := rfl
    rcases hrest with hspaced | hplain
    · refine ⟨String.ofList (l₁ ++ (['@'] ++ (handle.toList ++ l₂))), ?_⟩
      rw [String.toList_ofList, utf16_append, utf16_append, utf16_append, hl₁, hat, hl₂, hspaced, htext]
      rfl
    · refine ⟨String.ofList (l₁ ++ (['@'] ++ (handle.toList ++ ([' '] ++ l₂)))), ?_⟩
      rw [String.toList_ofList, utf16_append, utf16_append, utf16_append, utf16_append, hl₁, hat, hspace, hl₂, hplain, htext]
      rfl
  case mentioned =>
    intro content hcontent
    rw [htext] at hcontent
    exact mem_parseMentions_iff.2 ⟨_, isRun_handle hengine hfound hhandle hcontent.symm, mentionOf_handle hhandle⟩
  case run =>
    have hsplit := hfound.text_split
    rwa [← hfound.stop] at hsplit
  case unchanged =>
    rcases hrest with hspaced | hplain
    · exact ⟨[], .inl rfl, by rw [hspaced, htext]; rfl⟩
    · exact ⟨[unit ' '], .inr rfl, by rw [hplain, htext]; rfl⟩
  case caret =>
    rw [hlength] at hcaret
    refine ⟨?_, hcaret⟩
    have hall : (applyMention text query (utf16 handle.toList)).text =
        (text.take query.start ++ unit '@' :: (utf16 handle.toList ++ [unit ' '])) ++ rest := by
      rw [htext]
      simp only [List.append_assoc, List.cons_append, List.nil_append]
    have hat : (applyMention text query (utf16 handle.toList)).caret =
        (text.take query.start ++ unit '@' :: (utf16 handle.toList ++ [unit ' '])).length := by
      rw [hcaret, List.length_append, List.length_cons, List.length_append, hstart, hlength, List.length_singleton]
      omega
    rw [hall, hat, List.take_left]

/-- A mention completed in the middle of a sentence, where a space stands already. -/
theorem completed_ana : Completes (units "ask @an about it") ⟨4, 7, units "an"⟩ "ana"
    (applyMention (units "ask @an about it") ⟨4, 7, units "an"⟩ (utf16 "ana".toList)) := by
  have hquery : findMentionQuery tables (units "ask @an about it") 7 = some ⟨4, 7, units "an"⟩ := by decide +kernel
  have hhandle : IsHandle "ana".toList := (normalizeHandle_fixed_iff lowersAscii_lowerAscii "ana").1 (by decide +kernel)
  exact applyMention_completes tables_conform hquery hhandle

end Genzh.Client
