/-
The client's scan for shortcodes, over code units, and the server's, over characters: they find the same names in the
same order.
-/
import Genzh.Client.Text
import Genzh.Messaging.Reactions

namespace Genzh.Client

open Genzh.Lib Genzh.Domain

def emojiNameMinLen : Nat := 2
def emojiNameMaxLen : Nat := 32

/-- `/[A-Za-z0-9_]/` -/
def isNameChar (v : UInt16) : Bool :=
  (units "ABCDEFGHIJKLMNOPQRSTUVWXYZabcdefghijklmnopqrstuvwxyz0123456789_").contains v

/-- `/^\d+$/` -/
def isNumber (candidate : JsString) : Bool := !candidate.isEmpty && candidate.all (units "0123456789").contains

/-- The scan from here on, given what has been found. -/
def shortcodesFrom (toLowerCase : JsString → JsString) (found : List JsString) : JsString → List JsString
  | [] => found
  | v :: rest =>
    if v ≠ unit ':' then shortcodesFrom toLowerCase found rest
    else
      let candidate := (rest.takeWhile isNameChar).take emojiNameMaxLen
      if (rest.drop candidate.length).head? = some (unit ':') ∧ emojiNameMinLen ≤ candidate.length ∧ isNumber candidate = false then
        let name := toLowerCase candidate
        -- the scan resumes at the closing colon
        shortcodesFrom toLowerCase (if name ∈ found then found else found ++ [name]) (rest.drop candidate.length)
      else shortcodesFrom toLowerCase found rest
termination_by u => u.length

/-- Every distinct shortcode named in the content, lower-cased. -/
def parseShortcodes (engine : Engine) (content : JsString) : List JsString := shortcodesFrom engine.toLowerCase [] content

/-! ## Letters -/

theorem isNameChar_letter (c : Char) (v : UInt16) (h : asciiUnit c = some v) : isNameChar v = Messaging.isNameChar c := by
  obtain ⟨hc, rfl⟩ := asciiUnit_some h
  exact ascii_cases (P := fun c => isNameChar (unit c) = Messaging.isNameChar c) (by decide +kernel) hc

theorem isNameChar_ascii {c : Char} (h : Messaging.isNameChar c = true) : c.toNat < 128 := by
  unfold Messaging.isNameChar at h
  rw [Bool.or_eq_true, beq_iff_eq] at h
  rcases h with h | rfl
  · exact isAlphanum_ascii h
  · decide

theorem isNameChar_other (c : Char) (h : asciiUnit c = none) : Messaging.isNameChar c = false := by
  have hge := asciiUnit_none h
  by_contra hname
  have hlt := isNameChar_ascii (Bool.not_eq_false _ ▸ hname)
  omega

theorem isNameChar_foreign (v : UInt16) (h : Foreign v) : isNameChar v = false := contains_foreign (by decide +kernel) h

theorem isDigit_unit {c : Char} (hc : c.toNat < 128) : (units "0123456789").contains (unit c) = c.isDigit :=
  ascii_cases (P := fun c => (units "0123456789").contains (unit c) = c.isDigit) (by decide +kernel) hc

/-! ## The scans agree -/

section Scan

variable {engine : Engine} {toLowercase : String → String} {found : List String} {l : List Char} {u : JsString}

/-- Neither scan looks at what is no colon. -/
theorem shortcodesFrom_skip {toLowerCase : JsString → JsString} {found : List JsString} {vs : JsString}
    (h : ∀ v ∈ vs, v ≠ unit ':') : shortcodesFrom toLowerCase found (vs ++ u) = shortcodesFrom toLowerCase found u := by
  induction vs with
  | nil => rfl
  | cons v vs ih =>
    rw [List.cons_append, shortcodesFrom, if_pos (h v List.mem_cons_self)]
    exact ih fun w hw => h w (List.mem_cons_of_mem _ hw)

theorem isNumber_utf16 {w : List Char} (hascii : ∀ c ∈ w, isAscii c = true) (hne : w ≠ []) :
    isNumber (utf16 w) = w.all Char.isDigit := by
  have hempty : (w.map unit).isEmpty = false := by
    rw [List.isEmpty_eq_false_iff]
    exact fun h => hne (List.map_eq_nil_iff.1 h)
  unfold isNumber
  rw [utf16_ascii hascii, hempty, List.all_map, Bool.not_false, Bool.true_and, Bool.eq_iff_iff, List.all_eq_true, List.all_eq_true]
  refine forall₂_congr fun c hc => ?_
  rw [← isDigit_unit (of_decide_eq_true (hascii c hc))]
  rfl

/-- Lowering an ASCII name. -/
theorem lower_name (hengine : engine.Conforms) (hserver : Lowers toLowercase) {w : List Char}
    (hascii : ∀ c ∈ w, isAscii c = true) :
    engine.toLowerCase (utf16 w) = utf16 (toLowercase (String.ofList w)).toList := by
  have hs := (hserver (String.ofList w)).ascii (by rwa [String.toList_ofList])
  rw [hengine.lower_ascii hascii, hs, String.toList_ofList]

/-- The name after a colon, and what is left of either text. -/
theorem candidate_agree {rest : List Char} (h : Recodes asciiUnit Foreign rest u) :
    let candidate := (rest.takeWhile Messaging.isNameChar).take Messaging.emojiNameMaxLen
    (u.takeWhile isNameChar).take emojiNameMaxLen = utf16 candidate ∧
    (∀ c ∈ candidate, isAscii c = true) ∧ (utf16 candidate).length = candidate.length ∧
    Recodes asciiUnit Foreign (rest.drop candidate.length) (u.drop candidate.length) := by
  intro candidate
  obtain ⟨hrun, hsome⟩ := h.takeWhile (p := Messaging.isNameChar) (q := isNameChar) isNameChar_letter isNameChar_other isNameChar_foreign
  have hmem : ∀ c ∈ candidate, (asciiUnit c).isSome = true := fun c hc => hsome c (List.mem_of_mem_take hc)
  have hascii : ∀ c ∈ candidate, isAscii c = true := by
    intro c hc
    obtain ⟨v, hv⟩ := Option.isSome_iff_exists.1 (hmem c hc)
    exact decide_eq_true (asciiUnit_some hv).1
  have hlength : (utf16 candidate).length = candidate.length := by rw [utf16_ascii hascii, List.length_map]
  have hall : ∀ c ∈ rest.takeWhile Messaging.isNameChar, isAscii c = true := by
    intro c hc
    obtain ⟨v, hv⟩ := Option.isSome_iff_exists.1 (hsome c hc)
    exact decide_eq_true (asciiUnit_some hv).1
  refine ⟨?_, hascii, hlength, ?_⟩
  · rw [hrun, filterMap_asciiUnit hsome, utf16_ascii hall, utf16_ascii hascii, List.map_take]
    rfl
  · have hprefix : candidate ++ rest.drop candidate.length = rest := by
      have hpre : candidate <+: rest := (List.take_prefix _ _).trans (List.takeWhile_prefix _)
      exact List.prefix_iff_eq_append.1 hpre
    rw [← hprefix] at h
    obtain ⟨v, rfl, hv⟩ := h.append hmem
    have hdrop : (utf16 candidate ++ v).drop candidate.length = v := by rw [← hlength, List.drop_left]
    rw [filterMap_asciiUnit hmem, hdrop]
    exact hv

/-- What stands after a colon is a shortcode to both or to neither. -/
theorem accepted_agree {rest : List Char} (h : Recodes asciiUnit Foreign rest u) :
    let candidate := (rest.takeWhile Messaging.isNameChar).take Messaging.emojiNameMaxLen
    ((u.drop candidate.length).head? = some (unit ':') ∧ emojiNameMinLen ≤ candidate.length ∧ isNumber (utf16 candidate) = false) ↔
      (rest.drop candidate.length).head? = some ':' ∧ Messaging.emojiNameMinLen ≤ candidate.length ∧
        candidate.all Char.isDigit = false := by
  intro candidate
  obtain ⟨-, hascii, -, hleft⟩ := candidate_agree h
  have hhead := hleft.head asciiUnit_faithful (a := ':') (b := unit ':') rfl (by unfold Foreign; decide)
  refine and_congr hhead ?_
  refine and_congr_right fun hmin => ?_
  have hne : candidate ≠ [] := by
    intro hnil
    rw [hnil] at hmin
    cases hmin
  rw [isNumber_utf16 hascii hne]

/-- Adding to a list what it does not have yet, on either side of an injection. -/
theorem map_add {α β : Type} {f : α → β} (hf : Function.Injective f) {a : α} {l : List α} [Decidable (a ∈ l)]
    [Decidable (f a ∈ l.map f)] :
    (if f a ∈ l.map f then l.map f else l.map f ++ [f a]) = (if a ∈ l then l else l ++ [a]).map f := by
  by_cases ha : a ∈ l
  · rw [if_pos ha, if_pos (List.mem_map_of_mem ha)]
  · rw [if_neg ha, if_neg fun h => ha ((List.mem_map_of_injective hf).1 h), List.map_append]
    rfl

/-- Both scans take the same names from a text, in the same order. -/
theorem shortcodesFrom_agree (hengine : engine.Conforms) (hserver : Lowers toLowercase) (h : Recodes asciiUnit Foreign l u)
    (found : List String) : shortcodesFrom engine.toLowerCase (found.map fun name => utf16 name.toList) u =
      (Messaging.shortcodesFrom toLowercase found l).map fun name => utf16 name.toList := by
  have hcolon : asciiUnit ':' = some (unit ':') := rfl
  have hnative : ¬ Foreign (unit ':') := by
    unfold Foreign
    decide
  have hinj : Function.Injective fun name : String => utf16 name.toList := fun a b hab => String.toList_inj.1 (utf16_injective hab)
  fun_induction Messaging.shortcodesFrom toLowercase found l generalizing u with
  | case1 found =>
    cases h
    rw [shortcodesFrom]
  | case2 found c rest hc ih =>
    -- what is no colon to the server is no colon to the client, however many units it takes
    cases h with
    | @letter _ v _ u hv h =>
      have hne : v ≠ unit ':' := fun heq => hc (asciiUnit_faithful c ':' v hv (heq ▸ hcolon))
      rw [shortcodesFrom, if_pos hne]
      exact ih h
    | @other _ vs _ u _ _ hvs h =>
      rw [shortcodesFrom_skip fun v hv heq => hnative (heq ▸ hvs v hv)]
      exact ih h
  | case3 =>
    rename_i found c rest hc candidate digitsOnly haccepted name ih
    obtain rfl := not_not.1 hc
    cases h with
    | @letter _ v _ u hv h =>
      cases hcolon.symm.trans hv
      obtain ⟨hcandidate, hascii, hlength, hleft⟩ := candidate_agree h
      have hname : engine.toLowerCase (utf16 candidate) = utf16 name.toList := lower_name hengine hserver hascii
      have hfound := map_add hinj (a := name) (l := found)
      rw [shortcodesFrom, if_neg (by simp)]
      simp only [hcandidate, hlength]
      rw [if_pos ((accepted_agree h).2 haccepted), hname, hfound]
      simp only [dite_eq_ite] at ih
      exact ih hleft
    | other hv =>
      rw [hcolon] at hv
      cases hv
  | case4 =>
    rename_i found c rest hc candidate digitsOnly haccepted ih
    obtain rfl := not_not.1 hc
    cases h with
    | @letter _ v _ u hv h =>
      cases hcolon.symm.trans hv
      obtain ⟨hcandidate, -, hlength, -⟩ := candidate_agree h
      rw [shortcodesFrom, if_neg (by simp)]
      simp only [hcandidate, hlength]
      rw [if_neg fun haccept => haccepted ((accepted_agree h).1 haccept)]
      exact ih h
    | other hv =>
      rw [hcolon] at hv
      cases hv

theorem parseShortcodes_agree (hengine : engine.Conforms) (hserver : Lowers toLowercase) (content : String) :
    parseShortcodes engine (utf16 content.toList) =
      (Messaging.parseShortcodes toLowercase content).map fun name => utf16 name.toList :=
  shortcodesFrom_agree hengine hserver (recodes_utf16 content.toList) []

end Scan

end Genzh.Client
