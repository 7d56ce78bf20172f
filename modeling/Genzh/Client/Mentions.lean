/-
The client's mentions, found by a regular expression over code units that ignores case, and the server's, found by a scan
over characters. The expression takes the character before the `@` with it, and goes on where its last match ended; the
server looks at every `@`, and at the character before it.
-/
import Genzh.Client.Text
import Genzh.Domain.Message
import Genzh.Lib.Regex

namespace Genzh.Client

open Genzh.Lib Genzh.Domain

/-! ## The expression -/

/-- `Canonicalize` of a matcher that ignores case: upper case, where it is one unit, and not an ASCII one for a unit
that is not. -/
def canonicalize (engine : Engine) (v : UInt16) : UInt16 :=
  match engine.toUppercase v with
  | [w] => if 128 ≤ v.toNat ∧ w.toNat < 128 then v else w
  | _ => v

/-- Is the unit in a class, case ignored? -/
def inClass (engine : Engine) (members : JsString) (v : UInt16) : Bool :=
  members.any fun w => canonicalize engine w == canonicalize engine v

/-- `@` -/
def isAt (engine : Engine) : UInt16 → Bool := inClass engine (units "@")

/-- `[^\w.]` -/
def isBreak (engine : Engine) (v : UInt16) : Bool :=
  !inClass engine (units "ABCDEFGHIJKLMNOPQRSTUVWXYZabcdefghijklmnopqrstuvwxyz0123456789_.") v

/-- `[a-z0-9_.]` -/
def isHandleUnit (engine : Engine) : UInt16 → Bool := inClass engine (units "abcdefghijklmnopqrstuvwxyz0123456789_.")

/-- `[a-z0-9_]` -/
def isLastUnit (engine : Engine) : UInt16 → Bool := inClass engine (units "abcdefghijklmnopqrstuvwxyz0123456789_")

/-- `@([a-z0-9_.]*[a-z0-9_])` -/
def atHandle (engine : Engine) : Regex UInt16 :=
  .seq (.one (isAt engine)) (.group (.seq (.star (isHandleUnit engine)) (.one (isLastUnit engine))))

/-- `/(^|[^\w.])@([a-z0-9_.]*[a-z0-9_])/gi` -/
def mention (engine : Engine) : Regex UInt16 := .seq (.group (.alt .start (.one (isBreak engine)))) (atHandle engine)

/-- What the second group captures, match by match. -/
def captures (engine : Engine) (index : Nat) (content : JsString) : List JsString :=
  ((mention engine).matchAll index content).filterMap (·.groups[1]?)

/-- Every distinct handle a message names, lower-cased, `everyone` included. -/
def parseMentions (engine : Engine) (content : JsString) : List JsString :=
  (captures engine 0 content).foldl (fun found handle =>
    if handle = [] then found
    else
      let lowered := engine.toLowerCase handle
      if lowered ∈ found then found else found ++ [lowered]) []

/-! ## What it matches -/

section Matches

variable {engine : Engine} {v w : UInt16} {u : JsString} {index : Nat}

/-- The handle a text begins with: the longest run of its characters, less the full stops at its end. -/
def handleUnits (engine : Engine) (u : JsString) : JsString :=
  (u.takeWhile (isHandleUnit engine)).rdropWhile fun v => !isLastUnit engine v

/-- The text begins with an `@` and a handle. -/
def Opens (engine : Engine) (u : JsString) : Prop := u.head?.any (isAt engine) = true ∧ handleUnits engine u.tail ≠ []

theorem isHandleUnit_of_last (v : UInt16) (h : isLastUnit engine v = true) : isHandleUnit engine v = true := by
  unfold isLastUnit inClass at h
  unfold isHandleUnit inClass
  rw [List.any_eq_true] at h ⊢
  obtain ⟨w, hw, heq⟩ := h
  have hdot : units "abcdefghijklmnopqrstuvwxyz0123456789_." = units "abcdefghijklmnopqrstuvwxyz0123456789_" ++ [unit '.'] := by
    decide +kernel
  exact ⟨w, hdot ▸ List.mem_append_left _ hw, heq⟩

theorem take_handleUnits (u : JsString) : u.take (handleUnits engine u).length = handleUnits engine u :=
  (List.prefix_iff_eq_take.1 ((List.rdropWhile_prefix _ _).trans (List.takeWhile_prefix _))).symm

theorem ends_handle (k : Cursor UInt16) : ((atHandle engine).ends k).head? =
    ((Regex.step (isAt engine) k).flatMap (Regex.ends (.group (.seq (.star (isHandleUnit engine)) (.one (isLastUnit engine)))))).head? :=
  rfl

/-- From the `@` on. -/
theorem head_handle {k : Cursor UInt16} (h : Opens engine k.rest) : ((atHandle engine).ends k).head? =
    some { Regex.skip k (1 + (handleUnits engine k.rest.tail).length) with
      groups := k.groups ++ [handleUnits engine k.rest.tail] } := by
  obtain ⟨hat, hne⟩ := h
  rcases hk : k.rest with _ | ⟨v, u⟩
  · rw [hk] at hat
    cases hat
  · rw [hk] at hat hne
    have hrest : (Regex.skip k 1).rest = u := by
      unfold Regex.skip
      rw [hk]
      rfl
    have hindex : (Regex.skip k (1 + (handleUnits engine u).length)).index - (Regex.skip k 1).index = (handleUnits engine u).length := by
      unfold Regex.skip
      simp only
      omega
    have hlast : ((Regex.seq (.star (isHandleUnit engine)) (.one (isLastUnit engine))).ends (Regex.skip k 1)).head? =
        some (Regex.skip k (1 + (handleUnits engine u).length)) := by
      rw [Regex.head_star_one isHandleUnit_of_last, hrest, if_neg (by exact hne), Regex.skip_skip]
      rfl
    rw [ends_handle, Regex.step_cons hk, if_pos (by exact hat), List.flatMap_singleton, Regex.ends, List.head?_map, hlast,
      Option.map_some, hrest, hindex, take_handleUnits]
    rfl

theorem head_handle_of_not {k : Cursor UInt16} (h : ¬ Opens engine k.rest) : ((atHandle engine).ends k).head? = none := by
  rcases hk : k.rest with _ | ⟨v, u⟩
  · rw [ends_handle, Regex.step_nil hk]
    rfl
  · rw [ends_handle, Regex.step_cons hk]
    by_cases hat : isAt engine v = true
    · have hrest : (Regex.skip k 1).rest = u := by
        unfold Regex.skip
        rw [hk]
        rfl
      have hnil : handleUnits engine u = [] := by
        by_contra hne
        exact h (by rw [hk]; exact ⟨hat, hne⟩)
      rw [if_pos hat, List.flatMap_singleton, Regex.ends, List.head?_map, Regex.head_star_one isHandleUnit_of_last, hrest,
        if_pos (by exact hnil)]
      rfl
    · rw [if_neg hat]
      rfl

/-- The two ways a match can begin: at the beginning of the text, and with a character that breaks words. -/
theorem matchAt_mention : (mention engine).matchAt index u =
    (if index = 0 then ((atHandle engine).ends ⟨index, u, [[]]⟩).head? else none).or
      (if u.head?.any (isBreak engine) = true then ((atHandle engine).ends ⟨index + 1, u.drop 1, [u.take 1]⟩).head? else none) := by
  unfold Regex.matchAt mention
  rw [Regex.ends, Regex.ends, Regex.ends, Regex.ends, Regex.ends, List.map_append, Regex.head_flatMap]
  congr 1
  · split
    · rw [List.map_singleton, List.flatMap_singleton]
      simp only [Nat.sub_self, List.take_zero, List.nil_append]
    · rfl
  · unfold Regex.step
    simp only
    split
    · rw [List.map_singleton, List.flatMap_singleton]
      simp only [Regex.skip, Nat.add_sub_cancel_left, List.nil_append]
    · rfl

theorem matchAt_first (h : Opens engine u) : (mention engine).matchAt 0 u =
    some ⟨1 + (handleUnits engine u.tail).length, u.tail.drop (handleUnits engine u.tail).length, [[], handleUnits engine u.tail]⟩ := by
  rw [matchAt_mention, if_pos rfl, head_handle (by exact h), Option.some_or]
  simp only [Regex.skip, Nat.zero_add, List.singleton_append, List.drop_tail, Nat.add_comm]

theorem matchAt_second (h0 : index ≠ 0 ∨ ¬ Opens engine (v :: u)) (hv : isBreak engine v = true) (h : Opens engine u) :
    (mention engine).matchAt index (v :: u) =
      some ⟨index + 2 + (handleUnits engine u.tail).length, u.tail.drop (handleUnits engine u.tail).length,
        [[v], handleUnits engine u.tail]⟩ := by
  have hfirst : (if index = 0 then ((atHandle engine).ends ⟨index, v :: u, [[]]⟩).head? else none) = none := by
    split
    · rename_i hzero
      exact head_handle_of_not (h0.resolve_left (not_not.2 hzero))
    · rfl
  rw [matchAt_mention, hfirst, Option.none_or, if_pos (by exact hv), head_handle (by exact h)]
  have hindex : index + 1 + (1 + (handleUnits engine u.tail).length) = index + 2 + (handleUnits engine u.tail).length := by omega
  simp only [Regex.skip, List.drop_succ_cons, List.drop_zero, List.take_succ_cons, List.take_zero, List.singleton_append,
    List.drop_tail, hindex, Nat.add_comm]

theorem matchAt_none (h0 : index ≠ 0 ∨ ¬ Opens engine u) (h : ¬ (u.head?.any (isBreak engine) = true ∧ Opens engine u.tail)) :
    (mention engine).matchAt index u = none := by
  have hfirst : (if index = 0 then ((atHandle engine).ends ⟨index, u, [[]]⟩).head? else none) = none := by
    split
    · rename_i hzero
      exact head_handle_of_not (h0.resolve_left (not_not.2 hzero))
    · rfl
  rw [matchAt_mention, hfirst, Option.none_or]
  split
  · rename_i hbreak
    exact head_handle_of_not fun hopens => h ⟨hbreak, by rwa [List.drop_one] at hopens⟩
  · rfl

/-! ## What it captures -/

theorem captures_nil : captures engine index [] = [] := by
  have hnot : ¬ Opens engine [] := fun h => (by cases h.1)
  unfold captures
  rw [Regex.matchAll_nil, matchAt_none (.inr hnot) fun h => hnot h.2]
  rfl

/-- A text that begins with a mention. -/
theorem captures_first (h : Opens engine (v :: u)) :
    captures engine 0 (v :: u) =
      handleUnits engine u :: captures engine (1 + (handleUnits engine u).length) (u.drop (handleUnits engine u).length) := by
  unfold captures
  rw [Regex.matchAll_of_some (matchAt_first h) (by simp only [List.tail_cons, List.length_drop]; omega)]
  rfl

/-- A mention after a character that breaks words. -/
theorem captures_second (h0 : index ≠ 0 ∨ ¬ Opens engine (v :: u)) (hv : isBreak engine v = true) (h : Opens engine u) :
    captures engine index (v :: u) = handleUnits engine u.tail ::
      captures engine (index + 2 + (handleUnits engine u.tail).length) (u.tail.drop (handleUnits engine u.tail).length) := by
  unfold captures
  rw [Regex.matchAll_of_some (matchAt_second h0 hv h) (by simp only [List.length_drop, List.length_tail]; omega)]
  rfl

theorem captures_skip (h0 : index ≠ 0 ∨ ¬ Opens engine (v :: u)) (h : ¬ (isBreak engine v = true ∧ Opens engine u)) :
    captures engine index (v :: u) = captures engine (index + 1) u := by
  unfold captures
  rw [Regex.matchAll_of_none (matchAt_none h0 (by exact h))]

/-! ## The classes -/

theorem canonicalize_ascii (hengine : engine.Conforms) {c : Char} (hc : c.toNat < 128) :
    canonicalize engine (unit c) = unit c.toUpper := by
  have hupper : c.toUpper.toNat < 128 := ascii_cases (P := fun c => c.toUpper.toNat < 128) (by decide) hc
  unfold canonicalize
  rw [hengine.upper c (decide_eq_true hc)]
  simp only
  rw [if_neg]
  rw [toNat_unit (by omega)]
  omega

/-- Case folding leaves what is not ASCII out of ASCII. -/
theorem canonicalize_foreign (engine : Engine) {v : UInt16} (hv : Foreign v) : Foreign (canonicalize engine v) := by
  unfold canonicalize Foreign at *
  split
  · split
    · exact hv
    · rename_i hnot
      by_contra hlt
      exact hnot ⟨hv, by omega⟩
  · exact hv

theorem inClass_ascii (hengine : engine.Conforms) {s : String} (hs : s.toList.all isAscii = true) {c : Char}
    (hc : c.toNat < 128) : inClass engine (units s) (unit c) = s.toList.any fun d => unit d.toUpper == unit c.toUpper := by
  unfold inClass units
  rw [List.any_map, Bool.eq_iff_iff, List.any_eq_true, List.any_eq_true]
  refine exists_congr fun d => and_congr_right fun hd => ?_
  have hascii : d.toNat < 128 := of_decide_eq_true (List.all_eq_true.1 hs d hd)
  rw [Function.comp, canonicalize_ascii hengine hascii, canonicalize_ascii hengine hc]

theorem inClass_foreign (hengine : engine.Conforms) {s : String} (hs : s.toList.all isAscii = true) {v : UInt16}
    (hv : Foreign v) : inClass engine (units s) v = false := by
  rw [Bool.eq_false_iff]
  intro h
  unfold inClass units at h
  obtain ⟨w, hw, heq⟩ := List.any_eq_true.1 h
  obtain ⟨d, hd, rfl⟩ := List.mem_map.1 hw
  have hascii : d.toNat < 128 := of_decide_eq_true (List.all_eq_true.1 hs d hd)
  have hupper : d.toUpper.toNat < 128 := ascii_cases (P := fun c => c.toUpper.toNat < 128) (by decide) hascii
  have hforeign := canonicalize_foreign engine hv
  rw [← beq_iff_eq.1 heq, canonicalize_ascii hengine hascii] at hforeign
  unfold Foreign at hforeign
  rw [toNat_unit (by omega)] at hforeign
  omega

theorem isAt_ascii (hengine : engine.Conforms) {c : Char} (hc : c.toNat < 128) : isAt engine (unit c) = (c == '@') := by
  unfold isAt
  rw [inClass_ascii hengine (by decide) hc]
  exact ascii_cases (P := fun c => ("@".toList.any fun d => unit d.toUpper == unit c.toUpper) = (c == '@')) (by decide +kernel) hc

theorem isBreak_ascii (hengine : engine.Conforms) {c : Char} (hc : c.toNat < 128) : isBreak engine (unit c) = !isHandleChar c := by
  unfold isBreak
  rw [inClass_ascii hengine (by decide) hc]
  exact ascii_cases (P := fun c => (!"ABCDEFGHIJKLMNOPQRSTUVWXYZabcdefghijklmnopqrstuvwxyz0123456789_.".toList.any
    fun d => unit d.toUpper == unit c.toUpper) = !isHandleChar c) (by decide +kernel) hc

theorem isHandleUnit_ascii (hengine : engine.Conforms) {c : Char} (hc : c.toNat < 128) :
    isHandleUnit engine (unit c) = isHandleChar c := by
  unfold isHandleUnit
  rw [inClass_ascii hengine (by decide) hc]
  exact ascii_cases (P := fun c => ("abcdefghijklmnopqrstuvwxyz0123456789_.".toList.any
    fun d => unit d.toUpper == unit c.toUpper) = isHandleChar c) (by decide +kernel) hc

theorem isLastUnit_ascii (hengine : engine.Conforms) {c : Char} (hc : c.toNat < 128) :
    isLastUnit engine (unit c) = (isHandleChar c && c != '.') := by
  unfold isLastUnit
  rw [inClass_ascii hengine (by decide) hc]
  exact ascii_cases (P := fun c => ("abcdefghijklmnopqrstuvwxyz0123456789_".toList.any
    fun d => unit d.toUpper == unit c.toUpper) = (isHandleChar c && c != '.')) (by decide +kernel) hc

theorem isBreak_foreign (hengine : engine.Conforms) (hv : Foreign v) : isBreak engine v = true := by
  unfold isBreak
  rw [inClass_foreign hengine (by decide) hv]
  rfl

end Matches

/-! ## The scans agree -/

/-- The name a mention stands for. -/
def nameOf : Mention → String
  | .everyone => "everyone"
  | .user handle => handle

def names (ms : List Mention) : List JsString := ms.map fun m => utf16 (nameOf m).toList

/-- The handle after an `@`, as it is written. -/
def handleOf (l : List Char) : List Char := (l.takeWhile isHandleChar).rdropWhile (· == '.')

section Agree

variable {engine : Engine} {l r : List Char} {u : JsString} {index : Nat} {v : UInt16}

theorem isHandleChar_ascii {c : Char} (h : isHandleChar c = true) : c.toNat < 128 := by
  unfold isHandleChar at h
  rw [Bool.or_eq_true, Bool.or_eq_true, beq_iff_eq, beq_iff_eq] at h
  rcases h with (h | rfl) | rfl
  · exact isAlphanum_ascii h
  · decide
  · decide

theorem mem_handleOf {c : Char} (h : c ∈ handleOf l) : isHandleChar c = true :=
  List.mem_takeWhile_imp ((List.rdropWhile_prefix _ _).subset h)

theorem handleOf_append_drop (l : List Char) : handleOf l ++ l.drop (handleOf l).length = l :=
  List.prefix_iff_eq_append.1 ((List.rdropWhile_prefix _ _).trans (List.takeWhile_prefix _))

theorem rdropWhile_congr {α : Type} {p q : α → Bool} {l : List α} (h : ∀ a ∈ l, p a = q a) : l.rdropWhile p = l.rdropWhile q := by
  induction l with
  | nil => rfl
  | cons a l ih =>
    rw [Regex.rdropWhile_cons, Regex.rdropWhile_cons, ih fun b hb => h b (List.mem_cons_of_mem _ hb), h a List.mem_cons_self]

/-- The same handle, and the same text after it. -/
theorem handle_agree (hengine : engine.Conforms) (h : Recodes asciiUnit Foreign l u) :
    handleUnits engine u = utf16 (handleOf l) ∧ (handleUnits engine u).length = (handleOf l).length ∧
      Recodes asciiUnit Foreign (l.drop (handleOf l).length) (u.drop (handleOf l).length) := by
  obtain ⟨hrun, hsome⟩ := h.takeWhile (p := isHandleChar) (q := isHandleUnit engine)
    (fun c v hv => by obtain ⟨hc, rfl⟩ := asciiUnit_some hv; exact isHandleUnit_ascii hengine hc)
    (fun c hc => Bool.eq_false_iff.2 fun hh => by have := isHandleChar_ascii hh; have := asciiUnit_none hc; omega)
    (fun v hv => inClass_foreign hengine (by decide) hv)
  have hlt : ∀ c ∈ l.takeWhile isHandleChar, c.toNat < 128 := fun c hc => isHandleChar_ascii (List.mem_takeWhile_imp hc)
  have hhandle : ∀ c ∈ handleOf l, isAscii c = true := fun c hc => decide_eq_true (isHandleChar_ascii (mem_handleOf hc))
  have hunits : handleUnits engine u = utf16 (handleOf l) := by
    unfold handleUnits
    rw [hrun, filterMap_asciiUnit hsome, utf16_ascii fun c hc => decide_eq_true (hlt c hc), utf16_ascii hhandle]
    unfold handleOf List.rdropWhile
    rw [← List.map_reverse, List.dropWhile_map, ← List.map_reverse]
    have hlast := rdropWhile_congr (l := l.takeWhile isHandleChar) (p := (fun v => !isLastUnit engine v) ∘ unit) (q := (· == '.'))
      fun c hc => by
        rw [Function.comp, isLastUnit_ascii hengine (hlt c hc), List.mem_takeWhile_imp hc]
        cases heq : c == '.' <;> simp [bne, heq]
    exact congrArg (List.map unit) hlast
  have hlength : (utf16 (handleOf l)).length = (handleOf l).length := by rw [utf16_ascii hhandle, List.length_map]
  refine ⟨hunits, by rw [hunits, hlength], ?_⟩
  have hmem : ∀ c ∈ handleOf l, (asciiUnit c).isSome = true := fun c hc => by unfold asciiUnit; rw [if_pos (hhandle c hc)]; rfl
  have hwhole := h
  rw [← handleOf_append_drop l] at hwhole
  obtain ⟨w, rfl, hw⟩ := hwhole.append hmem
  have hdrop : (utf16 (handleOf l) ++ w).drop (handleOf l).length = w := by rw [← hlength, List.drop_left]
  rw [filterMap_asciiUnit hmem, hdrop]
  exact hw

theorem handleUnits_eq_nil (hengine : engine.Conforms) (h : Recodes asciiUnit Foreign l u) : handleUnits engine u = [] ↔ handleOf l = [] := by
  rw [← List.length_eq_zero_iff, ← List.length_eq_zero_iff, (handle_agree hengine h).2.1]

/-- Where the client's text opens a mention. -/
theorem opens_iff (hengine : engine.Conforms) (h : Recodes asciiUnit Foreign l u) :
    Opens engine u ↔ ∃ r, l = '@' :: r ∧ handleOf r ≠ [] := by
  cases h with
  | nil => exact iff_of_false (fun h => (by cases h.1)) (fun ⟨r, h, _⟩ => (by cases h))
  | @letter c v l u hc h =>
    obtain ⟨hlt, rfl⟩ := asciiUnit_some hc
    have hat : Opens engine (unit c :: u) ↔ isAt engine (unit c) = true ∧ handleUnits engine u ≠ [] := Iff.rfl
    rw [hat, isAt_ascii hengine hlt, beq_iff_eq, Ne, handleUnits_eq_nil hengine h]
    constructor
    · rintro ⟨rfl, hne⟩
      exact ⟨l, rfl, hne⟩
    · rintro ⟨r, heq, hne⟩
      obtain ⟨rfl, rfl⟩ := List.cons.inj heq
      exact ⟨rfl, hne⟩
  | @other c vs l u hc hne hvs h =>
    obtain ⟨v, vs, rfl⟩ := List.exists_cons_of_ne_nil hne
    refine iff_of_false ?_ ?_
    · rintro ⟨hat, -⟩
      have hv : isAt engine v = true := hat
      unfold isAt at hv
      rw [inClass_foreign hengine (by decide) (hvs v List.mem_cons_self)] at hv
      cases hv
    · rintro ⟨r, heq, -⟩
      obtain ⟨rfl, -⟩ := List.cons.inj heq
      cases hc

/-! ### The server's scan -/

theorem mentionsFrom_previous {p q : Option Char} (h : p.any isHandleChar = q.any isHandleChar) (l : List Char) :
    mentionsFrom p l = mentionsFrom q l := by
  cases l with
  | nil => rfl
  | cons c l =>
    unfold mentionsFrom
    rw [h]

theorem mentionsFrom_cons {p : Option Char} {c : Char} (h : c ≠ '@' ∨ p.any isHandleChar = true ∨ handleOf l = []) :
    mentionsFrom p (c :: l) = mentionsFrom (some c) l := by
  rw [mentionsFrom]
  split
  · rename_i hat
    have hnil : handleOf l = [] := by
      rcases h with h | h | h
      · exact absurd hat.1 h
      · exact absurd h hat.2
      · exact h
    unfold mentionAt
    unfold handleOf at hnil
    simp only
    rw [hnil]
    rfl
  · rfl

/-- There is no mention in a handle. -/
theorem mentionsFrom_handle {w : List Char} (hw : ∀ c ∈ w, isHandleChar c = true) (hne : w ≠ []) (p : Option Char) :
    mentionsFrom p (w ++ l) = mentionsFrom (some 'a') l := by
  induction w generalizing p with
  | nil => exact absurd rfl hne
  | cons c w ih =>
    have hc := hw c List.mem_cons_self
    have hat : c ≠ '@' := by
      rintro rfl
      cases hc
    rw [List.cons_append, mentionsFrom_cons (.inl hat)]
    rcases w with _ | ⟨d, w⟩
    · exact mentionsFrom_previous (by rw [Option.any_some, hc]; rfl) l
    · exact ih (fun e he => hw e (List.mem_cons_of_mem _ he)) (List.cons_ne_nil _ _) (some c)

/-- A mention, and what comes after it. -/
theorem names_mentionsFrom_at {p : Option Char} (hp : p.any isHandleChar = false) (hne : handleOf r ≠ []) :
    names (mentionsFrom p ('@' :: r)) =
      utf16 (asciiLowercase (handleOf r)) :: names (mentionsFrom (some 'a') (r.drop (handleOf r).length)) := by
  have hat : names (mentionAt r).toList = [utf16 (asciiLowercase (handleOf r))] := by
    have hlower : (asciiLowercase (handleOf r)).isEmpty = false := by
      rw [List.isEmpty_eq_false_iff]
      exact fun h => hne (List.map_eq_nil_iff.1 h)
    unfold mentionAt
    simp only
    change names (if (asciiLowercase (handleOf r)).isEmpty = true then none else if asciiLowercase (handleOf r) = "everyone".toList
      then some Mention.everyone else some (Mention.user (String.ofList (asciiLowercase (handleOf r))))).toList = _
    rw [hlower, if_neg (by decide)]
    split
    · rename_i heq
      rw [heq]
      rfl
    · unfold names
      rw [Option.toList_some, List.map_singleton, nameOf, String.toList_ofList]
  have hrest : mentionsFrom (some '@') r = mentionsFrom (some 'a') (r.drop (handleOf r).length) := by
    have h := mentionsFrom_handle (l := r.drop (handleOf r).length) (fun c hc => mem_handleOf hc) hne (some '@')
    rwa [handleOf_append_drop] at h
  rw [mentionsFrom]
  rw [if_pos ⟨rfl, by rw [hp]; decide⟩, names, List.map_append, hrest]
  exact congrArg (· ++ _) hat

/-! ### Both scans -/

/-- What the client captures from here on, lower-cased. -/
def lowered (engine : Engine) (index : Nat) (u : JsString) : List JsString := (captures engine index u).map engine.toLowerCase

/-- Both go on alike where no mention begins, or may begin. -/
def GoOn (engine : Engine) (l : List Char) (u : JsString) : Prop :=
  ∀ index p, index ≠ 0 ∨ ¬ Opens engine u → p.any isHandleChar = true ∨ ¬ Opens engine u →
    lowered engine index u = names (mentionsFrom p l)

/-- Both go on alike after a character that breaks words. -/
def GoOnAfter (engine : Engine) (l : List Char) (u : JsString) : Prop :=
  ∀ index v, isBreak engine v = true → index ≠ 0 ∨ ¬ Opens engine (v :: u) →
    lowered engine index (v :: u) = names (mentionsFrom none l)

/-- The next mention, and what comes after it. -/
theorem names_at (hengine : engine.Conforms) (h : Recodes asciiUnit Foreign r u) (hne : handleOf r ≠ []) (hindex : index ≠ 0)
    (hrest : GoOn engine (r.drop (handleOf r).length) (u.drop (handleOf r).length)) :
    engine.toLowerCase (handleUnits engine u) :: lowered engine index (u.drop (handleUnits engine u).length) =
      names (mentionsFrom none ('@' :: r)) := by
  obtain ⟨hunits, hlength, -⟩ := handle_agree hengine h
  rw [names_mentionsFrom_at (p := none) rfl hne, hlength, hrest index (some 'a') (.inl hindex) (.inl rfl), hunits,
    hengine.lower_ascii fun c hc => decide_eq_true (isHandleChar_ascii (mem_handleOf hc))]

theorem goOnAfter (hengine : engine.Conforms) (h : Recodes asciiUnit Foreign l u) (hgo : GoOn engine l u)
    (hshort : ∀ r w, r.length < l.length → Recodes asciiUnit Foreign r w → GoOn engine r w) : GoOnAfter engine l u := by
  rintro index v hv h0
  unfold lowered
  by_cases hopens : Opens engine u
  · obtain ⟨r, rfl, hne⟩ := (opens_iff hengine h).1 hopens
    obtain ⟨w, u, rfl, hw⟩ : ∃ w u', u = w :: u' ∧ Recodes asciiUnit Foreign r u' := by
      cases h with
      | letter _ h => exact ⟨_, _, rfl, h⟩
      | other hc => cases hc
    have hleft := (handle_agree hengine hw).2.2
    rw [captures_second h0 hv hopens, List.map_cons]
    refine names_at hengine hw hne (by omega) (hshort _ _ ?_ hleft)
    rw [List.length_drop, List.length_cons]
    omega
  · rw [captures_skip h0 fun h => hopens h.2]
    exact (hgo (index + 1) none (.inr hopens) (.inr hopens)).trans rfl

/-- A character that is not ASCII breaks words with the last of its units. -/
theorem lowered_foreign (hengine : engine.Conforms) (hafter : GoOnAfter engine l u) {vs : JsString} (hne : vs ≠ [])
    (hvs : ∀ v ∈ vs, Foreign v) (index : Nat) : lowered engine index (vs ++ u) = names (mentionsFrom none l) := by
  have hopens : ∀ v u, Foreign v → ¬ Opens engine (v :: u) := by
    rintro v u hv ⟨hat, -⟩
    have hat' : isAt engine v = true := hat
    unfold isAt at hat'
    rw [inClass_foreign hengine (by decide) hv] at hat'
    cases hat'
  induction vs generalizing index with
  | nil => exact absurd rfl hne
  | cons v vs ih =>
    have hv := hvs v List.mem_cons_self
    rcases vs with _ | ⟨w, vs⟩
    · exact hafter index v (isBreak_foreign hengine hv) (.inr (hopens v u hv))
    · have hw := hvs w (List.mem_cons_of_mem _ List.mem_cons_self)
      unfold lowered
      rw [List.cons_append, List.cons_append, captures_skip (.inr (hopens v _ hv)) fun h => hopens w _ hw h.2]
      exact ih (List.cons_ne_nil _ _) (fun x hx => hvs x (List.mem_cons_of_mem _ hx)) (index + 1)

theorem goOn (hengine : engine.Conforms) (h : Recodes asciiUnit Foreign l u) : GoOn engine l u := by
  -- what comes after a mention is shorter, but need not be the tail
  induction hn : l.length using Nat.strong_induction_on generalizing l u with
  | _ n ih =>
    subst hn
    rintro index p h0 hp
    rcases l with _ | ⟨c, l⟩
    · cases h
      unfold lowered
      rw [captures_nil]
      rfl
    have hunmentioned : c ≠ '@' ∨ p.any isHandleChar = true ∨ handleOf l = [] := by
      by_contra hnot
      push Not at hnot
      obtain ⟨rfl, hfree, hne⟩ := hnot
      exact hp.elim hfree fun hclosed => hclosed ((opens_iff hengine h).2 ⟨l, rfl, hne⟩)
    rw [mentionsFrom_cons hunmentioned]
    have hstep : ∀ u, Recodes asciiUnit Foreign l u → GoOn engine l u ∧ GoOnAfter engine l u := by
      intro u h
      have hgo := ih l.length (Nat.lt_succ_self _) h rfl
      exact ⟨hgo, goOnAfter hengine h hgo fun r w hr hw => ih r.length (by rw [List.length_cons]; omega) hw rfl⟩
    have hbreaks : isHandleChar c = false → names (mentionsFrom none l) = names (mentionsFrom (some c) l) := by
      intro hc
      rw [mentionsFrom_previous (p := none) (q := some c) (by rw [Option.any_some, hc]; rfl)]
    cases h with
    | @letter _ v _ u hc h =>
      obtain ⟨hgo, hafter⟩ := hstep u h
      obtain ⟨hlt, rfl⟩ := asciiUnit_some hc
      have hbreak := isBreak_ascii hengine hlt
      cases hhandle : isHandleChar c with
      | true =>
        rw [hhandle] at hbreak
        unfold lowered
        rw [captures_skip h0 fun h => (by rw [hbreak] at h; cases h.1)]
        exact hgo (index + 1) (some c) (.inl (by omega)) (.inl hhandle)
      | false =>
        rw [hhandle] at hbreak
        rw [hafter index (unit c) hbreak h0]
        exact hbreaks hhandle
    | @other _ vs _ u hc hne hvs h =>
      have hother : isHandleChar c = false := by
        have hge := asciiUnit_none hc
        by_contra hhandle
        have hlt := isHandleChar_ascii (Bool.not_eq_false _ ▸ hhandle)
        omega
      rw [lowered_foreign hengine (hstep u h).2 hne hvs index]
      exact hbreaks hother

/-- Both find the same mentions, one after another. -/
theorem lowered_agree (hengine : engine.Conforms) (l : List Char) : lowered engine 0 (utf16 l) = names (mentionsFrom none l) := by
  have h := recodes_utf16 l
  by_cases hopens : Opens engine (utf16 l)
  · obtain ⟨r, rfl, hne⟩ := (opens_iff hengine h).1 hopens
    have hunits : utf16 ('@' :: r) = unit '@' :: utf16 r := rfl
    rw [hunits] at hopens ⊢
    have hw := recodes_utf16 r
    unfold lowered
    rw [captures_first hopens, List.map_cons]
    exact names_at hengine hw hne (by omega) (goOn hengine (handle_agree hengine hw).2.2)
  · exact goOn hengine h 0 none (.inr hopens) (.inr hopens)

/-! ### The mentions of a text -/

/-- Each distinct one once. -/
theorem foldl_add {α : Type} [BEq α] [LawfulBEq α] (xs found : List α) (hfound : found.Nodup) :
    (xs.foldl (fun found x => if x ∈ found then found else found ++ [x]) found).Nodup ∧
    ∀ x, x ∈ xs.foldl (fun found x => if x ∈ found then found else found ++ [x]) found ↔ x ∈ found ∨ x ∈ xs := by
  induction xs generalizing found with
  | nil => exact ⟨hfound, fun x => by simp⟩
  | cons y xs ih =>
    rw [List.foldl_cons]
    split
    · rename_i hin
      refine ⟨(ih found hfound).1, fun x => ?_⟩
      rw [(ih found hfound).2 x, List.mem_cons]
      constructor
      · rintro (h | h)
        · exact .inl h
        · exact .inr (.inr h)
      · rintro (h | rfl | h)
        · exact .inl h
        · exact .inl hin
        · exact .inr h
    · rename_i hout
      have hnodup : (found ++ [y]).Nodup := by
        rw [List.nodup_append]
        exact ⟨hfound, List.nodup_singleton y, fun a ha b hb => by rw [List.mem_singleton.1 hb]; rintro rfl; exact hout ha⟩
      refine ⟨(ih _ hnodup).1, fun x => ?_⟩
      rw [(ih _ hnodup).2 x, List.mem_append, List.mem_singleton, List.mem_cons, or_assoc]

theorem mem_mentionsFrom {m : Mention} {p : Option Char} (h : m ∈ mentionsFrom p l) : ∃ r, mentionAt r = some m := by
  induction l generalizing p with
  | nil => cases h
  | cons c l ih =>
    rw [mentionsFrom] at h
    rcases List.mem_append.1 h with h | h
    · split at h
      · exact ⟨l, Option.mem_toList.1 h⟩
      · cases h
    · exact ih h

/-- A user who is mentioned has a handle, and it is not that of the whole room. -/
theorem handle_of_mentionAt {handle : String} (h : mentionAt r = some (.user handle)) : handle ≠ "" ∧ handle ≠ "everyone" := by
  unfold mentionAt at h
  simp only at h
  split at h
  · cases h
  · rename_i hne
    split at h
    · cases h
    · rename_i heveryone
      cases h
      refine ⟨fun heq => hne ?_, fun heq => heveryone ?_⟩
      · have hlist := congrArg String.toList heq
        rw [String.toList_ofList] at hlist
        rw [hlist]
        rfl
      · have hlist := congrArg String.toList heq
        rwa [String.toList_ofList] at hlist

theorem nameOf_ne {m : Mention} {p : Option Char} (h : m ∈ mentionsFrom p l) : utf16 (nameOf m).toList ≠ [] := by
  intro hnil
  have hempty : nameOf m = "" := String.toList_inj.1 (utf16_injective hnil)
  obtain ⟨r, hr⟩ := mem_mentionsFrom h
  cases m with
  | everyone => exact absurd hempty (by decide)
  | user handle => exact (handle_of_mentionAt hr).1 hempty

/-- The name of a mention tells which it is. -/
theorem nameOf_inj {m n : Mention} {p : Option Char} (hm : m ∈ mentionsFrom p l) (hn : n ∈ mentionsFrom p l)
    (h : utf16 (nameOf m).toList = utf16 (nameOf n).toList) : m = n := by
  have hname : nameOf m = nameOf n := String.toList_inj.1 (utf16_injective h)
  obtain ⟨r, hr⟩ := mem_mentionsFrom hm
  obtain ⟨w, hw⟩ := mem_mentionsFrom hn
  cases m with
  | everyone =>
    cases n with
    | everyone => rfl
    | user handle => exact absurd hname.symm (handle_of_mentionAt hw).2
  | user handle =>
    cases n with
    | everyone => exact absurd hname (handle_of_mentionAt hr).2
    | user other => exact congrArg Mention.user hname

theorem parseMentions_eq (hengine : engine.Conforms) (l : List Char) : parseMentions engine (utf16 l) =
    (names (mentionsFrom none l)).foldl (fun found x => if x ∈ found then found else found ++ [x]) [] := by
  have hne : ∀ handle ∈ captures engine 0 (utf16 l), handle ≠ [] := by
    rintro handle hmem rfl
    have hlower : engine.toLowerCase [] = [] := hengine.lower_ascii (l := []) fun c hc => (by cases hc)
    have hin : [] ∈ names (mentionsFrom none l) := by
      rw [← lowered_agree hengine l]
      exact List.mem_map.2 ⟨[], hmem, hlower⟩
    obtain ⟨m, hm, hname⟩ := List.mem_map.1 hin
    exact nameOf_ne hm hname
  rw [← lowered_agree hengine l]
  unfold parseMentions lowered
  rw [List.foldl_map]
  refine List.foldl_ext _ _ _ fun found handle hmem => ?_
  rw [if_neg (hne handle hmem)]

theorem parseMentions_agree (hengine : engine.Conforms) (content : String) :
    (parseMentions engine (utf16 content.toList)).Perm ((Domain.parseMentions content).map fun m => utf16 (nameOf m).toList) := by
  have hperm : (Domain.parseMentions content).Perm (mentionsFrom none content.toList).dedup := List.perm_insertionSort _ _
  have hmem : ∀ m, m ∈ Domain.parseMentions content ↔ m ∈ mentionsFrom none content.toList := by
    intro m
    rw [hperm.mem_iff, List.mem_dedup]
  obtain ⟨hnodup, hfound⟩ := foldl_add (names (mentionsFrom none content.toList)) [] List.nodup_nil
  have hserver : ((Domain.parseMentions content).map fun m => utf16 (nameOf m).toList).Nodup := by
    refine List.Nodup.map_on ?_ (hperm.nodup_iff.2 (List.nodup_dedup _))
    intro m hm n hn h
    exact nameOf_inj ((hmem m).1 hm) ((hmem n).1 hn) h
  rw [parseMentions_eq hengine]
  refine (List.perm_ext_iff_of_nodup hnodup hserver).2 fun x => ?_
  rw [hfound x]
  unfold names
  simp only [List.not_mem_nil, false_or, List.mem_map, hmem]

end Agree

end Genzh.Client
