/-
The shortcodes of a text as they stand in it, from left to right. Two of them share a colon at most, which closes the one
and opens the other; the scan finds them all and keeps each name where it first stands.
-/
import Genzh.Messaging.Names
import Genzh.Lib.Batch

namespace Genzh.Messaging

open Genzh.Domain Genzh.Lib

/-- What may stand between the colons of a shortcode. -/
structure IsCandidate (name : List Char) : Prop where
  chars : ∀ c ∈ name, isNameChar c = true
  least : emojiNameMinLen ≤ name.length
  most : name.length ≤ emojiNameMaxLen
  notDigits : name.all Char.isDigit = false

/-- Does a shortcode stand at this place of the text? -/
def StandsAt (text : List Char) (p : Nat) (name : List Char) : Prop :=
  IsCandidate name ∧ ∃ before after, text = before ++ ':' :: (name ++ ':' :: after) ∧ before.length = p

instance : DecidablePred Closed := fun _ => inferInstanceAs (Decidable (_ ∧ _ ∧ _))

/-- The shortcodes of a text with their places, which are counted from `p` on. -/
def occurrences (p : Nat) : List Char → List (Nat × List Char)
  | [] => []
  | c :: rest =>
    if c = ':' ∧ Closed rest then (p, candidateOf rest) :: occurrences (p + 1) rest else occurrences (p + 1) rest

variable {toLowercase : String → String} {name rest text : List Char} {p q : Nat}

/-! ## Where a shortcode stands -/

theorem closed_iff : Closed rest ∧ candidateOf rest = name ↔ IsCandidate name ∧ ∃ after, rest = name ++ ':' :: after := by
  constructor
  · rintro ⟨⟨hhead, hleast, hdigits⟩, rfl⟩
    refine ⟨⟨candidateOf_chars, hleast, length_candidateOf rest, hdigits⟩, ?_⟩
    obtain ⟨after, hafter⟩ := List.head?_eq_some_iff.1 hhead
    have hstart : candidateOf rest <+: rest := (List.take_prefix ..).trans (List.takeWhile_prefix _)
    exact ⟨after, hafter ▸ List.prefix_iff_eq_append.1 hstart |>.symm⟩
  · rintro ⟨h, after, rfl⟩
    have hcandidate := candidateOf_between h.chars h.most after
    refine ⟨?_, hcandidate⟩
    unfold Closed
    rw [hcandidate, List.drop_left]
    exact ⟨rfl, h.least, h.notDigits⟩

theorem IsCandidate.colon_notMem (h : IsCandidate name) : ':' ∉ name :=
  fun hmem => Bool.false_ne_true (isNameChar_colon.symm.trans (h.chars _ hmem))

theorem standsAt_zero {c : Char} : StandsAt (c :: rest) 0 name ↔ (c = ':' ∧ Closed rest) ∧ candidateOf rest = name := by
  rw [and_assoc, closed_iff]
  constructor
  · rintro ⟨h, before, after, heq, hlength⟩
    rw [List.length_eq_zero_iff.1 hlength] at heq
    obtain ⟨rfl, rfl⟩ := List.cons.inj heq
    exact ⟨rfl, h, after, rfl⟩
  · rintro ⟨rfl, h, after, rfl⟩
    exact ⟨h, [], after, rfl, rfl⟩

theorem standsAt_succ {c : Char} : StandsAt (c :: rest) (p + 1) name ↔ StandsAt rest p name := by
  constructor
  · rintro ⟨h, before, after, heq, hlength⟩
    cases before with
    | nil => cases hlength
    | cons b before => exact ⟨h, before, after, (List.cons.inj heq).2, Nat.succ.inj hlength⟩
  · rintro ⟨h, before, after, rfl, rfl⟩
    exact ⟨h, c :: before, after, rfl, rfl⟩

theorem not_standsAt_nil : ¬StandsAt [] p name := by
  rintro ⟨-, before, after, heq, -⟩
  cases before <;> cases heq

/-- The places of the shortcodes, and what stands there. -/
theorem mem_occurrences : (q, name) ∈ occurrences p text ↔ ∃ i, q = p + i ∧ StandsAt text i name := by
  induction text generalizing p with
  | nil =>
    constructor
    · intro h
      cases h
    · rintro ⟨i, -, h⟩
      exact absurd h not_standsAt_nil
  | cons c rest ih =>
    have hlater : (q, name) ∈ occurrences (p + 1) rest ↔ ∃ i, q = p + (i + 1) ∧ StandsAt (c :: rest) (i + 1) name := by
      rw [ih]
      exact exists_congr fun i => and_congr (by rw [Nat.add_right_comm, Nat.add_assoc]) standsAt_succ.symm
    have hall : (∃ i, q = p + i ∧ StandsAt (c :: rest) i name) ↔
        (q = p ∧ (c = ':' ∧ Closed rest) ∧ candidateOf rest = name) ∨ (q, name) ∈ occurrences (p + 1) rest := by
      rw [hlater, ← standsAt_zero, ← Nat.or_exists_add_one]
      exact Iff.rfl
    rw [hall, occurrences]
    split
    · rename_i hopen
      rw [List.mem_cons, Prod.mk.injEq, and_iff_right hopen, eq_comm (a := name)]
    · rename_i hopen
      exact (or_iff_right fun h => hopen h.2.1).symm

/-! ## What lies within a shortcode -/

theorem occurrences_skip {skipped : List Char} (h : ':' ∉ skipped) (p : Nat) (rest : List Char) :
    occurrences p (skipped ++ rest) = occurrences (p + skipped.length) rest := by
  induction skipped generalizing p with
  | nil => rfl
  | cons c skipped ih =>
    rw [List.mem_cons, not_or] at h
    rw [List.cons_append, occurrences, if_neg (fun hopen => h.1 hopen.1.symm), ih h.2, List.length_cons, Nat.add_assoc,
      Nat.add_comm 1]

/-- After a shortcode the next one stands at its closing colon or further on. -/
theorem occurrences_closed (h : Closed rest) (p : Nat) : occurrences p (':' :: rest) =
    (p, candidateOf rest) :: occurrences (p + (candidateOf rest).length + 1) (rest.drop (candidateOf rest).length) := by
  obtain ⟨hname, after, hrest⟩ := closed_iff.1 ⟨h, rfl⟩
  have hdrop : rest.drop (candidateOf rest).length = ':' :: after := by
    generalize candidateOf rest = candidate at hrest
    rw [hrest, List.drop_left]
  rw [occurrences, if_pos ⟨rfl, h⟩, hdrop]
  conv_lhs => rw [hrest, occurrences_skip hname.colon_notMem, ← hrest]
  rw [Nat.add_right_comm]

theorem occurrences_other {c : Char} (h : ¬(c = ':' ∧ Closed rest)) (p : Nat) :
    occurrences p (c :: rest) = occurrences (p + 1) rest := if_neg h

/-- Two shortcodes share the colon that closes the first, or nothing. -/
theorem pairwise_occurrences (p : Nat) (text : List Char) :
    (occurrences p text).Pairwise fun a b => a.1 + a.2.length + 1 ≤ b.1 := by
  induction text generalizing p with
  | nil => exact List.Pairwise.nil
  | cons c rest ih =>
    by_cases hopen : c = ':' ∧ Closed rest
    · have hlater := ih (p + 1)
      have hcut := occurrences_closed hopen.2 p
      rw [hopen.1, hcut]
      rw [occurrences, if_pos ⟨rfl, hopen.2⟩] at hcut
      rw [(List.cons.inj hcut).2] at hlater
      refine List.pairwise_cons.2 ⟨fun b hb => ?_, hlater⟩
      obtain ⟨i, hi, -⟩ := mem_occurrences.1 hb
      exact hi ▸ Nat.le_add_right _ _
    · rw [occurrences_other hopen]
      exact ih (p + 1)

/-! ## The scan -/

/-- A name that has not been found yet. -/
def pushNew (found : List String) (name : String) : List String := if name ∈ found then found else found ++ [name]

theorem foldl_pushNew (names found : List String) :
    names.foldl pushNew found = found ++ (names.filter (· ∉ found)).eraseDups := by
  induction names generalizing found with
  | nil => exact (List.append_nil found).symm
  | cons name names ih =>
    rw [List.foldl_cons, ih]
    unfold pushNew
    split
    · rename_i hmem
      rw [List.filter_cons_of_neg (by simpa using hmem)]
    · rename_i hmem
      have hfilter : names.filter (· ∉ found ++ [name]) = names.filter (· ∉ name :: found) := by
        refine List.filter_congr fun b _ => ?_
        rw [decide_eq_decide, List.mem_append, List.mem_singleton, List.mem_cons, or_comm]
      rw [Prog.eraseDups_filter_cons hmem, hfilter, List.append_assoc, List.singleton_append]

theorem shortcodesFrom_eq (found : List String) (text : List Char) (p : Nat) : shortcodesFrom toLowercase found text =
    ((occurrences p text).map fun o => toLowercase (String.ofList o.2)).foldl pushNew found := by
  -- on the length of the text: after a shortcode the scan goes on from its closing colon
  induction hlength : text.length using Nat.strongRecOn generalizing text found p with
  | ind length ih =>
    subst hlength
    rcases text with _ | ⟨c, rest⟩
    · rw [shortcodesFrom]
      rfl
    by_cases hopen : c = ':' ∧ Closed rest
    · obtain ⟨rfl, hclosed⟩ := hopen
      have hshorter : (rest.drop (candidateOf rest).length).length < (':' :: rest).length := by
        rw [List.length_drop, List.length_cons]
        omega
      rw [shortcodesFrom_closed hclosed, occurrences_closed hclosed, List.map_cons, List.foldl_cons]
      exact ih _ hshorter _ _ _ rfl
    · rw [occurrences_other hopen, ← ih rest.length (Nat.lt_succ_self _) found rest (p + 1) rfl]
      by_cases hc : c = ':'
      · subst hc
        exact shortcodesFrom_open (fun hclosed => hopen ⟨rfl, hclosed⟩) found
      · exact shortcodesFrom_other hc found rest

/-- The scan finds the names of the shortcodes of a text, each where it first stands. -/
theorem parseShortcodes_occurrences (toLowercase : String → String) (content : String) :
    ∃ tokens : List (Nat × List Char), (∀ p name, (p, name) ∈ tokens ↔ StandsAt content.toList p name) ∧
      (tokens.Pairwise fun a b => a.1 + a.2.length + 1 ≤ b.1) ∧
      parseShortcodes toLowercase content = (tokens.map fun token => toLowercase (String.ofList token.2)).eraseDups := by
  refine ⟨occurrences 0 content.toList, fun p name => ?_, pairwise_occurrences 0 _, ?_⟩
  · rw [mem_occurrences]
    constructor
    · rintro ⟨i, rfl, h⟩
      rwa [Nat.zero_add]
    · intro h
      exact ⟨p, (Nat.zero_add p).symm, h⟩
  · have hfresh : ∀ names : List String, names.filter (· ∉ ([] : List String)) = names :=
      fun names => List.filter_eq_self.2 fun _ _ => decide_eq_true List.not_mem_nil
    rw [parseShortcodes, shortcodesFrom_eq [] _ 0, foldl_pushNew, List.nil_append, hfresh]

/-- A colon that closes a shortcode opens the next, and so does one that closes none. -/
example : (occurrences 0 ":aa:bb::1:cc:".toList).map (·.1) = [0, 3, 9] := by decide +kernel

end Genzh.Messaging
