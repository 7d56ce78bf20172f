/-
Drawing the emoji of a community inside a text. The text is cut into what is drawn and what is printed; the colon that
closes one shortcode may open the next, and is then in what both are written as.
-/
import Genzh.Client.Shortcodes
import Genzh.Client.Recognisers
import Genzh.Lib.Map
import Genzh.Lib.Pieces

namespace Genzh.Client

open Genzh.Lib Genzh.Domain

/-- A community's emoji, as a client has it. -/
structure CustomEmoji where
  name : JsString
  imageUrl : JsString
  isAnimated : Bool
  deriving DecidableEq, Repr

/-- A community's emoji, indexed by the name a shortcode carries. -/
abbrev EmojiIndex := Map JsString CustomEmoji

/-- Build the lookup a renderer needs from the list the API returns. -/
def indexEmoji (emoji : List CustomEmoji) : EmojiIndex := emoji.foldl (fun index entry => index.set entry.name entry) .empty

/-- One piece of a message body: either text to print, or a glyph to draw. -/
inductive EmojiSegment where
  | text (text : JsString)
  | emoji (emoji : CustomEmoji) (shortcode : JsString)
  deriving DecidableEq, Repr

/-- Texts are merged as they are produced. -/
def pushText (segments : List EmojiSegment) (text : JsString) : List EmojiSegment :=
  if text = [] then segments
  else
    match segments.getLast? with
    | some (.text last) => segments.dropLast ++ [.text (last ++ text)]
    | _ => segments ++ [.text text]

/-- The loop, from a position on, with what was cut so far and how far that reaches. -/
def splitFrom (engine : Engine) (index : EmojiIndex) (content : JsString) (position cursor : Nat)
    (segments : List EmojiSegment) : List EmojiSegment :=
  if hlt : position < content.length then
    if content[position] ≠ unit ':' then splitFrom engine index content (position + 1) cursor segments
    else
      let start := position + 1
      let candidate := ((content.drop start).takeWhile isNameChar).take emojiNameMaxLen
      let stop := start + candidate.length
      if content[stop]? ≠ some (unit ':') ∨ candidate.length < emojiNameMinLen ∨ isNumber candidate = true then
        splitFrom engine index content (position + 1) cursor segments
      else
        match index.get (engine.toLowerCase candidate) with
        | none => splitFrom engine index content (position + 1) cursor segments
        | some emoji =>
          -- `stop` is the closing colon, where the loop goes on
          splitFrom engine index content stop (stop + 1)
            (pushText segments (slice content cursor position) ++ [.emoji emoji (slice content position (stop + 1))])
  else pushText segments (content.drop cursor)
termination_by content.length - position

/-- Split a text into what to print and the glyphs it resolves to. -/
def splitEmoji (engine : Engine) (content : JsString) (index : EmojiIndex) : List EmojiSegment :=
  if index.size = 0 then (if content = [] then [] else [.text content])
  else splitFrom engine index content 0 0 []

/-! ## Shortcodes -/

/-- A name as it is written in a text. -/
structure IsShortcode (name : JsString) : Prop where
  chars : ∀ v ∈ name, isNameChar v = true
  least : emojiNameMinLen ≤ name.length
  most : name.length ≤ emojiNameMaxLen
  notNumber : isNumber name = false

/-- A name between its colons. -/
def written (name : JsString) : JsString := unit ':' :: (name ++ [unit ':'])

/-- The name of the shortcode a text begins with. -/
def shortcodeAt : JsString → Option JsString
  | [] => none
  | v :: rest =>
    let candidate := (rest.takeWhile isNameChar).take emojiNameMaxLen
    if v = unit ':' ∧ (rest.drop candidate.length).head? = some (unit ':') ∧ emojiNameMinLen ≤ candidate.length ∧
        isNumber candidate = false then some candidate
    else none

/-- The shortcode tokens of a text, by their names as they are written, in order. -/
def shortcodes (content : JsString) : List JsString := content.tails.filterMap shortcodeAt

theorem isNameChar_colon : isNameChar (unit ':') = false := by decide +kernel

theorem candidate_prefix (rest : JsString) :
    (rest.takeWhile isNameChar).take emojiNameMaxLen <+: rest := (List.take_prefix _ _).trans (List.takeWhile_prefix _)

theorem shortcodeAt_iff {s name : JsString} : shortcodeAt s = some name ↔
    IsShortcode name ∧ written name <+: s := by
  constructor
  · intro h
    cases s with
    | nil => cases h
    | cons v rest =>
      simp only [shortcodeAt] at h
      split at h
      · rename_i haccepted
        obtain ⟨rfl, hclose, hleast, hnumber⟩ := haccepted
        cases h
        refine ⟨⟨?_, hleast, List.length_take_le _ _, hnumber⟩, ?_⟩
        · exact fun v hv => List.mem_takeWhile_imp (List.mem_of_mem_take hv)
        · obtain ⟨tail, htail⟩ := List.head?_eq_some_iff.1 hclose
          have hrest := candidate_prefix rest
          rw [List.prefix_iff_eq_append] at hrest
          rw [htail] at hrest
          refine ⟨tail, ?_⟩
          conv_rhs => rw [← hrest]
          rw [written, List.cons_append, List.append_assoc]
          rfl
      · cases h
  · rintro ⟨h, tail, rfl⟩
    have htake : ((name ++ [unit ':'] ++ tail).takeWhile isNameChar).take emojiNameMaxLen = name := by
      rw [List.append_assoc, List.takeWhile_append_of_pos h.chars, List.singleton_append,
        List.takeWhile_cons_of_neg (by rw [isNameChar_colon]; exact Bool.false_ne_true), List.append_nil,
        List.take_of_length_le h.most]
    have hdrop : (name ++ [unit ':'] ++ tail).drop name.length = unit ':' :: tail := by
      rw [List.append_assoc, List.drop_left]
      rfl
    rw [written, List.cons_append, shortcodeAt]
    simp only [htake, hdrop]
    rw [if_pos ⟨trivial, rfl, h.least, h.notNumber⟩]

theorem IsShortcode.colon_notMem {name : JsString} (h : IsShortcode name) : unit ':' ∉ name := by
  intro hmem
  exact Bool.false_ne_true (isNameChar_colon.symm.trans (h.chars _ hmem))

theorem shortcodeAt_head {v : UInt16} {s : JsString} (h : v ≠ unit ':') : shortcodeAt (v :: s) = none := by
  simp only [shortcodeAt]
  exact if_neg fun hall => h hall.1

theorem length_written (name : JsString) : (written name).length = name.length + 2 := by
  simp [written]

/-- No shortcode begins within another, before its closing colon. -/
theorem shortcodeAt_within {s name : JsString} (h : shortcodeAt s = some name) {i : Nat} (hpos : 0 < i)
    (hlt : i + 1 < (written name).length) : shortcodeAt (s.drop i) = none := by
  obtain ⟨hname, tail, rfl⟩ := shortcodeAt_iff.1 h
  obtain ⟨j, rfl⟩ : ∃ j, i = j + 1 := ⟨i - 1, by omega⟩
  rw [length_written] at hlt
  have hj : j < name.length := by omega
  have hdrop : (written name ++ tail).drop (j + 1) = name[j] :: (name.drop (j + 1) ++ (unit ':' :: tail)) := by
    rw [written, List.cons_append, List.drop_succ_cons, List.append_assoc, List.drop_append_of_le_length hj.le,
      List.drop_eq_getElem_cons hj]
    rfl
  rw [hdrop]
  exact shortcodeAt_head fun hcolon => hname.colon_notMem (hcolon ▸ List.getElem_mem hj)

/-- The shortcodes whose names are looked up are the tokens of a text. -/
def tokens {γ : Type} (lookup : JsString → Option γ) : Recogniser UInt16 γ where
  read s := (shortcodeAt s).bind fun name => (lookup name).map fun g => (written name, g)
  starts h := by
    obtain ⟨name, hname, h⟩ := Option.bind_eq_some_iff.1 h
    obtain ⟨emoji, -, heq⟩ := Option.map_eq_some_iff.1 h
    cases heq
    exact (shortcodeAt_iff.1 hname).2
  long h := by
    obtain ⟨name, hname, h⟩ := Option.bind_eq_some_iff.1 h
    obtain ⟨emoji, -, heq⟩ := Option.map_eq_some_iff.1 h
    cases heq
    rw [length_written]
    exact Nat.le_add_left _ _
  apart h i hpos hlt := by
    obtain ⟨name, hname, h⟩ := Option.bind_eq_some_iff.1 h
    obtain ⟨emoji, -, heq⟩ := Option.map_eq_some_iff.1 h
    cases heq
    rw [shortcodeAt_within hname hpos hlt]
    rfl

/-- The shortcodes that name an emoji of the index. -/
def glyphs (engine : Engine) (index : EmojiIndex) : Recogniser UInt16 CustomEmoji :=
  tokens fun name => index.get (engine.toLowerCase name)

/-! ## The names a scan finds -/

theorem shortcodes_skip {v : UInt16} {s : JsString} (h : shortcodeAt (v :: s) = none) : shortcodes (v :: s) = shortcodes s := by
  unfold shortcodes
  rw [List.tails_cons, List.filterMap_cons_none h]

/-- The search for shortcodes resumes at the closing colon. -/
theorem shortcodes_found {v : UInt16} {rest name : JsString} (h : shortcodeAt (v :: rest) = some name) :
    shortcodes (v :: rest) = name :: shortcodes (rest.drop name.length) := by
  have hall : ∀ s, shortcodes s = (s.tails.filterMap (tokens some).read).map Prod.snd := by
    intro s
    rw [shortcodes, List.map_filterMap]
    refine congrArg (s.tails.filterMap ·) (funext fun t => ?_)
    change _ = ((shortcodeAt t).bind fun name => some (written name, name)).map Prod.snd
    rcases shortcodeAt t with _ | name <;> rfl
  have hread : (tokens some).read (v :: rest) = some (written name, name) := by
    change (shortcodeAt (v :: rest)).bind _ = _
    rw [h]
    rfl
  have hresume : Recogniser.resume (v :: rest) (written name) = rest.drop name.length := by
    unfold Recogniser.resume
    rw [length_written, show name.length + 2 - 1 = name.length + 1 from rfl, List.drop_succ_cons]
  rw [hall, Recogniser.tokens_some hread, hresume, List.map_cons, ← hall]

theorem mem_shortcodesFrom {toLowerCase : JsString → JsString} {found : List JsString} {s x : JsString} :
    x ∈ shortcodesFrom toLowerCase found s ↔ x ∈ found ∨ ∃ name ∈ shortcodes s, toLowerCase name = x := by
  fun_induction shortcodesFrom toLowerCase found s with
  | case1 found => simp [shortcodes, List.tails, shortcodeAt]
  | case2 found v rest hne ih => rw [ih, shortcodes_skip (shortcodeAt_head hne)]
  | case3 =>
    rename_i found v rest hcolon candidate haccepted name ih
    have hfound : shortcodeAt (v :: rest) = some candidate := if_pos ⟨not_not.1 hcolon, haccepted⟩
    have hadd : x ∈ (if name ∈ found then found else found ++ [name]) ↔ x ∈ found ∨ name = x := by
      split
      · rename_i hmem
        exact ⟨.inl, fun h => h.elim id fun h => h ▸ hmem⟩
      · rw [List.mem_append, List.mem_singleton, eq_comm (a := x)]
    simp only [dite_eq_ite] at ih
    rw [ih, hadd, shortcodes_found hfound, List.exists_mem_cons_iff, or_assoc]
  | case4 =>
    rename_i found v rest hcolon candidate hrefused ih
    have hnone : shortcodeAt (v :: rest) = none := if_neg fun h => hrefused h.2
    rw [ih, shortcodes_skip hnone]

/-- The names the scan finds are those of the shortcodes, in lower case. -/
theorem mem_parseShortcodes {engine : Engine} {content x : JsString} :
    x ∈ parseShortcodes engine content ↔ ∃ name ∈ shortcodes content, engine.toLowerCase name = x := by
  unfold parseShortcodes
  rw [mem_shortcodesFrom]
  exact or_iff_right (List.not_mem_nil)

section Split

variable {engine : Engine} {index : EmojiIndex} {content s name : JsString} {emoji : CustomEmoji}

theorem glyphs_some {w : JsString} : (glyphs engine index).read s = some (w, emoji) ↔
    ∃ name, w = written name ∧ shortcodeAt s = some name ∧ index.get (engine.toLowerCase name) = some emoji := by
  change ((shortcodeAt s).bind fun name => (index.get (engine.toLowerCase name)).map fun emoji => (written name, emoji)) = _ ↔ _
  constructor
  · intro h
    obtain ⟨name, hname, h⟩ := Option.bind_eq_some_iff.1 h
    obtain ⟨emoji, hemoji, heq⟩ := Option.map_eq_some_iff.1 h
    cases heq
    exact ⟨name, rfl, hname, hemoji⟩
  · rintro ⟨name, rfl, hname, hemoji⟩
    rw [hname, Option.bind_some, hemoji]
    rfl

theorem glyphs_none (h : shortcodeAt s = none) : (glyphs engine index).read s = none := by
  change (shortcodeAt s).bind _ = none
  rw [h]
  rfl

theorem glyphs_unknown (h : shortcodeAt s = some name) (hemoji : index.get (engine.toLowerCase name) = none) :
    (glyphs engine index).read s = none := by
  change ((shortcodeAt s).bind fun name => (index.get (engine.toLowerCase name)).map fun emoji => (written name, emoji)) = none
  rw [h, Option.bind_some, hemoji]
  rfl

/-! ## The loop -/

/-- A piece as a renderer gets it. -/
def segmentOf : Piece UInt16 CustomEmoji → EmojiSegment
  | .text t => .text t
  | .token w emoji => .emoji emoji w

theorem pushText_eq {segments : List EmojiSegment} (hlast : ∀ t, segments.getLast? ≠ some (.text t)) (t : JsString) :
    pushText segments t = segments ++ (Piece.ofText t : List (Piece UInt16 CustomEmoji)).map segmentOf := by
  cases t with
  | nil => exact (List.append_nil _).symm
  | cons v t =>
    unfold pushText
    rw [if_neg (List.cons_ne_nil v t)]
    split
    · rename_i last hl
      exact absurd hl (hlast last)
    · rfl

theorem slice_self (content : JsString) (n : Nat) : slice content n n = [] := by
  unfold slice
  rw [Nat.sub_self, List.take_zero]

theorem slice_succ {p c : Nat} (hlt : p < content.length) (hle : c ≤ p) :
    slice content c (p + 1) = slice content c p ++ [content[p]] := by
  unfold slice
  have hget : (content.drop c)[p - c]? = some content[p] := by
    rw [List.getElem?_drop, Nat.add_sub_cancel' hle, List.getElem?_eq_getElem hlt]
  rw [Nat.succ_sub hle, List.take_add_one, hget]
  rfl

theorem slice_written {p : Nat} {tail : JsString} (h : content.drop p = written name ++ tail) :
    slice content p (p + 1 + name.length + 1) = written name := by
  unfold slice
  have hlength : p + 1 + name.length + 1 - p = (written name).length := by
    rw [length_written]
    omega
  rw [h, hlength, List.take_left]

/-- Where the loop stands: past the closing colon of a shortcode, which it goes on from, or with a text behind it. -/
def Standing (content : JsString) (p c : Nat) (closed : Bool) : Prop :=
  closed = true ∧ c = p + 1 ∧ p < content.length ∨ closed = false ∧ c ≤ p

theorem Standing.letter {p c : Nat} {closed : Bool} (h : Standing content p c closed) (hlt : p < content.length) :
    Standing content (p + 1) c false ∧
      (if closed then slice content c p else slice content c p ++ [content[p]]) = slice content c (p + 1) := by
  rcases h with ⟨rfl, rfl, -⟩ | ⟨rfl, hle⟩
  · refine ⟨.inr ⟨rfl, le_rfl⟩, ?_⟩
    rw [if_pos rfl, slice_self]
    unfold slice
    rw [Nat.sub_eq_zero_of_le (Nat.le_succ p), List.take_zero]
  · exact ⟨.inr ⟨rfl, Nat.le_succ_of_le hle⟩, (slice_succ hlt hle).symm⟩

/-- The name after the colon at a position, as far as it goes. -/
def candidateAt (content : JsString) (p : Nat) : JsString := ((content.drop (p + 1)).takeWhile isNameChar).take emojiNameMaxLen

/-- What the loop refuses a candidate for. -/
def Refused (content : JsString) (p : Nat) : Prop :=
  content[p + 1 + (candidateAt content p).length]? ≠ some (unit ':') ∨ (candidateAt content p).length < emojiNameMinLen ∨
    isNumber (candidateAt content p) = true

theorem shortcodeAt_drop {p : Nat} (hlt : p < content.length) (hcolon : ¬ content[p] ≠ unit ':') :
    shortcodeAt (content.drop p) = some (candidateAt content p) ∧ ¬ Refused content p ∨
    shortcodeAt (content.drop p) = none ∧ Refused content p := by
  have hclose : ((content.drop (p + 1)).drop (candidateAt content p).length).head? =
      content[p + 1 + (candidateAt content p).length]? := by
    rw [List.head?_drop, List.getElem?_drop]
  rw [List.drop_eq_getElem_cons hlt, not_not.1 hcolon]
  simp only [shortcodeAt]
  by_cases hrefused : Refused content p
  · refine .inr ⟨if_neg ?_, hrefused⟩
    rintro ⟨-, hhead, hleast, hnumber⟩
    rcases hrefused with h | h | h
    · exact h (hclose ▸ hhead)
    · exact absurd hleast (not_le.2 h)
    · exact Bool.false_ne_true (hnumber.symm.trans h)
  · refine .inl ⟨if_pos ?_, hrefused⟩
    unfold Refused at hrefused
    rw [not_or, not_or, not_not, not_lt, Bool.not_eq_true, ← hclose] at hrefused
    exact ⟨trivial, hrefused⟩

/-- The loop cuts what is left into its pieces. -/
theorem splitFrom_eq {p c : Nat} {closed : Bool} {segments : List EmojiSegment}
    (hlast : ∀ t, segments.getLast? ≠ some (.text t)) (hstands : Standing content p c closed) :
    splitFrom engine index content p c segments =
      segments ++ ((glyphs engine index).pieces (slice content c p) closed (content.drop p)).map segmentOf := by
  -- a position that begins no glyph leaves one letter more behind
  have hletter {p c : Nat} {closed : Bool} (hlt : p < content.length) (hstands : Standing content p c closed)
      (hread : (glyphs engine index).read (content.drop p) = none) :
      (glyphs engine index).pieces (slice content c p) closed (content.drop p) =
        (glyphs engine index).pieces (slice content c (p + 1)) false (content.drop (p + 1)) := by
    rw [List.drop_eq_getElem_cons hlt] at hread ⊢
    rw [Recogniser.pieces_none hread, (hstands.letter hlt).2]
  fun_induction splitFrom engine index content p c segments generalizing closed with
  | case1 p c segments hlt hcolon ih =>
    -- no colon
    have hnone : shortcodeAt (content.drop p) = none := by
      rw [List.drop_eq_getElem_cons hlt]
      exact shortcodeAt_head hcolon
    rw [ih hlast (hstands.letter hlt).1, hletter hlt hstands (glyphs_none hnone)]
  | case2 =>
    rename_i p c segments hlt hcolon start candidate stop hrefused ih
    -- a colon that no shortcode begins with
    obtain ⟨-, haccepted⟩ | ⟨hnone, -⟩ := shortcodeAt_drop hlt hcolon
    · exact absurd hrefused haccepted
    · rw [ih hlast (hstands.letter hlt).1, hletter hlt hstands (glyphs_none hnone)]
  | case3 =>
    rename_i p c segments hlt hcolon start candidate stop haccepted hunknown ih
    -- a shortcode, but no emoji of the index
    obtain ⟨hsome, -⟩ | ⟨-, hrefused⟩ := shortcodeAt_drop hlt hcolon
    · rw [ih hlast (hstands.letter hlt).1, hletter hlt hstands (glyphs_unknown hsome hunknown)]
    · exact absurd hrefused haccepted
  | case4 =>
    rename_i p c segments hlt hcolon start candidate stop haccepted emoji hemoji ih
    -- a glyph: the text before it is emitted, and the loop stands on its closing colon
    obtain ⟨hsome, -⟩ | ⟨-, hrefused⟩ := shortcodeAt_drop hlt hcolon
    · have hread : (glyphs engine index).read (content.drop p) = some (written candidate, emoji) :=
        glyphs_some.2 ⟨candidate, rfl, hsome, hemoji⟩
      obtain ⟨tail, htail⟩ := (shortcodeAt_iff.1 hsome).2
      have hslice : slice content p (stop + 1) = written candidate := slice_written htail.symm
      have hresume : Recogniser.resume (content.drop p) (written candidate) = content.drop stop := by
        unfold Recogniser.resume
        rw [List.drop_drop, length_written]
        congr 1
        omega
      have hstop : stop < content.length := by
        rw [not_or, not_not] at haccepted
        exact (List.getElem?_eq_some_iff.1 haccepted.1).1
      have hemit : ∀ t, (pushText segments (slice content c p) ++ [EmojiSegment.emoji emoji (written candidate)]).getLast? ≠
          some (.text t) := by
        intro t h
        rw [List.getLast?_concat] at h
        cases h
      -- `cursor` is past `position`, so nothing is pending
      have hnothing : slice content (stop + 1) stop = [] := by
        unfold slice
        rw [Nat.sub_eq_zero_of_le (Nat.le_succ stop), List.take_zero]
      rw [hslice] at ih ⊢
      rw [ih hemit (.inl ⟨rfl, rfl, hstop⟩), hnothing, pushText_eq hlast]
      rw [List.drop_eq_getElem_cons hlt] at hread hresume ⊢
      rw [Recogniser.pieces_some hread, hresume, List.map_append, List.map_cons, List.append_assoc, List.append_assoc]
      rfl
    · exact absurd hrefused haccepted
  | case5 p c segments hlt =>
    rcases hstands with ⟨-, -, h⟩ | ⟨rfl, hle⟩
    · exact absurd h hlt
    · have hend : content.drop p = [] := List.drop_eq_nil_of_le (not_lt.1 hlt)
      have hall : slice content c p = content.drop c := by
        unfold slice
        refine List.take_of_length_le ?_
        rw [List.length_drop]
        omega
      rw [hend, hall, Recogniser.pieces, pushText_eq hlast]

/-- Without an emoji to resolve to, all of it is text. -/
theorem pieces_unresolved (hread : ∀ s, (glyphs engine index).read s = none) (pending : JsString) :
    (glyphs engine index).pieces pending false s = Piece.ofText (pending ++ s) := by
  induction s generalizing pending with
  | nil => rw [Recogniser.pieces, List.append_nil]
  | cons v s ih =>
    rw [Recogniser.pieces_none (hread _), if_neg Bool.false_ne_true, ih, List.append_assoc]
    rfl

theorem splitEmoji_eq : splitEmoji engine content index = ((glyphs engine index).pieces [] false content).map segmentOf := by
  unfold splitEmoji
  by_cases hsize : index.size = 0
  · have hnone : ∀ k, index.get k = none := by
      intro k
      have hrows : index.rows = [] := List.length_eq_zero_iff.1 hsize
      unfold Map.get Table.find
      rw [hrows]
      rfl
    have hread : ∀ s, (glyphs engine index).read s = none := by
      intro s
      rcases hs : shortcodeAt s with _ | name
      · exact glyphs_none hs
      · exact glyphs_unknown hs (hnone _)
    rw [if_pos hsize, pieces_unresolved hread]
    cases content <;> rfl
  · have hstands : Standing content 0 0 false := .inr ⟨rfl, le_rfl⟩
    rw [if_neg hsize, splitFrom_eq (fun t h => (by cases h)) hstands]
    rfl

/-! ## What a split is -/

/-- What a segment was in the text. -/
def EmojiSegment.source : EmojiSegment → JsString
  | .text t => t
  | .emoji _ shortcode => shortcode

def EmojiSegment.isText : EmojiSegment → Bool
  | .text _ => true
  | .emoji .. => false

/-- The glyph a segment draws, and the shortcode it was written as. -/
def EmojiSegment.glyph : EmojiSegment → Option (JsString × CustomEmoji)
  | .text _ => none
  | .emoji emoji shortcode => some (shortcode, emoji)

/-- The segments are the text: they write it again, no text among them is empty or next to another, and they draw what
its shortcodes name, in order. -/
structure Splits (engine : Engine) (index : EmojiIndex) (content : JsString) (segments : List EmojiSegment) : Prop where
  again : segments.flatMap EmojiSegment.source = content
  apart : segments.IsChain fun a b => a.isText = true → b.isText = false
  nonempty : ∀ s ∈ segments, s.isText = true → s.source ≠ []
  drawn : segments.filterMap EmojiSegment.glyph = (shortcodes content).filterMap fun name =>
    (index.get (engine.toLowerCase name)).map fun emoji => (written name, emoji)

/-- Two shortcodes that the index has emoji for share a colon. -/
def SharesColon (engine : Engine) (index : EmojiIndex) (content : JsString) : Prop :=
  ∃ before name name' after, content = before ++ unit ':' :: (name ++ unit ':' :: (name' ++ unit ':' :: after)) ∧
    IsShortcode name ∧ IsShortcode name' ∧ (index.get (engine.toLowerCase name)).isSome = true ∧
    (index.get (engine.toLowerCase name')).isSome = true

theorem source_segments (ps : List (Piece UInt16 CustomEmoji)) :
    (ps.map segmentOf).flatMap EmojiSegment.source = ps.flatMap Piece.written := by
  rw [List.flatMap_map]
  exact congrArg (ps.flatMap ·) (funext fun p => by cases p <;> rfl)

theorem glyph_segments (ps : List (Piece UInt16 CustomEmoji)) :
    (ps.map segmentOf).filterMap EmojiSegment.glyph = ps.filterMap Piece.value := by
  rw [List.filterMap_map]
  exact congrArg (ps.filterMap ·) (funext fun p => by cases p <;> rfl)

theorem isText_segmentOf (p : Piece UInt16 CustomEmoji) : (segmentOf p).isText = p.isText := by
  cases p <;> rfl

/-- The texts are apart and the glyphs are drawn, whatever the text. -/
theorem splitEmoji_draws : (splitEmoji engine content index).IsChain (fun a b => a.isText = true → b.isText = false) ∧
    (∀ s ∈ splitEmoji engine content index, s.isText = true → s.source ≠ []) ∧
    (splitEmoji engine content index).filterMap EmojiSegment.glyph = (shortcodes content).filterMap fun name =>
      (index.get (engine.toLowerCase name)).map fun emoji => (written name, emoji) := by
  obtain ⟨hchain, hne⟩ := Recogniser.texts_pieces (R := glyphs engine index) [] false content
  rw [splitEmoji_eq]
  refine ⟨?_, fun s hs _ => ?_, ?_⟩
  · rw [List.isChain_map]
    exact hchain.imp fun p q h => by rwa [isText_segmentOf, isText_segmentOf]
  · obtain ⟨p, hp, rfl⟩ := List.mem_map.1 hs
    have hwritten : (segmentOf p).source = p.written := by cases p <;> rfl
    rw [hwritten]
    exact hne p hp
  · rw [glyph_segments, Recogniser.values_pieces, shortcodes, List.filterMap_filterMap]
    rfl

theorem shares_iff : (glyphs engine index).Shares content ↔ SharesColon engine index content := by
  constructor
  · rintro ⟨i, w, emoji, hread, hsome⟩
    obtain ⟨name, rfl, hname, hemoji⟩ := glyphs_some.1 hread
    obtain ⟨⟨w', emoji'⟩, hread'⟩ := Option.isSome_iff_exists.1 hsome
    obtain ⟨name', rfl, hname', hemoji'⟩ := glyphs_some.1 hread'
    obtain ⟨hvalid, tail, htail⟩ := shortcodeAt_iff.1 hname
    obtain ⟨hvalid', after, hafter⟩ := shortcodeAt_iff.1 hname'
    -- the first token up to its closing colon, and from there on the second
    have hfirst : content.drop i = unit ':' :: name ++ Recogniser.resume (content.drop i) (written name) := by
      unfold Recogniser.resume
      rw [length_written, ← htail]
      have htake : unit ':' :: name ++ (unit ':' :: tail) = written name ++ tail := by
        rw [written, List.cons_append, List.cons_append, List.append_assoc]
        rfl
      have hdrop : (written name ++ tail).drop (name.length + 2 - 1) = unit ':' :: tail := by
        rw [← htake]
        exact List.drop_left
      rw [hdrop, htake]
    refine ⟨content.take i, name, name', after, ?_, hvalid, hvalid', by rw [hemoji]; rfl, by rw [hemoji']; rfl⟩
    rw [← hafter] at hfirst
    conv_lhs => rw [← List.take_append_drop i content, hfirst]
    simp [written]
  · rintro ⟨before, name, name', after, rfl, hvalid, hvalid', hknown, hknown'⟩
    obtain ⟨emoji, hemoji⟩ := Option.isSome_iff_exists.1 hknown
    obtain ⟨emoji', hemoji'⟩ := Option.isSome_iff_exists.1 hknown'
    have hdrop : (before ++ unit ':' :: (name ++ unit ':' :: (name' ++ unit ':' :: after))).drop before.length =
        unit ':' :: (name ++ unit ':' :: (name' ++ unit ':' :: after)) := List.drop_left
    have hresume : Recogniser.resume (unit ':' :: (name ++ unit ':' :: (name' ++ unit ':' :: after))) (written name) =
        unit ':' :: (name' ++ unit ':' :: after) := by
      unfold Recogniser.resume
      rw [length_written, show name.length + 2 - 1 = name.length + 1 from rfl, List.drop_succ_cons, List.drop_left]
    refine ⟨before.length, written name, emoji, ?_, ?_⟩
    · rw [hdrop]
      exact glyphs_some.2 ⟨name, rfl, shortcodeAt_iff.2 ⟨hvalid, name' ++ unit ':' :: after, by simp [written]⟩, hemoji⟩
    · rw [hdrop, hresume, glyphs_some.2 ⟨name', rfl, shortcodeAt_iff.2 ⟨hvalid', after, by simp [written]⟩, hemoji'⟩]
      rfl

end Split

/-- A text is split into itself, with no text among its segments next to another and every glyph its shortcodes name in
order, exactly where no two of these shortcodes share a colon. -/
theorem splitEmoji_splits_iff (engine : Engine) (content : JsString) (index : EmojiIndex) :
    Splits engine index content (splitEmoji engine content index) ↔ ¬ SharesColon engine index content := by
  have hagain : (splitEmoji engine content index).flatMap EmojiSegment.source = content ↔ ¬ SharesColon engine index content := by
    rw [splitEmoji_eq, source_segments, Recogniser.written_pieces_iff, shares_iff]
  constructor
  · intro h
    exact hagain.1 h.again
  · intro h
    obtain ⟨hapart, hnonempty, hdrawn⟩ := @splitEmoji_draws engine index content
    exact ⟨hagain.2 h, hapart, hnonempty, hdrawn⟩

/-- Two glyphs. -/
def twoGlyphs : EmojiIndex :=
  indexEmoji [{ name := units "aa", imageUrl := units "https://genzh.test/aa.png", isAnimated := false },
    { name := units "bb", imageUrl := units "https://genzh.test/bb.png", isAnimated := false }]

/-- Written with one colon between them, they are drawn as if there were two. -/
theorem colon_written_twice :
    ¬ Splits tables twoGlyphs (units ":aa:bb:") (splitEmoji tables (units ":aa:bb:") twoGlyphs) ∧
    (splitEmoji tables (units ":aa:bb:") twoGlyphs).flatMap EmojiSegment.source = units ":aa::bb:" := by
  have hsource : (splitEmoji tables (units ":aa:bb:") twoGlyphs).flatMap EmojiSegment.source = units ":aa::bb:" := by
    rw [splitEmoji_eq, source_segments]
    decide +kernel
  refine ⟨fun h => ?_, hsource⟩
  have hagain := h.again
  rw [hsource] at hagain
  exact absurd hagain (by decide +kernel)

end Genzh.Client
