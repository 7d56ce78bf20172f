/-
Strings as the client has them: sequences of UTF-16 code units. A well-formed one encodes a sequence of characters; an
ASCII character is one unit, its own, and any other is written with units that are not ASCII.

How Unicode maps letters to lower and upper case is a table of the engine's, or of the server's standard library, and an
argument. What is relied on is that ASCII letters are mapped as ASCII has it, and that no other character's lower case
contains an ASCII character but the i of a dotted capital I and the k of the Kelvin sign.
-/
import Genzh.Domain.Text
import Genzh.Lib.Recode

namespace Genzh.Client

open Genzh.Lib Genzh.Domain

/-- A string of the client. -/
abbrev JsString := List UInt16

/-- The code unit of a character of the basic plane. -/
def unit (c : Char) : UInt16 := UInt16.ofNat c.toNat

/-- The code units of a character: one in the basic plane, and a pair of surrogates above it. -/
def encode (c : Char) : JsString :=
  if c.toNat < 0x10000 then [unit c]
  else [UInt16.ofNat (0xD800 + (c.toNat - 0x10000) / 0x400), UInt16.ofNat (0xDC00 + (c.toNat - 0x10000) % 0x400)]

def utf16 (l : List Char) : JsString := l.flatMap encode

def isAscii (c : Char) : Bool := c.toNat < 128

/-- `s.slice(start, stop)` -/
def slice (s : JsString) (start stop : Nat) : JsString := (s.drop start).take (stop - start)

/-- The units of a literal. -/
def units (s : String) : JsString := s.toList.map unit

/-! ## Encoding -/

theorem toNat_lt (c : Char) : c.toNat < 0x110000 := by
  have h := c.valid
  change c.toNat < 0xD800 ∨ (0xDFFF < c.toNat ∧ c.toNat < 0x110000) at h
  omega

theorem not_surrogate (c : Char) : c.toNat < 0xD800 ∨ 0xDFFF < c.toNat := by
  have h := c.valid
  change c.toNat < 0xD800 ∨ (0xDFFF < c.toNat ∧ c.toNat < 0x110000) at h
  omega

theorem toNat_unit {c : Char} (h : c.toNat < 0x10000) : (unit c).toNat = c.toNat := by
  unfold unit
  rw [UInt16.toNat_ofNat']
  exact Nat.mod_eq_of_lt h

/-- What a character is encoded as: itself, or a high and a low surrogate. -/
theorem encode_cases (c : Char) :
    (c.toNat < 0x10000 ∧ encode c = [unit c]) ∨
    (0x10000 ≤ c.toNat ∧ ∃ high low : UInt16, encode c = [high, low] ∧
      high.toNat = 0xD800 + (c.toNat - 0x10000) / 0x400 ∧ low.toNat = 0xDC00 + (c.toNat - 0x10000) % 0x400) := by
  unfold encode
  have hlt := toNat_lt c
  by_cases h : c.toNat < 0x10000
  · exact .inl ⟨h, if_pos h⟩
  · right
    rw [if_neg h]
    refine ⟨by omega, _, _, rfl, ?_, ?_⟩
    · rw [UInt16.toNat_ofNat', Nat.mod_eq_of_lt (by omega)]
    · rw [UInt16.toNat_ofNat', Nat.mod_eq_of_lt (by omega)]

theorem char_eq {c d : Char} (h : c.toNat = d.toNat) : c = d := Char.toNat_inj.1 h

/-- No encoding begins another. -/
theorem encode_append_inj {c d : Char} {u v : JsString} (h : encode c ++ u = encode d ++ v) : c = d ∧ u = v := by
  have hc := not_surrogate c
  have hd := not_surrogate d
  rcases encode_cases c with ⟨hlt, he⟩ | ⟨hge, high, low, he, hhigh, hlow⟩ <;>
    rcases encode_cases d with ⟨hlt', he'⟩ | ⟨hge', high', low', he', hhigh', hlow'⟩
  · rw [he, he'] at h
    obtain ⟨hunit, rfl⟩ := List.cons.inj h
    exact ⟨char_eq (by rw [← toNat_unit hlt, ← toNat_unit hlt', hunit]), rfl⟩
  · -- a surrogate is no character
    rw [he, he'] at h
    have hunit := congrArg UInt16.toNat (List.cons.inj h).1
    have hd' := toNat_lt d
    rw [toNat_unit hlt] at hunit
    omega
  · rw [he, he'] at h
    have hunit := congrArg UInt16.toNat (List.cons.inj h).1
    have hc' := toNat_lt c
    rw [toNat_unit hlt'] at hunit
    omega
  · rw [he, he'] at h
    obtain ⟨rfl, htail⟩ := List.cons.inj h
    obtain ⟨rfl, rfl⟩ := List.cons.inj htail
    exact ⟨char_eq (by omega), rfl⟩

theorem utf16_cons (c : Char) (l : List Char) : utf16 (c :: l) = encode c ++ utf16 l := List.flatMap_cons

theorem encode_ne_nil (c : Char) : encode c ≠ [] := by
  rcases encode_cases c with ⟨-, he⟩ | ⟨-, high, low, he, -⟩ <;> rw [he] <;> exact List.cons_ne_nil _ _

theorem utf16_injective : Function.Injective utf16 := by
  intro l
  induction l with
  | nil =>
    intro m h
    cases m with
    | nil => rfl
    | cons d m =>
      rw [utf16_cons] at h
      exact absurd (List.append_eq_nil_iff.1 h.symm).1 (encode_ne_nil d)
  | cons c l ih =>
    intro m h
    cases m with
    | nil =>
      rw [utf16_cons] at h
      exact absurd (List.append_eq_nil_iff.1 h).1 (encode_ne_nil c)
    | cons d m =>
      rw [utf16_cons, utf16_cons] at h
      obtain ⟨rfl, hrest⟩ := encode_append_inj h
      rw [ih hrest]

theorem utf16_append (l m : List Char) : utf16 (l ++ m) = utf16 l ++ utf16 m := List.flatMap_append

/-- The unit of an ASCII character. -/
def asciiUnit (c : Char) : Option UInt16 := if isAscii c then some (unit c) else none

/-- Not the unit of an ASCII character. -/
def Foreign (v : UInt16) : Prop := 128 ≤ v.toNat

/-- An ASCII unit in the encoding of a text is a character of it, and cuts it in two. -/
theorem utf16_cut {l : List Char} {before after : JsString} {v : UInt16} (hv : ¬ Foreign v)
    (h : utf16 l = before ++ v :: after) :
    ∃ l₁ c l₂, l = l₁ ++ c :: l₂ ∧ utf16 l₁ = before ∧ c.toNat < 128 ∧ unit c = v ∧ utf16 l₂ = after := by
  unfold Foreign at hv
  induction l generalizing before with
  | nil => exact absurd h.symm (List.append_ne_nil_of_right_ne_nil _ (List.cons_ne_nil _ _))
  | cons d l ih =>
    have hgo {rest : JsString} (hbefore : before = encode d ++ rest) (hrest : utf16 l = rest ++ v :: after) :
        ∃ l₁ c l₂, d :: l = l₁ ++ c :: l₂ ∧ utf16 l₁ = before ∧ c.toNat < 128 ∧ unit c = v ∧ utf16 l₂ = after := by
      obtain ⟨l₁, c, l₂, rfl, hl₁, hc, hunit, hl₂⟩ := ih hrest
      exact ⟨d :: l₁, c, l₂, rfl, by rw [utf16_cons, hl₁, hbefore], hc, hunit, hl₂⟩
    rw [utf16_cons] at h
    rcases encode_cases d with ⟨hlt, he⟩ | ⟨hge, high, low, he, hhigh, hlow⟩ <;> rw [he] at h hgo
    · rcases before with _ | ⟨w, before⟩
      · obtain ⟨rfl, hafter⟩ := List.cons.inj h
        rw [toNat_unit hlt] at hv
        exact ⟨[], d, l, rfl, rfl, by omega, rfl, hafter⟩
      · obtain ⟨rfl, hrest⟩ := List.cons.inj h
        exact hgo rfl hrest
    · rcases before with _ | ⟨w, _ | ⟨w', before⟩⟩
      · rw [← (List.cons.inj h).1] at hv
        omega
      · rw [← (List.cons.inj (List.cons.inj h).2).1] at hv
        omega
      · obtain ⟨hw, h⟩ := List.cons.inj h
        obtain ⟨hw', hrest⟩ := List.cons.inj h
        exact hgo (by rw [hw, hw']; rfl) hrest

theorem asciiUnit_some {c : Char} {v : UInt16} (h : asciiUnit c = some v) : c.toNat < 128 ∧ v = unit c := by
  unfold asciiUnit isAscii at h
  split at h
  · rename_i hc
    exact ⟨of_decide_eq_true hc, (Option.some.inj h).symm⟩
  · cases h

theorem asciiUnit_none {c : Char} (h : asciiUnit c = none) : 128 ≤ c.toNat := by
  unfold asciiUnit isAscii at h
  split at h
  · cases h
  · rename_i hc
    exact Nat.le_of_not_lt fun hlt => hc (decide_eq_true hlt)

theorem asciiUnit_faithful : Faithful asciiUnit := by
  rintro c d v hc hd
  obtain ⟨hc, rfl⟩ := asciiUnit_some hc
  obtain ⟨hd, heq⟩ := asciiUnit_some hd
  refine char_eq ?_
  rw [← toNat_unit (c := c) (by omega), ← toNat_unit (c := d) (by omega), heq]

/-- The encoding of a text writes it. -/
theorem recodes_utf16 (l : List Char) : Recodes asciiUnit Foreign l (utf16 l) := by
  induction l with
  | nil => exact .nil
  | cons c l ih =>
    rw [utf16_cons]
    by_cases hc : c.toNat < 128
    · rcases encode_cases c with ⟨-, he⟩ | ⟨hge, -⟩
      · rw [he]
        exact .letter (if_pos (decide_eq_true hc)) ih
      · omega
    · refine .other (if_neg fun h => hc (of_decide_eq_true h)) (encode_ne_nil c) ?_ ih
      unfold Foreign
      rintro v hv
      rcases encode_cases c with ⟨hlt, he⟩ | ⟨-, high, low, he, hhigh, hlow⟩ <;> rw [he] at hv
      · rw [List.mem_singleton.1 hv, toNat_unit hlt]
        omega
      · rcases List.mem_pair.1 hv with rfl | rfl <;> omega

/-- ASCII text is encoded unit by unit. -/
theorem utf16_ascii {l : List Char} (h : ∀ c ∈ l, isAscii c = true) : utf16 l = l.map unit := by
  induction l with
  | nil => rfl
  | cons c l ih =>
    have hc : c.toNat < 128 := of_decide_eq_true (h c List.mem_cons_self)
    rw [utf16_cons, ih fun d hd => h d (List.mem_cons_of_mem _ hd)]
    rcases encode_cases c with ⟨-, he⟩ | ⟨hge, -⟩
    · rw [he]
      rfl
    · omega

theorem filterMap_asciiUnit {l : List Char} (h : ∀ c ∈ l, (asciiUnit c).isSome = true) : l.filterMap asciiUnit = utf16 l := by
  have hascii : ∀ c ∈ l, isAscii c = true := by
    intro c hc
    obtain ⟨v, hv⟩ := Option.isSome_iff_exists.1 (h c hc)
    exact decide_eq_true (asciiUnit_some hv).1
  rw [utf16_ascii hascii]
  induction l with
  | nil => rfl
  | cons c l ih =>
    have hc : asciiUnit c = some (unit c) := if_pos (hascii c List.mem_cons_self)
    rw [List.filterMap_cons_some hc, List.map_cons,
      ih (fun d hd => h d (List.mem_cons_of_mem _ hd)) fun d hd => hascii d (List.mem_cons_of_mem _ hd)]

/-- What holds of the ASCII characters one by one. -/
theorem ascii_cases {P : Char → Prop} (h : ∀ n < 128, P (Char.ofNat n)) {c : Char} (hc : c.toNat < 128) : P c := by
  have hP := h c.toNat hc
  rwa [Char.ofNat_toNat] at hP

theorem toLower_ascii {c : Char} (hc : c.toNat < 128) : c.toLower.toNat < 128 :=
  ascii_cases (P := fun c => c.toLower.toNat < 128) (by decide) hc

theorem toLower_other {c : Char} (hc : 128 ≤ c.toNat) : c.toLower = c := by
  unfold Char.toLower
  refine dif_neg ?_
  rintro ⟨-, h⟩
  have hle : c.toNat ≤ 'Z'.toNat := h
  have hz : 'Z'.toNat = 90 := rfl
  omega

theorem isDigit_ascii {c : Char} (h : c.isDigit = true) : c.toNat < 128 := by
  unfold Char.isDigit at h
  rw [Bool.and_eq_true, decide_eq_true_eq, decide_eq_true_eq] at h
  have hle : c.toNat ≤ '9'.toNat := h.2
  have hnine : '9'.toNat = 57 := rfl
  omega

theorem isAlphanum_ascii {c : Char} (h : c.isAlphanum = true) : c.toNat < 128 := by
  unfold Char.isAlphanum Char.isAlpha Char.isUpper Char.isLower at h
  rw [Bool.or_eq_true, Bool.or_eq_true, decide_eq_true_eq, Bool.and_eq_true] at h
  rcases h with (⟨-, h⟩ | ⟨-, h⟩) | h
  · have hle : c.toNat ≤ 'Z'.toNat := h
    have hz : 'Z'.toNat = 90 := rfl
    omega
  · have hle : c.toNat ≤ 'z'.toNat := of_decide_eq_true h
    have hz : 'z'.toNat = 122 := rfl
    omega
  · exact isDigit_ascii h

/-- A class of ASCII units has no foreign one. -/
theorem contains_foreign {members : JsString} (h : (members.all fun w => w.toNat < 128) = true) {v : UInt16} (hv : Foreign v) :
    members.contains v = false := by
  rw [Bool.eq_false_iff, Ne, List.contains_iff_mem]
  intro hmem
  have hlt := of_decide_eq_true (List.all_eq_true.1 h v hmem)
  unfold Foreign at hv
  omega

/-! ## Case -/

/-- What Unicode says of the lower case of a character. -/
structure LowerCase (c : Char) (image : List Char) : Prop where
  nonempty : image ≠ []
  ascii : c.toNat < 128 → image = [c.toLower]
  other : 128 ≤ c.toNat → ∀ d ∈ image, d.toNat < 128 → d = 'i' ∨ d = 'k'

/-- A text in lower case: each of its characters is, whatever stands around it. -/
def LowerText (l lowered : List Char) : Prop := ∃ images, List.Forall₂ LowerCase l images ∧ lowered = images.flatten

/-- `str::to_lowercase`. -/
def Lowers (toLowercase : String → String) : Prop := ∀ s, LowerText s.toList (toLowercase s).toList

/-- The client's tables: `toLowerCase` of a string, and `toUppercase` of a code unit. -/
structure Engine where
  toLowerCase : JsString → JsString
  toUppercase : UInt16 → JsString

structure Engine.Conforms (engine : Engine) : Prop where
  lower : ∀ l, ∃ lowered, LowerText l lowered ∧ engine.toLowerCase (utf16 l) = utf16 lowered
  upper : ∀ c, isAscii c = true → engine.toUppercase (unit c) = [unit c.toUpper]

theorem LowerText.ascii {l lowered : List Char} (h : LowerText l lowered) (hl : ∀ c ∈ l, isAscii c = true) :
    lowered = asciiLowercase l := by
  obtain ⟨images, himages, rfl⟩ := h
  unfold asciiLowercase
  induction himages with
  | nil => rfl
  | @cons c image l images hc hrest ih =>
    rw [List.flatten_cons, hc.ascii (of_decide_eq_true (hl c List.mem_cons_self)),
      ih fun d hd => hl d (List.mem_cons_of_mem _ hd)]
    rfl

/-- Lower case, written in another alphabet: ASCII letters as they are in lower case, and other characters with letters
that are foreign to it. -/
theorem LowerText.recodes {β : Type} (code : Char → Option β) (foreign : β → Prop) (write : Char → List β)
    (hascii : ∀ c, c.toNat < 128 → ∃ b, code c = some b ∧ write c = [b]) (hother : ∀ c, 128 ≤ c.toNat → code c = none)
    (hne : ∀ c, write c ≠ []) (hforeign : ∀ d, (d.toNat < 128 → d = 'i' ∨ d = 'k') → ∀ v ∈ write d, foreign v)
    {l lowered : List Char} (h : LowerText l lowered) : Recodes code foreign (asciiLowercase l) (lowered.flatMap write) := by
  obtain ⟨images, himages, rfl⟩ := h
  unfold asciiLowercase
  induction himages with
  | nil => exact .nil
  | @cons c image l images hc hrest ih =>
    rw [List.map_cons, List.flatten_cons, List.flatMap_append]
    by_cases hlt : c.toNat < 128
    · obtain ⟨b, hb, hwrite⟩ := hascii c.toLower (toLower_ascii hlt)
      rw [hc.ascii hlt, List.flatMap_singleton, hwrite]
      exact .letter hb ih
    · have hge : 128 ≤ c.toNat := by omega
      rw [toLower_other hge]
      refine .other (hother c hge) ?_ ?_ ih
      · obtain ⟨d, image, rfl⟩ := List.exists_cons_of_ne_nil hc.nonempty
        rw [List.flatMap_cons]
        exact fun h => hne d (List.append_eq_nil_iff.1 h).1
      · rintro v hv
        obtain ⟨d, hd, hv⟩ := List.mem_flatMap.1 hv
        exact hforeign d (hc.other hge d hd) v hv

theorem Engine.Conforms.lower_ascii {engine : Engine} (h : engine.Conforms) {l : List Char} (hl : ∀ c ∈ l, isAscii c = true) :
    engine.toLowerCase (utf16 l) = utf16 (asciiLowercase l) := by
  obtain ⟨lowered, hlowered, heq⟩ := h.lower l
  rw [heq, hlowered.ascii hl]

end Genzh.Client
