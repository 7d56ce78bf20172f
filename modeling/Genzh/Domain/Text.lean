/-
The string functions of the standard library that the services call, on the list of a string's
characters. Lengths are counts of characters, as `chars().count()` is.
-/
import Genzh.Domain.Basic
import Mathlib.Data.List.DropRight

namespace Genzh.Domain

/-- `char::is_whitespace`: the Unicode property `White_Space`. -/
def isWhitespace (c : Char) : Bool :=
  (0x09 ≤ c.toNat && c.toNat ≤ 0x0D) || c.toNat == 0x20 || c.toNat == 0x85 || c.toNat == 0xA0 ||
    c.toNat == 0x1680 || (0x2000 ≤ c.toNat && c.toNat ≤ 0x200A) || c.toNat == 0x2028 || c.toNat == 0x2029 ||
    c.toNat == 0x202F || c.toNat == 0x205F || c.toNat == 0x3000

/-- `str::trim`. -/
def trim (s : String) : String := String.ofList ((s.toList.dropWhile isWhitespace).rdropWhile isWhitespace)

/-- `str::to_lowercase`, for the ASCII letters of the text; the callers look for ASCII patterns with
none of the letters a non-ASCII one lowers to. -/
def asciiLowercase (cs : List Char) : List Char := cs.map Char.toLower

/-- `match_indices(pat).count()`, for a pattern that does not overlap itself. -/
def countMatches (pat cs : List Char) : Nat := cs.tails.countP fun t => pat.isPrefixOf t

/-- What is used of `str::to_lowercase`: a text of ASCII characters becomes that of their lower cases. -/
def LowersAscii (toLowercase : String → String) : Prop :=
  ∀ s : String, (∀ c ∈ s.toList, c.toNat < 128) → (toLowercase s).toList = asciiLowercase s.toList

/-- A check that refuses, and what it lets through. -/
theorem refuse_eq_ok {E A : Type} {p : Prop} [Decidable p] {e : E} {r : Except E A} {a : A} :
    (if p then .error e else r) = Except.ok a ↔ ¬p ∧ r = .ok a := by
  split
  · rename_i hp
    exact iff_of_false (by rintro ⟨⟩) fun h => h.1 hp
  · rename_i hp
    exact (and_iff_right hp).symm

/-! ## Case and whitespace -/

/-- The lower case of an ASCII letter stands 32 places after it, and nothing else has one. -/
theorem toLower_shift (c : Char) :
    (c.toNat < 65 ∨ 90 < c.toNat) ∧ c.toLower = c ∨
      (65 ≤ c.toNat ∧ c.toNat ≤ 90) ∧ c.toLower.toNat = c.toNat + 32 := by
  unfold Char.toLower
  split
  · rename_i h
    have hlow : 65 ≤ c.toNat := h.1
    have hhigh : c.toNat ≤ 90 := h.2
    refine .inr ⟨⟨hlow, hhigh⟩, ?_⟩
    have hadd : (c.val + ('a'.val - 'A'.val)).toNat = (c.val.toNat + 32) % 2 ^ 32 := UInt32.toNat_add ..
    have hval : c.val.toNat = c.toNat := rfl
    rw [hval] at hadd
    exact hadd.trans (Nat.mod_eq_of_lt (by omega))
  · rename_i h
    refine .inl ⟨?_, rfl⟩
    by_contra hnot
    have hlow : 65 ≤ c.toNat := by omega
    have hhigh : c.toNat ≤ 90 := by omega
    exact h ⟨hlow, hhigh⟩

/-- What has none of the characters at either end is left as it is. -/
theorem strip_of_none {p : Char → Bool} {cs : List Char} (h : ∀ c ∈ cs, p c = false) :
    (cs.dropWhile p).rdropWhile p = cs := by
  have hleft : cs.dropWhile p = cs := by
    rw [List.dropWhile_eq_self_iff]
    intro hlength
    rw [h _ (List.getElem_mem hlength)]
    exact Bool.false_ne_true
  have hright : cs.rdropWhile p = cs := by
    rw [List.rdropWhile_eq_self_iff]
    intro hne
    rw [h _ (List.getLast_mem hne)]
    exact Bool.false_ne_true
  rw [hleft, hright]

/-- A text without whitespace is its own trim. -/
theorem trim_of_not_isWhitespace {s : String} (h : ∀ c ∈ s.toList, isWhitespace c = false) : trim s = s := by
  rw [trim, strip_of_none h, String.ofList_toList]

/-- What `trim` leaves begins with no whitespace and ends with none. -/
theorem trim_trim (s : String) : trim (trim s) = trim s := by
  have hleft : ((s.toList.dropWhile isWhitespace).rdropWhile isWhitespace).dropWhile isWhitespace =
      (s.toList.dropWhile isWhitespace).rdropWhile isWhitespace := by
    rw [List.dropWhile_eq_self_iff]
    intro hlength
    have hstart := List.rdropWhile_prefix isWhitespace (s.toList.dropWhile isWhitespace)
    rw [hstart.getElem hlength]
    exact List.dropWhile_get_zero_not _ _ (hlength.trans_le hstart.length_le)
  rw [trim, trim, String.toList_ofList, hleft, List.rdropWhile_idempotent]

end Genzh.Domain
