/-
Deriving a usable handle from what an identity provider tells us. Nothing here talks to storage; making the
result unique does, and that is the sign-in's.

A length is a count of bytes in the source. It is only ever compared with a limit where the text is ASCII,
so it is a count of characters here.
-/
import Genzh.Domain.User

namespace Genzh.Auth

open Genzh.Domain

namespace Handle

/-- The first `n` characters of an opaque provider id. -/
def snippet (value : String) (n : Nat) : List Char := value.toList.take n

/-- `trim_matches('.')`. -/
def trimDots (cs : List Char) : List Char := (cs.dropWhile (· == '.')).rdropWhile (· == '.')

/-- Whatever a handle cannot have becomes an underscore. -/
def flatten (toLowercase : String → String) (raw : String) : List Char :=
  (toLowercase raw).toList.map fun c => if isHandleLetter c then c else '_'

/-- A text too short for a handle is lengthened. -/
def padded (seed : String) (cs : List Char) : List Char :=
  if cs.length < handleMinLen then cs ++ '_' :: snippet seed 4 else cs

/-- Force an arbitrary string into the shape a handle is allowed to have. -/
def sanitize (toLowercase : String → String) (raw seed : String) : String :=
  let handle := trimDots ((padded seed (flatten toLowercase raw)).take handleMaxLen)
  if handle.isEmpty then String.ofList ("user_".toList ++ snippet seed 8) else String.ofList handle

/-- What is before the first `@`. -/
def localPart (address : String) : String := String.ofList (address.toList.takeWhile (· ≠ '@'))

/-- What a provider offered, in the order we would rather use it. -/
def preferred (toLowercase : String → String) (suggested email : Option String) (provider providerUserId : String) :
    String :=
  let raw := (suggested.or (email.map localPart)).getD (provider ++ "_" ++ String.ofList (snippet providerUserId 6))
  sanitize toLowercase raw providerUserId

/-- A candidate built from a base and a suffix, which is the part that survives the cap. -/
def withSuffix (base suffix : String) : String :=
  if handleMaxLen < base.length + suffix.length then
    String.ofList (base.toList.take (handleMaxLen - suffix.length)) ++ suffix
  else base ++ suffix

/-- A digit of base sixteen. -/
def hexDigit (n : Nat) : Char := "0123456789abcdef".toList.getD n '0'

/-- `Uuid::to_string`: the digits in groups of eight, four, four, four and twelve. -/
def uuidString (u : Uuid) : List Char :=
  let digits := (List.range 32).map fun i => hexDigit (u.toNat / 16 ^ (31 - i) % 16)
  digits.take 8 ++ '-' :: (digits.drop 8).take 4 ++ '-' :: (digits.drop 12).take 4 ++
    '-' :: (digits.drop 16).take 4 ++ '-' :: digits.drop 20

/-- The last resort when a base keeps colliding. -/
def random (u : Uuid) : String := String.ofList ("u_".toList ++ (uuidString u).take 12)

/-! ## What is in a handle -/

variable {toLowercase : String → String}

theorem mem_trimDots {cs : List Char} {c : Char} (h : c ∈ trimDots cs) : c ∈ cs :=
  (List.dropWhile_suffix _).subset ((List.rdropWhile_prefix _ _).subset h)

variable {seed : String} (hseed : '@' ∉ seed.toList)

theorem not_mem_flatten {raw : String} : '@' ∉ flatten toLowercase raw := by
  intro h
  obtain ⟨c, -, hc⟩ := List.mem_map.1 h
  split at hc
  · subst hc
    rename_i hl
    exact absurd hl (by decide)
  · exact absurd hc (by decide)

include hseed in
theorem not_mem_padded {cs : List Char} (h : '@' ∉ cs) : '@' ∉ padded seed cs := by
  unfold padded
  split
  · simp only [List.mem_append, List.mem_cons, not_or]
    exact ⟨h, by decide, fun hs => hseed (List.mem_of_mem_take hs)⟩
  · exact h

include hseed in
/-- Where the provider's id has no `@`, no handle made from what the provider says has one. -/
theorem not_mem_sanitize {raw : String} : '@' ∉ (sanitize toLowercase raw seed).toList := by
  unfold sanitize
  simp only
  split
  · rw [String.toList_ofList, List.mem_append, not_or]
    exact ⟨by decide, fun hs => hseed (List.mem_of_mem_take hs)⟩
  · rw [String.toList_ofList]
    exact fun h => not_mem_padded hseed not_mem_flatten (List.mem_of_mem_take (mem_trimDots h))

theorem not_mem_withSuffix {base suffix : String} (hb : '@' ∉ base.toList) (hs : '@' ∉ suffix.toList) :
    '@' ∉ (withSuffix base suffix).toList := by
  unfold withSuffix
  split
  · rw [String.toList_append, String.toList_ofList, List.mem_append, not_or]
    exact ⟨fun h => hb (List.mem_of_mem_take h), hs⟩
  · rw [String.toList_append, List.mem_append, not_or]
    exact ⟨hb, hs⟩

theorem hexDigit_ne (n : Nat) : hexDigit n ≠ '@' := by
  intro h
  have : '@' ∈ '0' :: "0123456789abcdef".toList := by
    rw [← h]
    unfold hexDigit
    rw [List.getD_eq_getElem?_getD]
    rcases hn : ("0123456789abcdef".toList)[n]? with _ | c
    · exact List.mem_cons_self
    · exact List.mem_cons_of_mem _ (List.mem_of_getElem? hn)
  exact absurd this (by decide)

theorem not_mem_random (u : Uuid) : '@' ∉ (random u).toList := by
  have hd : ∀ n, '@' ∉ ((List.range 32).map fun i => hexDigit (u.toNat / 16 ^ (31 - i) % 16)).drop n := by
    intro n h
    obtain ⟨i, -, hi⟩ := List.mem_map.1 (List.mem_of_mem_drop h)
    exact hexDigit_ne _ hi
  have hu : '@' ∉ uuidString u := by
    unfold uuidString
    simp only [List.mem_append, List.mem_cons, not_or]
    have ht : ∀ n m, '@' ∉ (((List.range 32).map fun i => hexDigit (u.toNat / 16 ^ (31 - i) % 16)).drop n).take m :=
      fun n m h => hd n (List.mem_of_mem_take h)
    exact ⟨⟨⟨⟨ht 0 8, by decide, ht 8 4⟩, by decide, ht 12 4⟩, by decide, ht 16 4⟩, by decide, hd 20⟩
  unfold random
  rw [String.toList_ofList, List.mem_append, not_or]
  exact ⟨by decide, fun h => hu (List.mem_of_mem_take h)⟩

end Handle

end Genzh.Auth
