/-
What the handles made up for new accounts are worth. What a name is flattened to are letters of a handle, but neither the
seed that lengthens or replaces it is flattened, nor is the length asked about once the full stops at both ends are gone.
`sanitized_iff` says of which names and seeds a handle comes that an owner could have chosen.
-/
import Genzh.Auth.Handle
import Genzh.Domain.Mentions

namespace Genzh.Auth

open Genzh.Domain

namespace Handle

/-- What else is used of `str::to_lowercase`: it leaves no capital letter of ASCII. -/
def LeavesNoCapital (toLowercase : String → String) : Prop := ∀ s, ∀ c ∈ (toLowercase s).toList, c.toLower = c

/-! ## Suffixes -/

/-- `String::truncate`: what begins the text and is so many bytes long; `none` where that ends within a character. -/
def truncate : Nat → List Char → Option (List Char)
  | _, [] => some []
  | 0, _ :: _ => some []
  | n + 1, c :: cs => if c.utf8Size ≤ n + 1 then (truncate (n + 1 - c.utf8Size) cs).map (c :: ·) else none

/-- A candidate built from a base and a suffix, counted in bytes; `none` where the truncation panics. -/
def suffixed (base suffix : String) : Option String :=
  if handleMaxLen < base.utf8ByteSize + suffix.utf8ByteSize then
    (truncate (handleMaxLen - suffix.utf8ByteSize) base.toList).map fun kept => String.ofList kept ++ suffix
  else some (base ++ suffix)

/-- A number of at most four digits. -/
def IsNumeric (suffix : String) : Prop := suffix.length ≤ 4 ∧ ∀ c ∈ suffix.toList, c.isDigit = true

/-! ## The law -/

variable {toLowercase : String → String}

/-- A handle its owner could have chosen, and that lookups find: it is accepted, and as it is. -/
def Chosen (toLowercase : String → String) (handle : String) : Prop := normalizeHandle toLowercase handle = .ok handle

/-- Such a handle, with every suffix that may be put behind it. -/
structure Provisioned (toLowercase : String → String) (handle : String) : Prop where
  chosen : Chosen toLowercase handle
  suffixed : ∀ suffix, IsNumeric suffix → ∃ candidate, Handle.suffixed handle suffix = some candidate ∧ Chosen toLowercase candidate

/-- A character of a handle, and not a capital one. -/
def isStored (c : Char) : Bool := isHandleLetter c && decide (c.toLower = c)

/-- Two characters that are no full stops stand two places apart, or more. -/
def Wide (cs : List Char) : Prop :=
  ∃ i j, i + 2 ≤ j ∧ (cs[i]?.any fun c => c ≠ '.') = true ∧ (cs[j]?.any fun c => c ≠ '.') = true

/-- What is asked of a name, in lower case, and of the seed. A short name is lengthened by the seed, a long one that is
nothing but full stops is replaced by it, and any other is left to itself. -/
def Fits (lower seed : List Char) : Prop :=
  if lower.length < handleMinLen then
    ((seed.take 4).rdropWhile (· == '.')).all isStored = true ∧ Wide (lower ++ '_' :: seed.take 4)
  else if (lower.take handleMaxLen).all (· == '.') then
    (seed.take 8).all isStored = true ∧ (seed.take 8).getLast? ≠ some '.'
  else Wide (lower.take handleMaxLen)

/-! ## Full stops at the ends -/

section Ends

variable {cs : List Char}

/-- What is taken away at the two ends are full stops. -/
theorem split_trimDots (cs : List Char) : ∃ before after, cs = before ++ (trimDots cs ++ after) ∧
    (∀ c ∈ before, c = '.') ∧ ∀ c ∈ after, c = '.' := by
  refine ⟨cs.takeWhile (· == '.'), (cs.dropWhile (· == '.')).rtakeWhile (· == '.'), ?_, fun c hc => ?_, fun c hc => ?_⟩
  · unfold trimDots
    rw [List.rdropWhile_append_rtakeWhile, List.takeWhile_append_dropWhile]
  · simpa using List.mem_takeWhile_imp hc
  · simpa using List.mem_rtakeWhile_imp hc

theorem head?_trimDots (cs : List Char) : (trimDots cs).head? ≠ some '.' := by
  intro h
  obtain ⟨rest, hrest⟩ := List.rdropWhile_prefix (fun c : Char => c == '.') (l := cs.dropWhile (· == '.'))
  have hhead : (cs.dropWhile (· == '.')).head? = some '.' := by
    rw [← hrest, List.head?_append]
    exact Option.or_eq_some_iff.2 (.inl h)
  have := List.head?_dropWhile_not (fun c : Char => c == '.') cs
  rw [hhead] at this
  simp at this

theorem getLast?_trimDots (cs : List Char) : (trimDots cs).getLast? ≠ some '.' := by
  intro h
  have hne : trimDots cs ≠ [] := fun hnil => (by rw [hnil] at h; cases h)
  rw [List.getLast?_eq_some_getLast hne] at h
  have hlast := List.rdropWhile_last_not (fun c : Char => c == '.') (cs.dropWhile (· == '.')) hne
  exact hlast (by rw [beq_iff_eq]; exact Option.some.inj h)

theorem trimDots_eq_nil : trimDots cs = [] ↔ ∀ c ∈ cs, c = '.' := by
  constructor
  · intro h c hc
    obtain ⟨before, after, hsplit, hbefore, hafter⟩ := split_trimDots cs
    rw [hsplit, h, List.nil_append] at hc
    rcases List.mem_append.1 hc with hc | hc
    · exact hbefore c hc
    · exact hafter c hc
  · intro h
    have hdrop : cs.dropWhile (· == '.') = [] := List.dropWhile_eq_nil_iff.2 fun c hc => by simp [h c hc]
    unfold trimDots
    rw [hdrop]
    rfl

theorem wide_iff : Wide cs ↔ 3 ≤ (trimDots cs).length := by
  obtain ⟨before, after, hsplit, hbefore, hafter⟩ := split_trimDots cs
  -- a character that is no full stop is one of those that are left
  have hstop : ∀ i, (cs[i]?.any fun c => c ≠ '.') = true → before.length ≤ i ∧ i < before.length + (trimDots cs).length := by
    intro i hi
    obtain ⟨c, hc, hne⟩ := (Option.any_eq_true _ _).1 hi
    have hne : c ≠ '.' := by simpa using hne
    constructor
    · by_contra hlt
      rw [hsplit, List.getElem?_append_left (by omega)] at hc
      exact hne (hbefore c (List.mem_of_getElem? hc))
    · by_contra hge
      rw [hsplit, List.getElem?_append_right (by omega), List.getElem?_append_right (by omega)] at hc
      exact hne (hafter c (List.mem_of_getElem? hc))
  constructor
  · rintro ⟨i, j, hij, hi, hj⟩
    have := hstop i hi
    have := hstop j hj
    omega
  · intro h
    have hat : ∀ k, k < (trimDots cs).length → cs[before.length + k]? = (trimDots cs)[k]? := by
      intro k hk
      conv_lhs => rw [hsplit]
      rw [List.getElem?_append_right (by omega), Nat.add_sub_cancel_left, List.getElem?_append_left hk]
    -- the first and the last of them
    refine ⟨before.length, before.length + ((trimDots cs).length - 1), by omega, ?_, ?_⟩
    · have hfirst := hat 0 (by omega)
      rw [Nat.add_zero] at hfirst
      rw [hfirst, ← List.head?_eq_getElem?]
      rcases hhead : (trimDots cs).head? with _ | c
      · rw [List.head?_eq_none_iff] at hhead
        rw [hhead] at h
        cases h
      · have := head?_trimDots cs
        rw [hhead] at this
        simpa using this
    · rw [hat _ (by omega), ← List.getLast?_eq_getElem?]
      rcases hlast : (trimDots cs).getLast? with _ | c
      · rw [List.getLast?_eq_none_iff] at hlast
        rw [hlast] at h
        cases h
      · have := getLast?_trimDots cs
        rw [hlast] at this
        simpa using this

/-- The ends of a text with something else than a full stop in it. -/
theorem trimDots_append {c : Char} (hc : c ≠ '.') (front back : List Char) :
    trimDots (front ++ c :: back) = front.dropWhile (· == '.') ++ c :: back.rdropWhile (· == '.') := by
  have hfront : (front ++ c :: back).dropWhile (· == '.') = front.dropWhile (· == '.') ++ c :: back := by
    induction front with
    | nil => simp [hc]
    | cons d front ih =>
      by_cases hd : d = '.'
      · subst hd
        simpa using ih
      · simp [hd]
  have hback : ∀ init : List Char, (init ++ c :: back).rdropWhile (· == '.') = init ++ c :: back.rdropWhile (· == '.') := by
    intro init
    clear hfront
    induction back using List.reverseRecOn with
    | nil => rw [List.rdropWhile_concat_neg _ _ _ (by simpa using hc), List.rdropWhile_nil]
    | append_singleton back d ih =>
      rw [show init ++ c :: (back ++ [d]) = (init ++ c :: back) ++ [d] by simp, List.rdropWhile_concat, List.rdropWhile_concat]
      split
      · exact ih
      · simp
  unfold trimDots
  rw [hfront, hback]

/-- Where the full stops are is all that counts. -/
theorem wide_congr {ds : List Char} (h : cs.map (· == '.') = ds.map (· == '.')) : Wide cs ↔ Wide ds := by
  have hany : ∀ (es : List Char) (i : Nat), (es[i]?.any fun c => decide (c ≠ '.')) = ((es.map (· == '.'))[i]?.any fun b => !b) := by
    intro es i
    rw [List.getElem?_map, Option.any_map]
    refine congrArg (fun p => Option.any p _) (funext fun c => ?_)
    by_cases hc : c = '.' <;> simp [hc]
  unfold Wide
  simp only [hany, h]

end Ends

/-! ## What a handle is made of -/

section Made

variable {cs : List Char} {raw seed : String}

theorem isHandle_iff : IsHandle cs ↔ (handleMinLen ≤ cs.length ∧ cs.length ≤ handleMaxLen) ∧ (∀ c ∈ cs, isStored c = true) ∧
    cs.head? ≠ some '.' ∧ cs.getLast? ≠ some '.' := by
  have hstored : (∀ c ∈ cs, isStored c = true) ↔ (∀ c ∈ cs, isHandleLetter c = true) ∧ asciiLowercase cs = cs := by
    have hfixed : asciiLowercase cs = cs ↔ ∀ c ∈ cs, c.toLower = c := by
      conv_lhs => rhs; rw [← List.map_id cs]
      exact List.map_inj_left
    rw [hfixed]
    simp only [isStored, Bool.and_eq_true, decide_eq_true_eq]
    exact ⟨fun h => ⟨fun c hc => (h c hc).1, fun c hc => (h c hc).2⟩, fun h c hc => ⟨h.1 c hc, h.2 c hc⟩⟩
  rw [hstored]
  constructor
  · intro h
    exact ⟨⟨h.least, h.most⟩, ⟨h.letters, h.lower⟩, h.first, h.last⟩
  · rintro ⟨⟨hleast, hmost⟩, ⟨hletters, hlower⟩, hfirst, hlast⟩
    exact ⟨hleast, hmost, hletters, hlower, hfirst, hlast⟩

theorem isHandle_trimDots (hmost : (trimDots cs).length ≤ handleMaxLen) :
    IsHandle (trimDots cs) ↔ (trimDots cs).all isStored = true ∧ Wide cs := by
  rw [isHandle_iff, wide_iff, List.all_eq_true]
  exact ⟨fun h => ⟨h.2.1, h.1.1⟩, fun h => ⟨⟨h.2, hmost⟩, h.1, head?_trimDots cs, getLast?_trimDots cs⟩⟩

theorem isStored_flatten (hcapital : LeavesNoCapital toLowercase) : ∀ c ∈ flatten toLowercase raw, isStored c = true := by
  intro c hc
  obtain ⟨d, hd, rfl⟩ := List.mem_map.1 hc
  split
  · rename_i hletter
    exact Bool.and_eq_true_iff.2 ⟨hletter, decide_eq_true (hcapital raw d hd)⟩
  · decide

theorem length_flatten : (flatten toLowercase raw).length = (toLowercase raw).toList.length := List.length_map _

theorem stops_flatten : (flatten toLowercase raw).map (· == '.') = (toLowercase raw).toList.map (· == '.') := by
  unfold flatten
  rw [List.map_map]
  refine List.map_congr_left fun c _ => ?_
  simp only [Function.comp_apply]
  split
  · rfl
  · rename_i hletter
    have hne : c ≠ '.' := fun h => hletter (by rw [h]; decide)
    rw [beq_eq_false_iff_ne.2 hne]
    decide

/-- A short name is lengthened by the seed. -/
theorem isHandle_short (hcapital : LeavesNoCapital toLowercase) (hshort : (toLowercase raw).toList.length < handleMinLen) :
    IsHandle (sanitize toLowercase raw seed).toList ↔
      ((seed.toList.take 4).rdropWhile (· == '.')).all isStored = true ∧ Wide ((toLowercase raw).toList ++ '_' :: seed.toList.take 4) := by
  have hflat : (flatten toLowercase raw).length < handleMinLen := by rwa [length_flatten]
  have hpadded : padded seed (flatten toLowercase raw) = flatten toLowercase raw ++ '_' :: seed.toList.take 4 := by
    unfold padded snippet
    rw [if_pos hflat]
  -- at most two characters, the underscore and four of the seed: nothing is cut
  have hlength : (flatten toLowercase raw ++ '_' :: seed.toList.take 4).length ≤ handleMaxLen := by
    rw [List.length_append, List.length_cons, List.length_take]
    unfold handleMinLen at hflat
    unfold handleMaxLen
    omega
  have htrim := trimDots_append (c := '_') (by decide) (flatten toLowercase raw) (seed.toList.take 4)
  have htext : (sanitize toLowercase raw seed).toList = trimDots (flatten toLowercase raw ++ '_' :: seed.toList.take 4) := by
    unfold sanitize
    rw [hpadded, List.take_of_length_le hlength]
    simp only
    rw [if_neg (by rw [htrim]; simp), String.toList_ofList]
  have hstored : (trimDots (flatten toLowercase raw ++ '_' :: seed.toList.take 4)).all isStored =
      ((seed.toList.take 4).rdropWhile (· == '.')).all isStored := by
    have hfront : ((flatten toLowercase raw).dropWhile (· == '.')).all isStored = true :=
      List.all_eq_true.2 fun c hc => isStored_flatten hcapital c ((List.dropWhile_suffix _).subset hc)
    rw [htrim, List.all_append, List.all_cons, hfront, show isStored '_' = true by decide, Bool.true_and, Bool.true_and]
  have hmost : (trimDots (flatten toLowercase raw ++ '_' :: seed.toList.take 4)).length ≤ handleMaxLen := by
    obtain ⟨before, after, hsplit, -⟩ := split_trimDots (flatten toLowercase raw ++ '_' :: seed.toList.take 4)
    have := congrArg List.length hsplit
    simp only [List.length_append] at this hlength
    omega
  rw [htext, isHandle_trimDots hmost, hstored]
  refine and_congr_right fun _ => wide_congr ?_
  rw [List.map_append, List.map_append, stops_flatten]

theorem stops_take (n : Nat) : ((flatten toLowercase raw).take n).map (· == '.') = ((toLowercase raw).toList.take n).map (· == '.') := by
  rw [List.map_take, stops_flatten, ← List.map_take]

/-- What replaces a name that nothing is left of. -/
theorem isHandle_user : IsHandle ("user_".toList ++ seed.toList.take 8) ↔
    (seed.toList.take 8).all isStored = true ∧ (seed.toList.take 8).getLast? ≠ some '.' := by
  have hfive : "user_".toList.length = 5 := by decide
  have hlength : ("user_".toList ++ seed.toList.take 8).length ≤ 13 ∧ 5 ≤ ("user_".toList ++ seed.toList.take 8).length := by
    rw [List.length_append, hfive, List.length_take]
    omega
  have hhead : ("user_".toList ++ seed.toList.take 8).head? ≠ some '.' := by
    rw [List.head?_append, show "user_".toList.head? = some 'u' by decide, Option.some_or]
    decide
  have hlast : ("user_".toList ++ seed.toList.take 8).getLast? ≠ some '.' ↔ (seed.toList.take 8).getLast? ≠ some '.' := by
    rw [List.getLast?_append]
    rcases (seed.toList.take 8).getLast? with _ | c
    · exact iff_of_true (by decide) (by decide)
    · rfl
  have hstored : (∀ c ∈ "user_".toList ++ seed.toList.take 8, isStored c = true) ↔ (seed.toList.take 8).all isStored = true := by
    rw [← List.all_eq_true, List.all_append, show "user_".toList.all isStored = true by decide, Bool.true_and]
  rw [isHandle_iff, hstored, hlast]
  unfold handleMinLen handleMaxLen
  constructor
  · rintro ⟨-, hs, -, hl⟩
    exact ⟨hs, hl⟩
  · rintro ⟨hs, hl⟩
    exact ⟨by omega, hs, hhead, hl⟩

/-- What a long name is cut to. Nobody asks again how long it is once its ends are gone. -/
theorem isHandle_cut (hcapital : LeavesNoCapital toLowercase) :
    IsHandle (trimDots ((flatten toLowercase raw).take handleMaxLen)) ↔ Wide ((toLowercase raw).toList.take handleMaxLen) := by
  have hmost : (trimDots ((flatten toLowercase raw).take handleMaxLen)).length ≤ handleMaxLen := by
    obtain ⟨before, after, hsplit, -⟩ := split_trimDots ((flatten toLowercase raw).take handleMaxLen)
    have hcut := congrArg List.length hsplit
    simp only [List.length_append, List.length_take] at hcut
    omega
  have hstored : (trimDots ((flatten toLowercase raw).take handleMaxLen)).all isStored = true :=
    List.all_eq_true.2 fun c hc => isStored_flatten hcapital c (List.mem_of_mem_take (mem_trimDots hc))
  rw [isHandle_trimDots hmost, wide_congr (stops_take handleMaxLen)]
  exact and_iff_right hstored

/-- A long name is cut, and replaced by the seed where that leaves nothing. -/
theorem isHandle_long (hcapital : LeavesNoCapital toLowercase) (hlong : ¬(toLowercase raw).toList.length < handleMinLen) :
    IsHandle (sanitize toLowercase raw seed).toList ↔
      if ((toLowercase raw).toList.take handleMaxLen).all (· == '.') then
        (seed.toList.take 8).all isStored = true ∧ (seed.toList.take 8).getLast? ≠ some '.'
      else Wide ((toLowercase raw).toList.take handleMaxLen) := by
  have hpadded : padded seed (flatten toLowercase raw) = flatten toLowercase raw := by
    unfold padded
    rw [if_neg (by rwa [length_flatten])]
  have hnil : trimDots ((flatten toLowercase raw).take handleMaxLen) = [] ↔
      ((toLowercase raw).toList.take handleMaxLen).all (· == '.') = true := by
    have hall : ∀ cs : List Char, (∀ c ∈ cs, c = '.') ↔ (cs.map (· == '.')).all id = true := fun cs => by simp
    rw [trimDots_eq_nil, hall, stops_take, List.all_map]
    rfl
  unfold sanitize
  rw [hpadded]
  simp only
  by_cases hstop : ((toLowercase raw).toList.take handleMaxLen).all (· == '.') = true
  · rw [if_pos (by rw [List.isEmpty_iff]; exact hnil.2 hstop), if_pos hstop, String.toList_ofList]
    exact isHandle_user
  · rw [if_neg (by rw [List.isEmpty_iff, hnil]; exact hstop), if_neg hstop, String.toList_ofList]
    exact isHandle_cut hcapital

theorem isHandle_sanitize (hcapital : LeavesNoCapital toLowercase) :
    IsHandle (sanitize toLowercase raw seed).toList ↔ Fits (toLowercase raw).toList seed.toList := by
  unfold Fits
  by_cases hshort : (toLowercase raw).toList.length < handleMinLen
  · rw [if_pos hshort]
    exact isHandle_short hcapital hshort
  · rw [if_neg hshort]
    exact isHandle_long hcapital hshort

end Made

/-! ## Behind a handle -/

section Suffixed

theorem utf8Size_ascii {c : Char} (h : c.toNat < 128) : c.utf8Size = 1 := by
  rw [Char.utf8Size_eq_one_iff]
  exact UInt32.le_iff_toNat_le.2 (by have : c.val.toNat < 128 := h; change c.val.toNat ≤ 127; omega)

theorem utf8ByteSize_ofList {cs : List Char} (h : ∀ c ∈ cs, c.toNat < 128) : (String.ofList cs).utf8ByteSize = cs.length := by
  induction cs with
  | nil => rfl
  | cons c cs ih =>
    have hone : (String.ofList [c]).utf8ByteSize = 1 := by
      rw [← String.singleton_eq_ofList, String.utf8ByteSize_singleton, utf8Size_ascii (h c List.mem_cons_self)]
    rw [← List.singleton_append, String.ofList_append, String.utf8ByteSize_append, hone,
      ih fun d hd => h d (List.mem_cons_of_mem _ hd), List.length_append, List.length_singleton]

/-- In ASCII the bytes of a text are its characters. -/
theorem utf8ByteSize_ascii {s : String} (h : ∀ c ∈ s.toList, c.toNat < 128) : s.utf8ByteSize = s.length := by
  have hbytes := utf8ByteSize_ofList h
  rwa [String.ofList_toList, String.length_toList] at hbytes

theorem truncate_ascii {cs : List Char} (h : ∀ c ∈ cs, c.toNat < 128) (n : Nat) : truncate n cs = some (cs.take n) := by
  induction cs generalizing n with
  | nil => cases n <;> simp [truncate]
  | cons c cs ih =>
    rcases n with _ | n
    · rfl
    · rw [truncate, utf8Size_ascii (h c List.mem_cons_self), if_pos (by omega), Nat.add_sub_cancel,
        ih fun d hd => h d (List.mem_cons_of_mem _ hd)]
      rfl

variable {base suffix : String}

theorem isStored_digit {c : Char} (h : c.isDigit = true) : isStored c = true ∧ c ≠ '.' := by
  have hrange : 48 ≤ c.toNat ∧ c.toNat ≤ 57 := by
    unfold Char.isDigit at h
    simp only [Bool.and_eq_true, decide_eq_true_eq] at h
    exact h
  refine ⟨?_, fun hdot => ?_⟩
  · rcases toLower_shift c with ⟨-, hsame⟩ | ⟨hcapital, -⟩
    · unfold isStored isHandleLetter Char.isAlphanum
      simp [h, hsame]
    · omega
  · rw [hdot] at h
    exact absurd h (by decide)

theorem isHandle_append {front back : List Char} (hfront : ∀ c ∈ front, isStored c = true) (hback : ∀ c ∈ back, c.isDigit = true)
    (hhead : ∃ c, front.head? = some c ∧ c ≠ '.') (hlast : back = [] → front.getLast? ≠ some '.')
    (hlength : handleMinLen ≤ (front ++ back).length ∧ (front ++ back).length ≤ handleMaxLen) : IsHandle (front ++ back) := by
  obtain ⟨c, hhead, hc⟩ := hhead
  refine isHandle_iff.2 ⟨hlength, fun d hd => ?_, ?_, ?_⟩
  · rcases List.mem_append.1 hd with hd | hd
    · exact hfront d hd
    · exact (isStored_digit (hback d hd)).1
  · rw [List.head?_append, hhead, Option.some_or]
    exact fun h => hc (Option.some.inj h)
  · rw [List.getLast?_append]
    rcases hend : back.getLast? with _ | d
    · rw [Option.none_or]
      exact hlast (List.getLast?_eq_none_iff.1 hend)
    · rw [Option.some_or]
      exact fun h => (isStored_digit (hback d (List.mem_of_getLast? hend))).2 (Option.some.inj h)

/-- Cut for a number to go behind it, a handle is one still. -/
theorem isHandle_suffixed (hb : IsHandle base.toList) (hs : IsNumeric suffix) :
    ∃ candidate, suffixed base suffix = some candidate ∧ IsHandle candidate.toList := by
  obtain ⟨⟨hleast, hmost⟩, hstored, hfirst, hlast⟩ := isHandle_iff.1 hb
  obtain ⟨hfour, hdigits⟩ := hs
  have hbase : ∀ c ∈ base.toList, c.toNat < 128 := fun c hc => isHandleLetter_ascii (hb.letters c hc)
  have hsuffix : ∀ c ∈ suffix.toList, c.toNat < 128 := fun c hc =>
    isHandleLetter_ascii (Bool.and_eq_true_iff.1 (isStored_digit (hdigits c hc)).1).1
  have hfour : suffix.toList.length ≤ 4 := by rwa [String.length_toList]
  have hhead : ∀ n, 0 < n → ∃ c, (base.toList.take n).head? = some c ∧ c ≠ '.' := by
    intro n hn
    rw [List.head?_take, if_neg (by omega)]
    rcases hc : base.toList.head? with _ | c
    · rw [List.head?_eq_none_iff] at hc
      rw [hc] at hleast
      cases hleast
    · exact ⟨c, rfl, fun hdot => hfirst (by rw [hc, hdot])⟩
  unfold suffixed
  rw [utf8ByteSize_ascii hbase, utf8ByteSize_ascii hsuffix, ← String.length_toList, ← String.length_toList]
  by_cases hlong : handleMaxLen < base.toList.length + suffix.toList.length
  · rw [if_pos hlong, truncate_ascii hbase]
    refine ⟨_, rfl, ?_⟩
    rw [String.toList_append, String.toList_ofList]
    have hmin : 28 ≤ handleMaxLen - suffix.toList.length := by
      unfold handleMaxLen
      omega
    -- without a suffix nothing would have been cut, so a digit stands at the end
    refine isHandle_append (fun c hc => hstored c (List.mem_of_mem_take hc)) hdigits (hhead _ (by omega)) (fun hnil => ?_) ?_
    · rw [hnil, List.length_nil] at hlong
      omega
    · rw [List.length_append, List.length_take]
      unfold handleMinLen
      omega
  · rw [if_neg hlong]
    refine ⟨_, rfl, ?_⟩
    rw [String.toList_append]
    have hwhole := hhead base.toList.length (by unfold handleMinLen at hleast; omega)
    rw [List.take_length] at hwhole
    refine isHandle_append hstored hdigits hwhole (fun _ => hlast) ?_
    rw [List.length_append]
    omega

/-- In ASCII, it is the candidate the search tries. -/
theorem suffixed_eq (hbase : ∀ c ∈ base.toList, c.toNat < 128) (hsuffix : ∀ c ∈ suffix.toList, c.toNat < 128) :
    suffixed base suffix = some (withSuffix base suffix) := by
  unfold suffixed withSuffix
  rw [utf8ByteSize_ascii hbase, utf8ByteSize_ascii hsuffix]
  split
  · rw [truncate_ascii hbase]
    rfl
  · rfl

end Suffixed

/-! ## What comes of a name -/

/-- What a provider offered of a name. -/
def offered (suggested email : Option String) (provider providerUserId : String) : String :=
  (suggested.or (email.map localPart)).getD (provider ++ "_" ++ String.ofList (snippet providerUserId 6))

theorem provisioned_iff (hlower : LowersAscii toLowercase) {handle : String} :
    Provisioned toLowercase handle ↔ IsHandle handle.toList := by
  constructor
  · exact fun h => (normalizeHandle_fixed_iff hlower handle).1 h.chosen
  · intro h
    refine ⟨(normalizeHandle_fixed_iff hlower handle).2 h, fun suffix hs => ?_⟩
    obtain ⟨candidate, hcandidate, hhandle⟩ := isHandle_suffixed h hs
    exact ⟨candidate, hcandidate, (normalizeHandle_fixed_iff hlower candidate).2 hhandle⟩

/-- What a name is forced into is a handle an owner could have chosen, with whatever number behind it, exactly if the name
and the seed fit; and so is what is made of the name a provider offered. -/
theorem sanitized_iff (hlower : LowersAscii toLowercase) (hcapital : LeavesNoCapital toLowercase) :
    (∀ raw seed, Provisioned toLowercase (sanitize toLowercase raw seed) ↔ Fits (toLowercase raw).toList seed.toList) ∧
    ∀ suggested email provider providerUserId,
      Provisioned toLowercase (preferred toLowercase suggested email provider providerUserId) ↔
        Fits (toLowercase (offered suggested email provider providerUserId)).toList providerUserId.toList := by
  have hsanitized : ∀ raw seed, Provisioned toLowercase (sanitize toLowercase raw seed) ↔
      Fits (toLowercase raw).toList seed.toList := fun raw seed => (provisioned_iff hlower).trans (isHandle_sanitize hcapital)
  exact ⟨hsanitized, fun suggested email provider providerUserId => hsanitized _ _⟩

theorem leavesNoCapital_lowerAscii : LeavesNoCapital lowerAscii := by
  intro s c hc
  unfold lowerAscii asciiLowercase at hc
  rw [String.toList_ofList] at hc
  obtain ⟨d, -, rfl⟩ := List.mem_map.1 hc
  exact toLower_toLower d

/-- A name of two letters, and the identifier of a provider. -/
theorem sanitized_short : Provisioned lowerAscii (sanitize lowerAscii "Jo" "104281") := by
  refine ((sanitized_iff lowersAscii_lowerAscii leavesNoCapital_lowerAscii).1 "Jo" "104281").2 ?_
  unfold Fits
  rw [if_pos (by decide)]
  exact ⟨by decide, 0, 2, by decide, by decide, by decide⟩

/-- Full stops that end a name are taken away when its length has been asked about: a letter is left. -/
theorem not_sanitized : sanitize lowerAscii "a.." "104281" = "a" ∧
    ¬ ∀ raw seed, seed ≠ "" → Provisioned lowerAscii (sanitize lowerAscii raw seed) := by
  have ha : sanitize lowerAscii "a.." "104281" = "a" := by decide
  refine ⟨ha, fun h => ?_⟩
  have hhandle := (provisioned_iff lowersAscii_lowerAscii).1 (h "a.." "104281" (by decide))
  rw [ha] at hhandle
  exact absurd hhandle.least (by decide)

end Handle

end Genzh.Auth
