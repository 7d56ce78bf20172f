/-
How the API writes instants and identifiers, and how a client compares what is written. An instant has a fraction of a
second only as far as it needs one: no digits, three, six or nine. So a text can end where another goes on, and then
the order of the texts is not that of the instants.
-/
import Genzh.Api.Messages
import Genzh.Lib.Calendar

namespace Genzh.Client

open Genzh.Lib.Lexical Genzh.Lib.Calendar Genzh.Domain
open Genzh.Api.Messages (uuidText hexByte)

/-! ## The order of the texts -/

/-- What instants and identifiers are written with, in the order of the root collation. -/
def alphabet : List Char := "-:.0123456789abcdefTZ".toList

def letterRank (c : Char) : Nat := alphabet.idxOf c

def collationKey (s : String) : List Nat := s.toList.map letterRank

def Spelled (s : String) : Prop := ∀ c ∈ s.toList, c ∈ alphabet

/-- `localeCompare` in a locale that leaves the root collation as it is: the texts differ by the first letter in which they
do. -/
structure RootCollation (localeCompare : String → String → Int) : Prop where
  neg_iff : ∀ {a b}, Spelled a → Spelled b → (localeCompare a b < 0 ↔ collationKey a < collationKey b)
  zero_iff : ∀ {a b}, Spelled a → Spelled b → (localeCompare a b = 0 ↔ collationKey a = collationKey b)

theorem RootCollation.nonpos_iff {localeCompare : String → String → Int} (h : RootCollation localeCompare) {a b : String}
    (ha : Spelled a) (hb : Spelled b) : localeCompare a b ≤ 0 ↔ collationKey a ≤ collationKey b := by
  rw [le_iff_lt_or_eq, h.neg_iff ha hb, h.zero_iff ha hb, ← le_iff_lt_or_eq]

/-! ## Instants -/

/-- With leading zeros. -/
def padded (width n : Nat) : List Char := (digits 10 width n).map Nat.digitChar

/-- Four digits, or a sign and as many as it takes. -/
def writeYear (year : Int) : List Char :=
  if 0 ≤ year ∧ year ≤ 9999 then padded 4 year.toNat
  else (if year < 0 then '-' else '+') :: (toString year.natAbs).toList.leftpad 4 '0'

def writeDate (d : Date) : List Char := writeYear d.year ++ '-' :: (padded 2 d.month ++ '-' :: padded 2 d.day)

/-- The time of the day, from its second. -/
def writeTime (second : Nat) : List Char :=
  padded 2 (second / 3600) ++ ':' :: (padded 2 (second % 3600 / 60) ++ ':' :: padded 2 (second % 60))

/-- `SecondsFormat::AutoSi`: the fraction of a second, as far as it goes. -/
def writeFraction (nanos : Nat) : List Char :=
  if nanos = 0 then []
  else if nanos % 1000000 = 0 then '.' :: padded 3 (nanos / 1000000)
  else if nanos % 1000 = 0 then '.' :: padded 6 (nanos / 1000)
  else '.' :: padded 9 nanos

/-- The day that a second is in, from the first of January of the year 0. -/
def dayOf (second : Int) : Int := second / 86400 + 719528

def writeSecond (second : Int) : List Char := writeDate (date (dayOf second)) ++ 'T' :: writeTime (second % 86400).toNat

/-- How chrono serialises an instant, a number of nanoseconds since the Unix epoch. -/
def rfc3339 (nanos : Int) : String :=
  String.ofList (writeSecond (nanos / 1000000000) ++ (writeFraction (nanos % 1000000000).toNat ++ ['Z']))

/-- Does RFC 3339 have the year, as one of four digits? -/
def HasYear (second : Int) : Prop := 0 ≤ (date (dayOf second)).year ∧ (date (dayOf second)).year ≤ 9999

/-- How many digits the fraction of a second is written with. -/
def places (nanos : Nat) : Nat :=
  if nanos = 0 then 0 else if nanos % 1000000 = 0 then 3 else if nanos % 1000 = 0 then 6 else 9

/-- The nanoseconds in the last digit that an instant is written with. -/
def lastDigit (nanos : Int) : Int := 10 ^ (9 - places (nanos % 1000000000).toNat)

/-- Is the one instant the other, cut off after the digits it has? -/
def CutFrom (earlier later : Int) : Prop := earlier < later ∧ earlier = later - later % lastDigit earlier

/-! ## What is written with digits -/

theorem digitChar_spelled {d : Nat} (h : d < 16) : Nat.digitChar d ∈ alphabet ∧ letterRank (Nat.digitChar d) = 3 + d := by
  interval_cases d <;> exact ⟨by decide, rfl⟩

theorem strictMono_add (n : Nat) : StrictMono fun d : Nat => n + d := fun _ _ h => Nat.add_lt_add_left h n

theorem digits_spelled {base width n : Nat} (hpos : 0 < base) (hbase : base ≤ 16) {c : Char}
    (h : c ∈ (digits base width n).map Nat.digitChar) : c ∈ alphabet := by
  obtain ⟨d, hd, rfl⟩ := List.mem_map.1 h
  exact (digitChar_spelled ((lt_of_mem_digits hpos hd).trans_le hbase)).1

theorem map_letterRank_digits {base : Nat} (hpos : 0 < base) (hbase : base ≤ 16) (width n : Nat) :
    ((digits base width n).map Nat.digitChar).map letterRank = (digits base width n).map fun d => 3 + d := by
  rw [List.map_map]
  exact List.map_congr_left fun d hd => (digitChar_spelled ((lt_of_mem_digits hpos hd).trans_le hbase)).2

theorem map_letterRank_padded (width n : Nat) : (padded width n).map letterRank = (digits 10 width n).map fun d => 3 + d :=
  map_letterRank_digits (by norm_num) (by norm_num) width n

theorem keeps_padded (width : Nat) : KeepsOrder (· < 10 ^ width) (fun n => (padded width n).map letterRank) width :=
  ((keeps_digits 10 width).map (strictMono_add 3)).congr fun n _ => map_letterRank_padded width n

/-! ## Up to the second -/

theorem keeps_writeYear : KeepsOrder (fun year => 0 ≤ year ∧ year ≤ 9999) (fun year => (writeYear year).map letterRank) 4 := by
  have hwrite : ∀ year, 0 ≤ year ∧ year ≤ 9999 → (writeYear year).map letterRank = (padded 4 year.toNat).map letterRank := by
    intro year h
    unfold writeYear
    rw [if_pos h]
  refine ((keeps_padded 4).comap (R := fun year : Int => 0 ≤ year ∧ year ≤ 9999) ?_ ?_).congr hwrite
  · intro year h
    omega
  · intro x y hx hy
    omega

theorem keeps_writeDate : KeepsOrder (fun day => 0 ≤ (date day).year ∧ (date day).year ≤ 9999)
    (fun day => (writeDate (date day)).map letterRank) 10 := by
  -- the month and the day of the month, which are smaller than a hundred
  have hmonth : KeepsOrder (fun d : ℕ ×ₗ ℕ => (ofLex d).1 < 10 ^ 2 ∧ (ofLex d).2 < 10 ^ 2)
      (fun d => (padded 2 (ofLex d).1).map letterRank ++ letterRank '-' :: (padded 2 (ofLex d).2).map letterRank) 5 :=
    (keeps_padded 2).append ((keeps_padded 2).cons _) And.left And.right fun _ _ => Prod.Lex.lt_iff
  have hdate := keeps_writeYear.append (hmonth.cons (letterRank '-')) (f := fun day => (date day).year)
    (g := fun day => toLex ((date day).month, (date day).day))
    (R := fun day => 0 ≤ (date day).year ∧ (date day).year ≤ 9999) id
    (fun {day} _ => ⟨(month_le day).trans_lt (by norm_num), (day_le day).trans_lt (by norm_num)⟩)
    (fun {x y} _ _ => lt_iff_date x y)
  refine hdate.congr fun day _ => ?_
  unfold writeDate
  rw [List.map_append, List.map_cons, List.map_append, List.map_cons]
  rfl

theorem keeps_writeTime : KeepsOrder (· < 86400) (fun second => (writeTime second).map letterRank) 8 := by
  have hhour : KeepsOrder (· < 3600) (fun second => (padded 2 (second / 60)).map letterRank ++
      letterRank ':' :: (padded 2 (second % 60)).map letterRank) 5 :=
    (keeps_padded 2).append ((keeps_padded 2).cons _) (f := fun second => second / 60) (g := fun second => second % 60)
      (fun {second} (h : second < 3600) => show second / 60 < 10 ^ 2 by omega)
      (fun {second} _ => show second % 60 < 10 ^ 2 by omega) (fun {x y} _ _ => div_lt_iff_parts x y 60)
  have htime := (keeps_padded 2).append (hhour.cons (letterRank ':')) (f := fun second => second / 3600)
    (g := fun second => second % 3600) (R := (· < 86400))
    (fun {second} (h : second < 86400) => show second / 3600 < 10 ^ 2 by omega)
    (fun {second} _ => Nat.mod_lt second (by norm_num)) (fun {x y} _ _ => div_lt_iff_parts x y 3600)
  refine htime.congr fun second _ => ?_
  unfold writeTime
  rw [show second % 60 = second % 3600 % 60 by omega, List.map_append, List.map_cons, List.map_append, List.map_cons]

theorem keeps_writeSecond : KeepsOrder HasYear (fun second => (writeSecond second).map letterRank) 19 := by
  have hsecond := keeps_writeDate.append (keeps_writeTime.cons (letterRank 'T')) (f := dayOf)
    (g := fun second => (second % 86400).toNat) (R := HasYear) id
    (fun {second} _ => show (second % 86400).toNat < 86400 by omega)
    (fun {x y} _ _ => by unfold dayOf; omega)
  refine hsecond.congr fun second _ => ?_
  unfold writeSecond
  rw [List.map_append, List.map_cons]

/-! ## The fraction of a second -/

/-- What follows the seconds, as it compares. -/
def fractionKey (nanos : Nat) : List Nat := (writeFraction nanos ++ ['Z']).map letterRank

theorem writeFraction_eq (nanos : Nat) : writeFraction nanos =
    if places nanos = 0 then [] else '.' :: padded (places nanos) (nanos / 10 ^ (9 - places nanos)) := by
  unfold writeFraction places
  split_ifs <;> first | rfl | omega | norm_num

/-- A fraction that is written is as many units of its last digit. -/
theorem places_mul (nanos : Nat) : nanos / 10 ^ (9 - places nanos) * 10 ^ (9 - places nanos) = nanos := by
  unfold places
  split_ifs <;> norm_num <;> omega

theorem fractionKey_zero : fractionKey 0 = [letterRank 'Z'] := rfl

theorem fractionKey_pos {nanos : Nat} (h : places nanos ≠ 0) : fractionKey nanos =
    letterRank '.' :: ((digits 10 (places nanos) (nanos / 10 ^ (9 - places nanos))).map (fun d => 3 + d) ++ [letterRank 'Z']) := by
  unfold fractionKey
  rw [writeFraction_eq, if_neg h, List.cons_append, List.map_cons, List.map_append, map_letterRank_padded]
  rfl

/-- A letter that comes after all digits comes after what begins with them. -/
theorem not_letter_lt {width n z : Nat} (hz : 13 ≤ z) : ¬[z] < (digits 10 width n).map (fun d => 3 + d) ++ [z] := by
  rcases hdigits : digits 10 width n with _ | ⟨d, rest⟩
  · exact lt_irrefl _
  · have hmem : d ∈ digits 10 width n := by
      rw [hdigits]
      exact List.mem_cons_self
    have hd : d < 10 := lt_of_mem_digits (by norm_num) hmem
    rw [List.map_cons, List.cons_append, List.cons_lt_cons_iff]
    omega

/-- A number compares with one of more digits as it does with the first of them. -/
theorem digits_lt_iff {k j a n z : Nat} (hz : 13 ≤ z) (ha : a < 10 ^ k) (hn : n < 10 ^ (k + j)) :
    (digits 10 k a).map (fun d => 3 + d) ++ [z] < (digits 10 (k + j) n).map (fun d => 3 + d) ++ [z] ↔ a < n / 10 ^ j := by
  have hkeeps := (keeps_digits 10 k).map (strictMono_add 3)
  have hfirst : n / 10 ^ j < 10 ^ k := Nat.div_lt_of_lt_mul (by rwa [Nat.mul_comm, ← pow_add])
  have hlength : ((digits 10 k a).map fun d => 3 + d).length = ((digits 10 k (n / 10 ^ j)).map fun d => 3 + d).length := by
    rw [hkeeps.length_eq ha, hkeeps.length_eq hfirst]
  rw [digits_add, List.map_append, List.append_assoc, append_lt_append_iff hlength, hkeeps.lt_iff ha hfirst]
  exact or_iff_left fun h => not_letter_lt hz h.2

theorem places_eq_zero {nanos : Nat} : places nanos = 0 ↔ nanos = 0 := by
  unfold places
  split_ifs with h <;> simp [h]

theorem places_cases (nanos : Nat) : places nanos = 0 ∨ places nanos = 3 ∨ places nanos = 6 ∨ places nanos = 9 := by
  unfold places
  split_ifs <;> simp

theorem places_le (nanos : Nat) : places nanos ≤ 9 := by
  unfold places
  split_ifs <;> norm_num

/-- Of two fractions, the one with no more digits comes first where it is smaller than the digits of the other that it has
too. -/
theorem fractionKey_lt_iff {f g : Nat} (hf : f < 1000000000) (hg : g < 1000000000) (hplaces : places f ≤ places g) :
    fractionKey f < fractionKey g ↔ f / 10 ^ (9 - places f) < g / 10 ^ (9 - places f) := by
  have hbound : ∀ {nanos}, nanos < 1000000000 → nanos / 10 ^ (9 - places nanos) < 10 ^ places nanos := by
    intro nanos h
    refine Nat.div_lt_of_lt_mul ?_
    rw [← pow_add, Nat.sub_add_cancel (places_le nanos)]
    exact h
  rcases Nat.eq_zero_or_pos (places f) with hzero | hpos
  · obtain rfl := places_eq_zero.1 hzero
    have hunit : 10 ^ (9 - places 0) = 1000000000 := rfl
    rw [hunit, Nat.div_eq_of_lt hg, Nat.zero_div]
    refine iff_of_false ?_ (lt_irrefl _)
    rw [fractionKey_zero]
    by_cases hg0 : places g = 0
    · unfold fractionKey
      rw [writeFraction_eq, if_pos hg0]
      exact lt_irrefl _
    · rw [fractionKey_pos hg0, List.cons_lt_cons_iff]
      rintro (h | ⟨h, -⟩)
      · exact absurd h (by decide)
      · exact absurd h (by decide)
  · obtain ⟨j, hj⟩ := Nat.exists_eq_add_of_le hplaces
    have hdigits := digits_lt_iff (z := letterRank 'Z') (j := j) (by decide) (hbound hf) (hj ▸ hbound hg)
    rw [fractionKey_pos hpos.ne', fractionKey_pos (hpos.trans_le hplaces).ne', List.cons_lt_cons_self, hj, hdigits,
      Nat.div_div_eq_div_mul, ← pow_add]
    have hexponent : 9 - (places f + j) + j = 9 - places f := by
      have := places_le g
      omega
    rw [hexponent]

theorem fractionKey_ne {f g : Nat} (h : places f < places g) : fractionKey f ≠ fractionKey g := by
  intro heq
  have hg : places g ≠ 0 := by omega
  have hlength := congrArg List.length heq
  rw [fractionKey_pos hg] at hlength
  by_cases hf : places f = 0
  · rw [places_eq_zero.1 hf, fractionKey_zero] at hlength
    simp only [List.length_cons, List.length_append, List.length_map, length_digits, List.length_nil] at hlength
    omega
  · rw [fractionKey_pos hf] at hlength
    simp only [List.length_cons, List.length_append, List.length_map, length_digits] at hlength
    omega

/-! ## Instants -/

theorem collationKey_rfc3339 (nanos : Int) : collationKey (rfc3339 nanos) =
    (writeSecond (nanos / 1000000000)).map letterRank ++ fractionKey (nanos % 1000000000).toNat := by
  unfold collationKey rfc3339 fractionKey
  rw [String.toList_ofList, List.map_append]

theorem lastDigit_cases (nanos : Int) : lastDigit nanos = 1000000000 ∨ lastDigit nanos = 1000000 ∨
    lastDigit nanos = 1000 ∨ lastDigit nanos = 1 := by
  unfold lastDigit places
  split_ifs
  · exact .inl (by norm_num)
  · exact .inr (.inl (by norm_num))
  · exact .inr (.inr (.inl (by norm_num)))
  · exact .inr (.inr (.inr (by norm_num)))

/-- An instant that is cut off is in the same second. -/
theorem CutFrom.second_eq {s t : Int} (h : CutFrom s t) : s / 1000000000 = t / 1000000000 := by
  obtain ⟨hlt, heq⟩ := h
  rcases lastDigit_cases s with hunit | hunit | hunit | hunit <;> rw [hunit] at heq <;> omega

theorem lastDigit_dvd (nanos : Int) : lastDigit nanos ∣ nanos := by
  unfold lastDigit places
  split_ifs <;> norm_num <;> omega

/-- An instant with no more digits is not cut short by another. -/
theorem not_cutFrom {s t : Int} (h : places (s % 1000000000).toNat ≤ places (t % 1000000000).toNat) : ¬CutFrom t s := by
  rintro ⟨hlt, heq⟩
  have hdvd : lastDigit t ∣ lastDigit s := pow_dvd_pow 10 (Nat.sub_le_sub_left h 9)
  rw [Int.emod_eq_zero_of_dvd (hdvd.trans (lastDigit_dvd s)), sub_zero] at heq
  exact hlt.ne heq

/-- Within a second, the fraction with fewer digits comes first unless it is the other one cut off. -/
theorem fractionKey_lt_iff_cutFrom {s t : Int} (hsecond : s / 1000000000 = t / 1000000000)
    (h : places (s % 1000000000).toNat ≤ places (t % 1000000000).toNat) :
    fractionKey (s % 1000000000).toNat < fractionKey (t % 1000000000).toNat ↔ s < t ∧ ¬CutFrom s t := by
  have hmul := places_mul (s % 1000000000).toNat
  rw [fractionKey_lt_iff (by omega) (by omega) h]
  unfold CutFrom lastDigit
  rcases places_cases (s % 1000000000).toNat with hplaces | hplaces | hplaces | hplaces <;> rw [hplaces] at hmul ⊢ <;>
    norm_num at hmul ⊢ <;> omega

theorem fractionKey_lt_iff_or {s t : Int} (hsecond : s / 1000000000 = t / 1000000000) :
    fractionKey (s % 1000000000).toNat < fractionKey (t % 1000000000).toNat ↔ s < t ∧ ¬CutFrom s t ∨ CutFrom t s := by
  rcases Nat.lt_or_ge (places (t % 1000000000).toNat) (places (s % 1000000000).toNat) with hlt | hle
  · have hst : s ≠ t := by
      rintro rfl
      exact lt_irrefl _ hlt
    have hless : CutFrom t s → t < s := And.left
    rw [← not_le, (fractionKey_ne hlt).le_iff_lt, fractionKey_lt_iff_cutFrom hsecond.symm hlt.le, and_iff_left (not_cutFrom hlt.le)]
    by_cases hcut : CutFrom t s
    · exact iff_of_true (fun h => h.2 hcut) (.inr hcut)
    · rw [and_iff_left hcut, or_iff_left hcut]
      omega
  · rw [fractionKey_lt_iff_cutFrom hsecond hle, or_iff_left (not_cutFrom hle)]

/-- The order of the texts is that of the instants, but where one instant is the other cut off: then it is the other way
round. -/
theorem collationKey_rfc3339_lt_iff {s t : Int} (hs : HasYear (s / 1000000000)) (ht : HasYear (t / 1000000000)) :
    collationKey (rfc3339 s) < collationKey (rfc3339 t) ↔ s < t ∧ ¬CutFrom s t ∨ CutFrom t s := by
  have hlength := (keeps_writeSecond.length_eq hs).trans (keeps_writeSecond.length_eq ht).symm
  rw [collationKey_rfc3339, collationKey_rfc3339, append_lt_append_iff hlength, keeps_writeSecond.lt_iff hs ht,
    keeps_writeSecond.eq_iff hs ht]
  rcases lt_trichotomy (s / 1000000000) (t / 1000000000) with hlt | heq | hlt
  · refine iff_of_true (.inl hlt) (.inl ⟨by omega, fun hcut => ?_⟩)
    exact hlt.ne hcut.second_eq
  · rw [fractionKey_lt_iff_or heq]
    exact ⟨fun h => h.elim (fun h => absurd heq h.ne) And.right, fun h => .inr ⟨heq, h⟩⟩
  · refine iff_of_false (fun h => ?_) fun h => ?_
    · exact h.elim hlt.not_gt fun h => hlt.ne' h.1
    · exact h.elim (fun h => by omega) fun h => hlt.ne h.second_eq

theorem padded_spelled {width n : Nat} {c : Char} (h : c ∈ padded width n) : c ∈ alphabet :=
  digits_spelled (by norm_num) (by norm_num) h

theorem writeFraction_spelled {nanos : Nat} {c : Char} (h : c ∈ writeFraction nanos) : c ∈ alphabet := by
  rw [writeFraction_eq] at h
  split at h
  · cases h
  · rcases List.mem_cons.1 h with rfl | h
    · decide
    · exact padded_spelled h

theorem rfc3339_spelled {nanos : Int} (h : HasYear (nanos / 1000000000)) : Spelled (rfc3339 nanos) := by
  intro c hc
  obtain ⟨hleast, hmost⟩ := h
  unfold rfc3339 writeSecond writeDate writeTime writeYear at hc
  rw [if_pos ⟨hleast, hmost⟩, String.toList_ofList] at hc
  simp only [List.mem_append, List.mem_cons, List.not_mem_nil, or_false] at hc
  have hpadded : ∀ {width n}, c ∈ padded width n → c ∈ alphabet := padded_spelled
  have hfraction : ∀ {n}, c ∈ writeFraction n → c ∈ alphabet := writeFraction_spelled
  have hletter : c = '-' ∨ c = ':' ∨ c = 'T' ∨ c = 'Z' → c ∈ alphabet := by
    rintro (rfl | rfl | rfl | rfl) <;> decide
  tauto

/-! ## Identifiers -/

/-- The bytes of an identifier, in hexadecimal. -/
def hexOf (bytes : List Nat) : List Char := (bytes.flatMap (digits 16 2)).map Nat.digitChar

theorem toList_hexByte (byte : BitVec 8) : (hexByte byte).toList = hexOf [byte.toNat] := by
  have hdigit : ∀ d : Nat, d < 16 → Char.ofNat (if d < 10 then '0'.toNat + d else 'a'.toNat + (d - 10)) = Nat.digitChar d := by
    intro d h
    interval_cases d <;> rfl
  have hbyte : byte.toNat < 256 := byte.isLt
  have hfirst : byte.toNat / 16 % 16 = byte.toNat / 16 := Nat.mod_eq_of_lt (by omega)
  unfold hexByte hexOf
  rw [String.toList_ofList, List.flatMap_singleton]
  change _ = [Nat.digitChar (byte.toNat / 16 % 16), Nat.digitChar (byte.toNat % 16)]
  rw [hfirst, ← hdigit _ (by omega), ← hdigit _ (Nat.mod_lt _ (by norm_num))]

theorem hexOf_append (a b : List Nat) : hexOf (a ++ b) = hexOf a ++ hexOf b := by
  unfold hexOf
  rw [List.flatMap_append, List.map_append]

theorem toList_join_hexByte (bytes : List (BitVec 8)) :
    (String.join (bytes.map hexByte)).toList = hexOf (bytes.map (·.toNat)) := by
  induction bytes with
  | nil => rfl
  | cons byte bytes ih =>
    rw [List.map_cons, String.join_cons, String.toList_append, ih, toList_hexByte, List.map_cons, ← hexOf_append]
    rfl

theorem asBytes_toNat (u : Uuid) : (Uuid.asBytes u).map (·.toNat) = digits 256 16 u.toNat := by
  rw [digits_eq_map, Uuid.asBytes, List.map_map]
  refine List.map_congr_left fun i _ => ?_
  rw [Function.comp_apply, BitVec.toNat_ofNat, Nat.shiftRight_eq_div_pow, pow_mul]
  rfl

theorem part_uuidText (u : Uuid) (start length rest : Nat) (h : start + length + rest = 16) :
    (String.join (((Uuid.asBytes u).map hexByte).drop start |>.take length)).toList =
      hexOf (digits 256 length (u.toNat / 256 ^ rest)) := by
  rw [← List.map_drop, ← List.map_take, toList_join_hexByte, List.map_take, List.map_drop, asBytes_toNat, ← h,
    drop_take_digits]

/-- The text of an identifier: its digits, with hyphens between them. -/
theorem toList_uuidText (u : Uuid) : (uuidText u).toList =
    hexOf (digits 256 4 (u.toNat / 256 ^ 12)) ++ '-' :: (hexOf (digits 256 2 (u.toNat / 256 ^ 10)) ++
      '-' :: (hexOf (digits 256 2 (u.toNat / 256 ^ 8)) ++ '-' :: (hexOf (digits 256 2 (u.toNat / 256 ^ 6)) ++
        '-' :: hexOf (digits 256 6 u.toNat)))) := by
  have hlast := part_uuidText u 10 6 0 rfl
  rw [pow_zero, Nat.div_one] at hlast
  unfold uuidText
  simp only [String.intercalate_cons_cons, String.intercalate_singleton, String.toList_append]
  rw [part_uuidText u 0 4 12 rfl, part_uuidText u 4 2 10 rfl, part_uuidText u 6 2 8 rfl, part_uuidText u 8 2 6 rfl, hlast]
  simp only [List.append_assoc]
  rfl

theorem hexOf_spelled {width n : Nat} {c : Char} (h : c ∈ hexOf (digits 256 width n)) : c ∈ alphabet := by
  unfold hexOf at h
  rw [show 256 = 16 * 16 from rfl, ← digits_square] at h
  exact digits_spelled (by norm_num) le_rfl h

theorem uuidText_spelled (u : Uuid) : Spelled (uuidText u) := by
  intro c hc
  have hhex : ∀ {width n}, c ∈ hexOf (digits 256 width n) → c ∈ alphabet := hexOf_spelled
  have hhyphen : c = '-' → c ∈ alphabet := by
    rintro rfl
    decide
  rw [toList_uuidText] at hc
  simp only [List.mem_append, List.mem_cons] at hc
  tauto

theorem length_hexOf (width n m : Nat) :
    ((hexOf (digits 256 width n)).map letterRank).length = ((hexOf (digits 256 width m)).map letterRank).length := by
  unfold hexOf
  rw [show 256 = 16 * 16 from rfl, ← digits_square, ← digits_square]
  simp only [List.length_map, length_digits]

theorem hexOf_sixteen (n : Nat) : hexOf (digits 256 16 n) =
    hexOf (digits 256 4 (n / 256 ^ 12)) ++ (hexOf (digits 256 2 (n / 256 ^ 10)) ++ (hexOf (digits 256 2 (n / 256 ^ 8)) ++
      (hexOf (digits 256 2 (n / 256 ^ 6)) ++ hexOf (digits 256 6 n)))) := by
  rw [digits_add 256 4 12, digits_add 256 2 10, digits_add 256 2 8, digits_add 256 2 6]
  simp only [hexOf_append]

/-- The order of the texts is that of the identifiers. -/
theorem collationKey_uuidText_lt_iff (u v : Uuid) : collationKey (uuidText u) < collationKey (uuidText v) ↔ u.toNat < v.toNat := by
  have hnumber : (hexOf (digits 256 16 u.toNat)).map letterRank < (hexOf (digits 256 16 v.toNat)).map letterRank ↔ u.toNat < v.toNat := by
    unfold hexOf
    rw [show 256 = 16 * 16 from rfl, ← digits_square, ← digits_square, map_letterRank_digits (by norm_num) le_rfl,
      map_letterRank_digits (by norm_num) le_rfl, map_lt_map_iff (strictMono_add 3)]
    exact (keeps_digits 16 32).lt_iff u.isLt v.isLt
  rw [← hnumber, collationKey, collationKey, toList_uuidText, toList_uuidText, hexOf_sixteen, hexOf_sixteen]
  -- the hyphens are at the same places
  simp only [List.map_append, List.map_cons, append_lt_append_iff (length_hexOf _ _ _), List.cons_lt_cons_self]

theorem collationKey_uuidText_eq_iff (u v : Uuid) : collationKey (uuidText u) = collationKey (uuidText v) ↔ u = v := by
  refine ⟨fun h => ?_, fun h => h ▸ rfl⟩
  rcases lt_trichotomy u.toNat v.toNat with hlt | heq | hlt
  · exact absurd ((collationKey_uuidText_lt_iff u v).2 hlt) h.not_lt
  · exact BitVec.eq_of_toNat_eq heq
  · exact absurd ((collationKey_uuidText_lt_iff v u).2 hlt) h.not_gt

end Genzh.Client
