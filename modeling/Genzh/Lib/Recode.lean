/-
Texts in two alphabets, where some letters of the one have a letter of the other for them and every other letter is
written with foreign ones, as many as it takes. A pattern made of letters that both have is found in the one text where it
is found in the other.
-/
import Mathlib.Tactic

namespace Genzh.Lib

section Recode

variable {α β : Type*} (code : α → Option β) (foreign : β → Prop)

/-- The second text writes the first. -/
inductive Recodes : List α → List β → Prop
  | nil : Recodes [] []
  | letter {a : α} {b : β} {l : List α} {u : List β} (ha : code a = some b) (h : Recodes l u) : Recodes (a :: l) (b :: u)
  | other {a : α} {vs : List β} {l : List α} {u : List β} (ha : code a = none) (hne : vs ≠ [])
      (hvs : ∀ v ∈ vs, foreign v) (h : Recodes l u) : Recodes (a :: l) (vs ++ u)

/-- How many places of the text the pattern stands at. -/
def starts [BEq β] (pat u : List β) : Nat := u.tails.countP fun t => pat.isPrefixOf t

variable {code foreign} {l pat : List α} {u : List β}

/-- A class of letters that both alphabets have: what is taken from the one text is written by what is taken from the
other, and what is left by what is left. -/
theorem Recodes.takeWhile {p : α → Bool} {q : β → Bool} (hletter : ∀ a b, code a = some b → q b = p a)
    (hother : ∀ a, code a = none → p a = false) (hforeign : ∀ v, foreign v → q v = false) (h : Recodes code foreign l u) :
    u.takeWhile q = (l.takeWhile p).filterMap code ∧ ∀ a ∈ l.takeWhile p, (code a).isSome = true := by
  induction h with
  | nil => exact ⟨rfl, fun a ha => (by cases ha)⟩
  | @letter a b l u ha h ih =>
    rw [List.takeWhile_cons, List.takeWhile_cons, hletter a b ha]
    cases hp : p a with
    | false => exact ⟨rfl, fun a ha => (by cases ha)⟩
    | true =>
      refine ⟨?_, ?_⟩
      · rw [if_pos rfl, if_pos rfl, List.filterMap_cons_some ha, ih.1]
      · intro c hc
        rcases List.mem_cons.1 hc with rfl | hc
        · rw [ha]
          rfl
        · exact ih.2 c hc
  | @other a vs l u ha hne hvs h ih =>
    rw [List.takeWhile_cons, hother a ha]
    obtain ⟨v, vs, rfl⟩ := List.exists_cons_of_ne_nil hne
    rw [List.cons_append, List.takeWhile_cons, hforeign v (hvs v List.mem_cons_self)]
    exact ⟨rfl, fun a ha => (by cases ha)⟩

/-- Letters that both alphabets have are written one for one. -/
theorem Recodes.append {w : List α} (hw : ∀ a ∈ w, (code a).isSome = true) {l : List α} {u : List β}
    (h : Recodes code foreign (w ++ l) u) : ∃ v, u = w.filterMap code ++ v ∧ Recodes code foreign l v := by
  induction w generalizing u with
  | nil => exact ⟨u, rfl, h⟩
  | cons a w ih =>
    have hsome := hw a List.mem_cons_self
    cases h with
    | @letter _ b _ u ha h =>
      obtain ⟨v, rfl, hv⟩ := ih (fun c hc => hw c (List.mem_cons_of_mem _ hc)) h
      exact ⟨v, by rw [List.filterMap_cons_some ha]; rfl, hv⟩
    | other ha =>
      rw [ha] at hsome
      cases hsome

/-- No two letters are written alike. -/
def Faithful (code : α → Option β) : Prop := ∀ a c b, code a = some b → code c = some b → a = c

/-- One text goes on with a letter where the other goes on with what is written for it. -/
theorem Recodes.head (hcode : Faithful code) {a : α} {b : β} (hab : code a = some b) (hb : ¬ foreign b)
    (h : Recodes code foreign l u) : u.head? = some b ↔ l.head? = some a := by
  cases h with
  | nil => exact iff_of_false (fun h => (by cases h)) (fun h => (by cases h))
  | @letter c d l u hc h =>
    rw [List.head?_cons, List.head?_cons, Option.some_inj, Option.some_inj]
    constructor
    · rintro rfl
      exact hcode c a d hc hab
    · rintro rfl
      exact Option.some.inj (hc.symm.trans hab)
  | @other c vs l u hc hne hvs h =>
    obtain ⟨v, vs, rfl⟩ := List.exists_cons_of_ne_nil hne
    rw [List.cons_append, List.head?_cons, List.head?_cons, Option.some_inj, Option.some_inj]
    refine iff_of_false ?_ ?_
    · rintro rfl
      exact hb (hvs v List.mem_cons_self)
    · rintro rfl
      rw [hc] at hab
      cases hab

/-! ## Patterns -/

section Patterns

theorem starts_cons [BEq β] {b : β} {pat : List β} :
    starts pat (b :: u) = (if pat.isPrefixOf (b :: u) then 1 else 0) + starts pat u := by
  unfold starts
  rw [List.tails_cons, List.countP_cons, Nat.add_comm]

variable [BEq α] [LawfulBEq α] [BEq β] [LawfulBEq β]

/-- A pattern of letters that both alphabets have. -/
structure Shared (code : α → Option β) (foreign : β → Prop) (pat : List α) (pat' : List β) : Prop where
  written : List.Forall₂ (fun a b => code a = some b) pat pat'
  native : ∀ b ∈ pat', ¬ foreign b

theorem Recodes.isPrefixOf (hcode : Faithful code) {pat : List α} {pat' : List β} (hpat : Shared code foreign pat pat')
    (h : Recodes code foreign l u) : pat'.isPrefixOf u = pat.isPrefixOf l := by
  obtain ⟨hwritten, hnative⟩ := hpat
  induction hwritten generalizing l u with
  | nil => rfl
  | @cons a b pat pat' hab hrest ih =>
    cases h with
    | nil => rfl
    | @letter c d l u hc h =>
      rw [List.isPrefixOf_cons_cons, List.isPrefixOf_cons_cons, ih h fun b hb => hnative b (List.mem_cons_of_mem _ hb)]
      congr 1
      rw [Bool.eq_iff_iff, beq_iff_eq, beq_iff_eq]
      constructor
      · rintro rfl
        exact hcode a c b hab hc
      · rintro rfl
        exact Option.some.inj (hab.symm.trans hc)
    | @other c vs l u hc hne hvs h =>
      obtain ⟨v, vs, rfl⟩ := List.exists_cons_of_ne_nil hne
      -- neither the foreign letters nor what they write begins the pattern
      have hv : b ≠ v := fun heq => hnative b List.mem_cons_self (heq ▸ hvs v List.mem_cons_self)
      have ha : a ≠ c := fun heq => by rw [heq, hc] at hab; cases hab
      rw [List.cons_append, List.isPrefixOf_cons_cons, List.isPrefixOf_cons_cons, beq_eq_false_iff_ne.2 hv, beq_eq_false_iff_ne.2 ha]
      rfl

theorem starts_foreign {b : β} {pat vs : List β} (hb : ¬ foreign b) (hvs : ∀ v ∈ vs, foreign v) :
    starts (b :: pat) (vs ++ u) = starts (b :: pat) u := by
  induction vs with
  | nil => rfl
  | cons v vs ih =>
    have hv : b ≠ v := fun heq => hb (heq ▸ hvs v List.mem_cons_self)
    rw [List.cons_append, starts_cons, List.isPrefixOf_cons_cons, beq_eq_false_iff_ne.2 hv,
      ih fun w hw => hvs w (List.mem_cons_of_mem _ hw)]
    simp

/-- The pattern stands at as many places of either text. -/
theorem Recodes.starts (hcode : Faithful code) {a : α} {b : β} {pat : List α} {pat' : List β}
    (hpat : Shared code foreign (a :: pat) (b :: pat')) (h : Recodes code foreign l u) :
    Lib.starts (b :: pat') u = Lib.starts (a :: pat) l := by
  induction h with
  | nil => rfl
  | @letter c d l u hc h ih =>
    rw [starts_cons, starts_cons, ih, (Recodes.letter hc h).isPrefixOf hcode hpat]
  | @other c vs l u hc hne hvs h ih =>
    have hab : code a = some b := (List.forall₂_cons.1 hpat.written).1
    have ha : a ≠ c := fun heq => by rw [heq, hc] at hab; cases hab
    rw [starts_foreign (hpat.native b List.mem_cons_self) hvs, ih, starts_cons, List.isPrefixOf_cons_cons, beq_eq_false_iff_ne.2 ha]
    simp

end Patterns

end Recode

end Genzh.Lib
