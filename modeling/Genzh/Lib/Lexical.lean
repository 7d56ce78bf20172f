/-
Texts in the order of a dictionary, and what that says of what they write. A writing keeps the order when its texts are
all of one length and compare as what they write does; such writings are put one after the other, part by part.
-/
import Mathlib.Tactic

namespace Genzh.Lib.Lexical

variable {α β γ : Type*} [LinearOrder α] [LinearOrder β] [LinearOrder γ]

/-! ## Texts -/

theorem append_lt_append_iff {a b : List α} (h : a.length = b.length) (x y : List α) :
    a ++ x < b ++ y ↔ a < b ∨ a = b ∧ x < y := by
  induction a generalizing b with
  | nil =>
    rw [List.length_nil, eq_comm, List.length_eq_zero_iff] at h
    subst h
    exact ⟨fun h => .inr ⟨rfl, h⟩, fun h => h.elim (fun h => absurd h (lt_irrefl _)) And.right⟩
  | cons c a ih =>
    cases b with
    | nil => cases h
    | cons d b =>
      rw [List.cons_append, List.cons_append, List.cons_lt_cons_iff, ih (Nat.succ.inj h), List.cons_lt_cons_iff,
        List.cons.injEq]
      tauto

theorem map_lt_map_iff {f : α → β} (hf : StrictMono f) {a b : List α} : a.map f < b.map f ↔ a < b := by
  induction a generalizing b with
  | nil =>
    cases b with
    | nil => exact iff_of_false (lt_irrefl _) (lt_irrefl _)
    | cons d b => exact iff_of_true (List.nil_lt_cons _ _) (List.nil_lt_cons _ _)
  | cons c a ih =>
    cases b with
    | nil => exact iff_of_false (List.not_lt_nil _) (List.not_lt_nil _)
    | cons d b =>
      rw [List.map_cons, List.map_cons, List.cons_lt_cons_iff, List.cons_lt_cons_iff, hf.lt_iff_lt, hf.injective.eq_iff, ih]

/-! ## Writings that keep the order -/

/-- What is written of `P` is of one length, and in the order of what it writes. -/
structure KeepsOrder (P : α → Prop) (write : α → List β) (length : Nat) : Prop where
  length_eq : ∀ {x}, P x → (write x).length = length
  lt_iff : ∀ {x y}, P x → P y → (write x < write y ↔ x < y)

section KeepsOrder

variable {P : α → Prop} {Q : β → Prop} {R : γ → Prop} {write : α → List ℕ} {n m : Nat}

theorem KeepsOrder.eq_iff (h : KeepsOrder P write n) {x y : α} (hx : P x) (hy : P y) : write x = write y ↔ x = y := by
  refine ⟨fun heq => ?_, congrArg write⟩
  rcases lt_trichotomy x y with hlt | rfl | hlt
  · exact absurd ((h.lt_iff hx hy).2 hlt) (heq ▸ lt_irrefl _)
  · rfl
  · exact absurd ((h.lt_iff hy hx).2 hlt) (heq ▸ lt_irrefl _)

/-- What two parts tell apart, the first before the second, is written as the one after the other. -/
theorem KeepsOrder.append {write' : β → List ℕ} (h : KeepsOrder P write n) (h' : KeepsOrder Q write' m) {f : γ → α} {g : γ → β}
    (hf : ∀ {x}, R x → P (f x)) (hg : ∀ {x}, R x → Q (g x))
    (hlt : ∀ {x y}, R x → R y → (x < y ↔ f x < f y ∨ f x = f y ∧ g x < g y)) :
    KeepsOrder R (fun x => write (f x) ++ write' (g x)) (n + m) where
  length_eq hx := by rw [List.length_append, h.length_eq (hf hx), h'.length_eq (hg hx)]
  lt_iff {x y} hx hy := by
    have hlength : (write (f x)).length = (write (f y)).length := (h.length_eq (hf hx)).trans (h.length_eq (hf hy)).symm
    rw [append_lt_append_iff hlength, h.lt_iff (hf hx) (hf hy), h.eq_iff (hf hx) (hf hy), h'.lt_iff (hg hx) (hg hy),
      hlt hx hy]

theorem KeepsOrder.comap (h : KeepsOrder P write n) {f : γ → α} (hf : ∀ {x}, R x → P (f x))
    (hlt : ∀ {x y}, R x → R y → (f x < f y ↔ x < y)) : KeepsOrder R (fun x => write (f x)) n where
  length_eq hx := h.length_eq (hf hx)
  lt_iff hx hy := by rw [h.lt_iff (hf hx) (hf hy), hlt hx hy]

theorem KeepsOrder.cons (h : KeepsOrder P write n) (c : ℕ) : KeepsOrder P (fun x => c :: write x) (n + 1) where
  length_eq hx := by rw [List.length_cons, h.length_eq hx]
  lt_iff hx hy := by rw [List.cons_lt_cons_self, h.lt_iff hx hy]

theorem KeepsOrder.map (h : KeepsOrder P write n) {f : ℕ → ℕ} (hf : StrictMono f) : KeepsOrder P (fun x => (write x).map f) n where
  length_eq hx := by rw [List.length_map, h.length_eq hx]
  lt_iff hx hy := by rw [map_lt_map_iff hf, h.lt_iff hx hy]

theorem KeepsOrder.congr (h : KeepsOrder P write n) {write' : α → List ℕ} (heq : ∀ x, P x → write' x = write x) :
    KeepsOrder P write' n where
  length_eq hx := by rw [heq _ hx, h.length_eq hx]
  lt_iff hx hy := by rw [heq _ hx, heq _ hy, h.lt_iff hx hy]

/-- A part that grows with the whole, and a rest that tells apart what agrees in it. -/
theorem lt_iff_parts {f : α → β} {g : α → γ} (hf : Monotone f) (hg : ∀ x y, f x = f y → (x < y ↔ g x < g y)) (x y : α) :
    x < y ↔ f x < f y ∨ f x = f y ∧ g x < g y := by
  constructor
  · intro hlt
    rcases (hf hlt.le).lt_or_eq with h | h
    · exact .inl h
    · exact .inr ⟨h, (hg x y h).1 hlt⟩
  · rintro (h | ⟨h, hlt⟩)
    · exact hf.reflect_lt h
    · exact (hg x y h).2 hlt

end KeepsOrder

/-! ## Digits -/

/-- The last digits of a number, so many, the first first. -/
def digits (base : Nat) : Nat → Nat → List Nat
  | 0, _ => []
  | width + 1, n => digits base width (n / base) ++ [n % base]

variable {base width n m : Nat}

theorem length_digits (base width n : Nat) : (digits base width n).length = width := by
  induction width generalizing n with
  | zero => rfl
  | succ width ih => rw [digits, List.length_append, ih, List.length_singleton]

theorem lt_of_mem_digits (hbase : 0 < base) {d : Nat} (h : d ∈ digits base width n) : d < base := by
  induction width generalizing n with
  | zero => cases h
  | succ width ih =>
    rcases List.mem_append.1 h with h | h
    · exact ih h
    · exact List.mem_singleton.1 h ▸ Nat.mod_lt _ hbase

/-- The last digits follow those before them. -/
theorem digits_add (base k j n : Nat) : digits base (k + j) n = digits base k (n / base ^ j) ++ digits base j n := by
  induction j generalizing n with
  | zero => rw [pow_zero, Nat.div_one, digits, List.append_nil, Nat.add_zero]
  | succ j ih =>
    rw [← Nat.add_assoc, digits, ih, digits, Nat.div_div_eq_div_mul, List.append_assoc, pow_succ, Nat.mul_comm]

/-- Each digit by itself. -/
theorem digits_eq_map (base width n : Nat) :
    digits base width n = (List.range width).map fun i => n / base ^ (width - 1 - i) % base := by
  induction width generalizing n with
  | zero => rfl
  | succ width ih =>
    have hearlier : ∀ i ∈ List.range width, n / base / base ^ (width - 1 - i) % base = n / base ^ (width - i) % base := by
      intro i hi
      have hi := List.mem_range.1 hi
      rw [Nat.div_div_eq_div_mul, ← pow_succ', show width - 1 - i + 1 = width - i by omega]
    rw [digits, ih, List.range_succ, List.map_append, List.map_congr_left hearlier, List.map_singleton, Nat.succ_sub_one,
      Nat.sub_self, pow_zero, Nat.div_one]

/-- A digit of a squared base is written with two. -/
theorem digits_square (base width n : Nat) :
    digits base (2 * width) n = (digits (base * base) width n).flatMap (digits base 2) := by
  induction width generalizing n with
  | zero => rfl
  | succ width ih =>
    have hlast : digits base 2 (n % (base * base)) = [n / base % base, n % base] := by
      change [n % (base * base) / base % base, n % (base * base) % base] = _
      rw [Nat.mod_mul_right_div_self, Nat.mod_mod, Nat.mod_mul_right_mod]
    change (digits base (2 * width) (n / base / base) ++ [n / base % base]) ++ [n % base] =
      (digits (base * base) width (n / (base * base)) ++ [n % (base * base)]).flatMap (digits base 2)
    rw [List.flatMap_append, ← ih, List.flatMap_singleton, hlast, ← Nat.div_div_eq_div_mul, List.append_assoc]
    rfl

theorem drop_take_digits (base start length rest n : Nat) :
    ((digits base (start + length + rest) n).drop start).take length = digits base length (n / base ^ rest) := by
  rw [digits_add, digits_add, List.append_assoc, List.drop_left' (length_digits ..), List.take_left' (length_digits ..)]

theorem div_lt_iff_parts (n m base : Nat) : n < m ↔ n / base < m / base ∨ n / base = m / base ∧ n % base < m % base := by
  refine lt_iff_parts (f := fun n => n / base) (g := fun n => n % base) (fun a b h => Nat.div_le_div_right h) ?_ n m
  intro a b heq
  have ha := Nat.div_add_mod a base
  have hb := Nat.div_add_mod b base
  change a / base = b / base at heq
  rw [heq] at ha
  change a < b ↔ a % base < b % base
  omega

/-- The numbers of so many digits are in the order of their digits. -/
theorem keeps_digits (base width : Nat) : KeepsOrder (· < base ^ width) (digits base width) width where
  length_eq _ := length_digits base width _
  lt_iff {n m} hn hm := by
    induction width generalizing n m with
    | zero =>
      rw [pow_zero, Nat.lt_one_iff] at hn hm
      subst hn hm
      exact iff_of_false (lt_irrefl _) (lt_irrefl _)
    | succ width ih =>
      have hbound : ∀ {k}, k < base ^ (width + 1) → k / base < base ^ width :=
        fun hk => Nat.div_lt_of_lt_mul (by rwa [pow_succ, Nat.mul_comm] at hk)
      have hlower : KeepsOrder (· < base ^ width) (digits base width) width :=
        ⟨fun _ => length_digits base width _, fun hn hm => ih hn hm⟩
      rw [digits, digits, append_lt_append_iff ((length_digits ..).trans (length_digits ..).symm), ih (hbound hn) (hbound hm),
        hlower.eq_iff (hbound hn) (hbound hm), List.cons_lt_cons_iff, div_lt_iff_parts n m base]
      have hnil : ¬([] : List Nat) < [] := lt_irrefl _
      tauto

end Genzh.Lib.Lexical
