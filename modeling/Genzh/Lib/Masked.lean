/-
Two states seen through a mask: lists that look the same once part of what they hold is hidden, in whatever order. What is
told from the masks alone is the same in both.
-/
import Mathlib.Tactic
import Mathlib.Data.List.Dedup

namespace Genzh.Lib

variable {α β μ : Type*} {mask : α → μ} {l l' : List α}

/-- Do the lists look the same? -/
def LooksLike (mask : α → μ) (l l' : List α) : Prop := (l.map mask).Perm (l'.map mask)

namespace LooksLike

/-- What is selected, and what is read of it, are seen through the mask. -/
theorem select_perm (h : LooksLike mask l l') {p : α → Bool} {q : μ → Bool} (hp : ∀ a, p a = q (mask a)) {f : α → β} {g : μ → β}
    (hf : ∀ a, f a = g (mask a)) : ((l.filter p).map f).Perm ((l'.filter p).map f) := by
  obtain rfl : p = q ∘ mask := funext hp
  obtain rfl : f = g ∘ mask := funext hf
  rw [← List.map_map, ← List.map_map, ← List.filter_map, ← List.filter_map]
  exact (List.Perm.filter q h).map g

theorem countP_eq (h : LooksLike mask l l') {p : α → Bool} {q : μ → Bool} (hp : ∀ a, p a = q (mask a)) : l.countP p = l'.countP p := by
  obtain rfl : p = q ∘ mask := funext hp
  rw [← List.countP_map, ← List.countP_map]
  exact List.Perm.countP_eq q h

theorem any_eq (h : LooksLike mask l l') {p : α → Bool} {q : μ → Bool} (hp : ∀ a, p a = q (mask a)) : l.any p = l'.any p := by
  have hcount := h.countP_eq hp
  rw [Bool.eq_iff_iff, List.any_eq_true, List.any_eq_true, ← List.countP_pos_iff, ← List.countP_pos_iff, hcount]

end LooksLike

end Genzh.Lib
