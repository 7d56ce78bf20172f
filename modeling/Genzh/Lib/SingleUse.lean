/-
Tokens that are used up by being presented: one is current, some wait to become it, and the current one may be under renewal,
which is when it is presented. `Accounted` says that these add up, each of its rules what one kind of step does to the account.
-/
import Mathlib.Data.List.Nodup
import Mathlib.Data.List.Perm.Basic
import Mathlib.Data.List.Perm.Subperm

namespace Genzh.Lib

section Account

variable {T : Type*} {current current' renewing renewing' : Option T} {waiting waiting' presented issued : List T} {t : T}

/-- Of the tokens held, the current one and those waiting to become it, only the current one can have been presented, while
it is being renewed. -/
structure Accounted (current : Option T) (waiting : List T) (renewing : Option T) (presented issued : List T) : Prop where
  nodup : (current.toList ++ waiting).Nodup
  held : ∀ t ∈ current.toList ++ waiting, t ∈ issued
  shown : ∀ t ∈ presented, t ∈ issued
  unspent : ∀ t ∈ waiting, t ∉ presented
  spent : ∀ t, current = some t → t ∈ presented → renewing = some t
  asked : ∀ t, renewing = some t → t ∈ presented

namespace Accounted

/-- The current token is presented: it is one of the server's, and none of those that wait. -/
theorem presents (h : Accounted (some t) waiting renewing presented issued) :
    (∀ u ∈ presented ++ [t], u ∈ issued) ∧ ∀ u ∈ waiting, u ∉ presented ++ [t] := by
  simp only [List.mem_append, List.mem_singleton, not_or]
  constructor
  · rintro u (hu | rfl)
    · exact h.shown u hu
    · exact h.held u List.mem_cons_self
  · intro u hu
    refine ⟨h.unspent u hu, ?_⟩
    rintro rfl
    exact (List.nodup_cons.1 h.nodup).1 hu

theorem begins (h : Accounted (some t) waiting none presented issued) :
    Accounted (some t) waiting (some t) (presented ++ [t]) issued where
  nodup := h.nodup
  held := h.held
  shown := h.presents.1
  unspent := h.presents.2
  spent _ hu _ := hu
  asked u hu := by
    cases hu
    exact List.mem_append_right _ (List.mem_singleton_self _)

theorem issues (h : Accounted current waiting renewing presented issued) (ht : t ∉ issued) :
    Accounted current (t :: waiting) renewing presented (issued ++ [t]) where
  nodup := List.perm_middle.nodup_iff.2 (List.nodup_cons.2 ⟨fun hheld => ht (h.held t hheld), h.nodup⟩)
  held u hu := by
    rcases List.mem_cons.1 (List.perm_middle.mem_iff.1 hu) with rfl | hu
    · exact List.mem_append_right _ (List.mem_singleton_self _)
    · exact List.mem_append_left _ (h.held u hu)
  shown u hu := List.mem_append_left _ (h.shown u hu)
  unspent u hu hp := by
    rcases List.mem_cons.1 hu with rfl | hu
    · exact ht (h.shown u hp)
    · exact h.unspent u hu hp
  spent := h.spent
  asked := h.asked

/-- Tokens change hands or are given up, and a renewal may be over. -/
theorem narrows (h : Accounted current waiting renewing presented issued)
    (hheld : (current'.toList ++ waiting').Subperm (current.toList ++ waiting)) (hwaiting : waiting' ⊆ waiting)
    (hrenewing : ∀ u, renewing' = some u → renewing = some u)
    (hspent : ∀ u, current' = some u → u ∈ presented → renewing' = some u) :
    Accounted current' waiting' renewing' presented issued where
  nodup := by
    obtain ⟨us, hperm, hsub⟩ := hheld
    exact hperm.nodup_iff.1 (h.nodup.sublist hsub)
  held u hu := h.held u (hheld.subset hu)
  shown := h.shown
  unspent u hu := h.unspent u (hwaiting hu)
  spent := hspent
  asked u hu := h.asked u (hrenewing u hu)

/-- A waiting token becomes the current one. -/
theorem adopts (h : Accounted current waiting renewing presented issued) (hwaiting : waiting.Perm (t :: waiting'))
    (hrenewing : ∀ u, renewing' = some u → renewing = some u) :
    Accounted (some t) waiting' renewing' presented issued := by
  refine h.narrows ?_ ?_ hrenewing ?_
  · exact hwaiting.symm.subperm.trans (List.sublist_append_right _ _).subperm
  · exact fun u hu => hwaiting.mem_iff.2 (List.mem_cons_of_mem _ hu)
  · rintro u ⟨⟩ hu
    exact absurd hu (h.unspent t (hwaiting.mem_iff.2 List.mem_cons_self))

/-- Waiting tokens are given up, or wait in another order. -/
theorem rests (h : Accounted current waiting renewing presented issued) (hwaiting : waiting'.Subperm waiting) :
    Accounted current waiting' renewing presented issued :=
  h.narrows ((List.subperm_append_left _).2 hwaiting) hwaiting.subset (fun _ => id) h.spent

theorem signsOut (h : Accounted current waiting renewing presented issued) (hwaiting : waiting'.Sublist waiting)
    (hrenewing : ∀ u, renewing' = some u → renewing = some u) : Accounted none waiting' renewing' presented issued := by
  refine h.narrows (hwaiting.trans (List.sublist_append_right _ _)).subperm hwaiting.subset hrenewing ?_
  rintro u ⟨⟩

theorem logsOut (h : Accounted (some t) waiting renewing presented issued) :
    Accounted none waiting renewing (presented ++ [t]) issued where
  nodup := (List.nodup_cons.1 h.nodup).2
  held u hu := h.held u (List.mem_cons_of_mem _ hu)
  shown := h.presents.1
  unspent := h.presents.2
  spent _ hu := by cases hu
  asked u hu := List.mem_append_left _ (h.asked u hu)

/-- The current token has been presented exactly while it is being renewed. -/
theorem mem_presented_iff (h : Accounted (some t) waiting renewing presented issued) :
    t ∈ presented ↔ renewing = some t :=
  ⟨h.spent t rfl, h.asked t⟩

end Accounted

end Account

end Genzh.Lib
