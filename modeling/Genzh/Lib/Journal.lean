/-
Logs that are only ever appended to.

A log may tell what a store holds: a step is `Told` when what it does to the store is what its entries say, and the log grows
by them, or by some of them where an entry can be lost. `Told.run` is the rule for whole runs: the entries of the steps, one
after another, lead from what the first store held to what the last one holds.

A log may also be all there is of a register: `lastWrite` is the value the last write left.
-/
import Genzh.Lib.Batch

namespace Genzh.Lib

/-! ## Journals -/

/-- A store with a log, and what an entry of it says about a view of the store. -/
structure Journal (S E V : Type*) where
  log : S → List E
  replay : V → E → V
  explains : V → S → Prop

namespace Journal

variable {S E V L : Type*} (j : Journal S E V)

/-- From one store to another, what changed is what some entries say. The log grew by all of them where it is `whole`, and
by some of them, in their order, otherwise; each entry is one `by` which it may be written. -/
def Told (whole : Prop) (written : E → Prop) (s s' : S) : Prop :=
  ∃ es kept, j.log s' = j.log s ++ kept ∧ kept.Sublist es ∧ (whole → kept = es) ∧ (∀ e ∈ es, written e) ∧
    ∀ v, j.explains v s → j.explains (es.foldl j.replay v) s'

variable {j} {whole whole' : Prop} {written written' : E → Prop} {s s' s'' : S}

/-- A change that no entry speaks of, and no view sees. -/
theorem Told.unseen (hlog : j.log s' = j.log s) (h : ∀ v, j.explains v s → j.explains v s') : j.Told whole written s s' :=
  ⟨[], [], by rw [hlog, List.append_nil], .slnil, fun _ => rfl, fun _ h => (List.not_mem_nil h).elim, h⟩

theorem Told.refl (s : S) : j.Told whole written s s := .unseen rfl fun _ h => h

/-- A change that one entry tells, whether or not it is kept. -/
theorem Told.entry {e : E} (kept : Bool) (hlog : j.log s' = if kept then j.log s ++ [e] else j.log s) (hkept : whole → kept = true)
    (he : written e) (h : ∀ v, j.explains v s → j.explains (j.replay v e) s') : j.Told whole written s s' := by
  refine ⟨[e], if kept then [e] else [], ?_, ?_, ?_, ?_, h⟩
  · rw [hlog]
    cases kept <;> simp
  · cases kept <;> simp
  · intro hwhole
    rw [if_pos (hkept hwhole)]
  · intro e' he'
    rw [List.mem_singleton.1 he']
    exact he

theorem Told.trans (h : j.Told whole written s s') (h' : j.Told whole written s' s'') : j.Told whole written s s'' := by
  obtain ⟨es, kept, hlog, hsub, hwhole, hwritten, hview⟩ := h
  obtain ⟨es', kept', hlog', hsub', hwhole', hwritten', hview'⟩ := h'
  refine ⟨es ++ es', kept ++ kept', ?_, hsub.append hsub', ?_, ?_, ?_⟩
  · rw [hlog', hlog, List.append_assoc]
  · intro hw
    rw [hwhole hw, hwhole' hw]
  · intro e he
    rcases List.mem_append.1 he with he | he
    · exact hwritten e he
    · exact hwritten' e he
  · intro v hv
    rw [List.foldl_append]
    exact hview' _ (hview v hv)

theorem Told.mono (h : j.Told whole written s s') (hwhole : whole' → whole) (hwritten : ∀ e, written e → written' e) :
    j.Told whole' written' s s' := by
  obtain ⟨es, kept, hlog, hsub, hall, hby, hview⟩ := h
  exact ⟨es, kept, hlog, hsub, fun hw => hall (hwhole hw), fun e he => hwritten e (hby e he), hview⟩

/-- If every step of a run is told, so is the run: by entries that each were written at one of its steps. -/
theorem Told.run {step : S → L → S} {whole : L → Prop} {written : S → L → E → Prop} :
    ∀ {ls : List L} {s : S}, Along step (fun s l => j.Told (whole l) (written s l) s (step s l)) s ls →
      j.Told (∀ l ∈ ls, whole l) (fun e => ∃ pre l post, ls = pre ++ l :: post ∧ written (Lib.run step s pre) l e) s (Lib.run step s ls)
  | [], s, _ => .refl s
  | l :: ls, s, h => by
    have hstep : j.Told (∀ m ∈ l :: ls, whole m) (fun e => ∃ pre m post, l :: ls = pre ++ m :: post ∧ written (Lib.run step s pre) m e)
        s (step s l) :=
      h.1.mono (fun hall => hall l List.mem_cons_self) fun e he => ⟨[], l, ls, rfl, he⟩
    refine hstep.trans ((Told.run h.2).mono (fun hall m hm => hall m (List.mem_cons_of_mem l hm)) ?_)
    rintro e ⟨pre, m, post, rfl, he⟩
    exact ⟨l :: pre, m, post, rfl, he⟩

end Journal

/-! ## Registers -/

section LastWrite

variable {α β S : Type*} {w : α → Option β} {l m : List α}

/-- The value the last entry that writes leaves in the register. -/
def lastWrite (w : α → Option β) (l : List α) : Option β := (l.filterMap w).getLast?

@[simp] theorem lastWrite_nil : lastWrite w [] = none := rfl

@[simp] theorem lastWrite_append : lastWrite w (l ++ m) = (lastWrite w m).or (lastWrite w l) := by
  unfold lastWrite
  rw [List.filterMap_append, List.getLast?_append]

@[simp] theorem lastWrite_singleton (a : α) : lastWrite w [a] = w a := by
  unfold lastWrite
  rcases h : w a with _ | b <;> simp [h]

theorem lastWrite_cons (a : α) : lastWrite w (a :: l) = (lastWrite w l).or (w a) := by
  rw [← List.singleton_append, lastWrite_append, lastWrite_singleton]

theorem lastWrite_eq_none : lastWrite w l = none ↔ ∀ a ∈ l, w a = none := by
  unfold lastWrite
  rw [List.getLast?_eq_none_iff, List.filterMap_eq_nil_iff]

end LastWrite

end Genzh.Lib
