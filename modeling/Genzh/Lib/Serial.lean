/-
A call on a database that has it to itself: `serve` is what the script comes to, and what it leaves behind.

`reaches_serve` is the connection with the turns of a call: where nobody else has been granted a lock and the transaction
is not broken off, the call comes to what `serve` says, turn by turn.
-/
import Genzh.Lib.Transactions

namespace Genzh.Lib.Database

variable {S T W K Q : Type} {R : Q → Type} {E α : Type} (D : Database S T W K R E)

/-- What a script comes to in a transaction, or outside of one. -/
def serve : Script (Command.Answer R) E α → Option (Txn T W K) → S → Except E α × S
  -- what was not committed is lost
  | .done a, _, s => (.ok a, s)
  | .fail e, _, s => (.error e, s)
  | .ask .begin next, none, s => serve (next ()) (some ⟨D.now s, [], []⟩) s
  | .ask .commit next, some t, s => serve (next ()) none (D.apply t.writes s)
  | .ask (.stmt q) next, none, s =>
    match D.exec q (D.now s) s with
    | .ok (r, ws) => serve (next r) none (D.apply ws s)
    | .error e => (.error e, s)
  | .ask (.stmt q) next, some t, s =>
    match D.exec q t.start (D.apply t.writes s) with
    | .ok (r, ws) => serve (next r) (some ⟨t.start, t.writes ++ ws, D.locks q (D.apply t.writes s) ++ t.held⟩) s
    | .error e => (.error e, s)
  -- no script asks for these
  | .ask .begin _, some _, s | .ask .commit _, none, s => (.error D.broken, s)

/-- A script that begins a transaction only outside of one, and commits only in one. -/
def Bracketed : Script (Command.Answer R) E α → Bool → Prop
  | .done _, _ | .fail _, _ => True
  | .ask .begin next, inside => inside = false ∧ Bracketed (next ()) true
  | .ask .commit next, inside => inside = true ∧ Bracketed (next ()) false
  | .ask (.stmt _) next, inside => ∀ r, Bracketed (next r) inside

variable {D} {t : Txn T W K} {s : S} {q : Q} {next : R q → Script (Command.Answer R) E α} {r : R q} {ws : List W} {e : E}

theorem serve_begin (next : Unit → Script (Command.Answer R) E α) :
    D.serve (.ask .begin next) none s = D.serve (next ()) (some ⟨D.now s, [], []⟩) s := by
  rw [serve]

theorem serve_stmt (h : D.exec q t.start (D.apply t.writes s) = .ok (r, ws)) :
    D.serve (.ask (.stmt q) next) (some t) s =
      D.serve (next r) (some ⟨t.start, t.writes ++ ws, D.locks q (D.apply t.writes s) ++ t.held⟩) s := by
  rw [serve, h]

/-- A statement that only reads, before anything is written. -/
theorem serve_read {start : T} {held : List (Lock K)} (h : D.exec q start s = .ok (r, [])) :
    D.serve (.ask (.stmt q) next) (some ⟨start, [], held⟩) s = D.serve (next r) (some ⟨start, [], D.locks q s ++ held⟩) s :=
  serve_stmt h

theorem serve_refused (h : D.exec q t.start (D.apply t.writes s) = .error e) :
    D.serve (.ask (.stmt q) next) (some t) s = (.error e, s) := by
  rw [serve, h]

/-! ## Turn by turn -/

section Turns

variable {I : Type}

/-- The script that is left when a call has ended. -/
def ended : Except E α → Script (Command.Answer R) E α
  | .ok a => .done a
  | .error e => .fail e

/-- Nobody else holds a lock, and the transaction is not broken off. -/
structure ToItself (i : I) (σ : Served S K I) : Prop where
  alone : ∀ h ∈ σ.grants.list, h.1 = i
  unbroken : σ.doomed i = false

variable {i : I} {σ : Served S K I}

theorem ToItself.allow (h : ToItself i σ) (ns : List (Lock K)) : σ.grants.Allow i ns :=
  fun g hg hne => absurd (h.alone g hg) hne

theorem ToItself.take (h : ToItself i σ) (ns : List (Lock K)) : ToItself i { σ with grants := σ.grants.take i ns } := by
  refine ⟨fun g hg => ?_, h.unbroken⟩
  rcases List.mem_append.1 hg with hg | hg
  · obtain ⟨n, -, rfl⟩ := List.mem_map.1 hg
    rfl
  · exact h.alone g hg

variable [DecidableEq I]

theorem ToItself.release (h : ToItself i σ) (s : S) : ToItself i { σ with db := s, grants := σ.grants.release i } :=
  ⟨fun g hg => h.alone g (List.mem_of_mem_filter hg), h.unbroken⟩

variable [DecidableEq K]

/-- A call comes to an end, with this result and this database. -/
def EndsWith (D : Database S T W K R E) (i : I) (c : Call S T W K R E α) (σ : Served S K I) (r : Except E α × S) : Prop :=
  ∃ c' σ', System.Reaches D.advance i c σ c' σ' ∧ c'.script = ended r.1 ∧ c'.txn = none ∧ σ'.db = r.2

theorem EndsWith.head {c c₁ : Call S T W K R E α} {σ₁ : Served S K I} {r : Except E α × S}
    (hturn : D.advance i c σ = (c₁, σ₁)) (h : EndsWith D i c₁ σ₁ r) : EndsWith D i c σ r := by
  obtain ⟨c', σ', hreaches, hend⟩ := h
  exact ⟨c', σ', .head c₁ σ₁ hturn hreaches, hend⟩

/-- A call that has ended gives its transaction up. -/
theorem endsWith_ended (h : ToItself i σ) (r : Except E α) (t : Option (Txn T W K)) (log : List (Executed S T Q)) (wrote : Bool) :
    EndsWith D i ⟨ended r, t, log, wrote⟩ σ (r, σ.db) := by
  rcases t with _ | t
  · exact ⟨_, _, .refl, rfl, rfl, rfl⟩
  · refine ⟨⟨ended r, none, log, wrote⟩, { σ with grants := σ.grants.release i }, .one ?_, rfl, rfl, rfl⟩
    cases r <;> simp only [advance, ended, h.unbroken] <;> rfl

theorem reaches_serve (script : Script (Command.Answer R) E α) :
    ∀ (t : Option (Txn T W K)) (log : List (Executed S T Q)) (wrote : Bool) (σ : Served S K I),
      Bracketed script t.isSome → ToItself i σ → EndsWith D i ⟨script, t, log, wrote⟩ σ (D.serve script t σ.db) := by
  induction script with
  | done a => exact fun t log wrote σ _ h => endsWith_ended h (.ok a) t log wrote
  | fail e => exact fun t log wrote σ _ h => endsWith_ended h (.error e) t log wrote
  | ask q next ih =>
    intro t log wrote σ hb h
    rcases q with _ | _ | q
    · obtain ⟨hout, hb⟩ := hb
      rcases t with _ | t
      · exact (ih () (some ⟨D.now σ.db, [], []⟩) log wrote σ hb h).head rfl
      · cases hout
    · obtain ⟨hin, hb⟩ := hb
      rcases t with _ | t
      · cases hin
      · refine (ih () none log (wrote || !t.writes.isEmpty) _ hb (h.release (D.apply t.writes σ.db))).head ?_
        simp only [advance, h.unbroken]
        rfl
    · rcases t with _ | t
      · rcases hx : D.exec q (D.now σ.db) σ.db with e | ⟨r, ws⟩
        · have hserve : D.serve (.ask (.stmt q) next) none σ.db = (.error e, σ.db) := by rw [serve, hx]
          rw [hserve]
          refine (endsWith_ended h (.error e) none log wrote).head ?_
          simp only [advance, if_pos (h.allow _), hx]
          rfl
        · have hserve : D.serve (.ask (.stmt q) next) none σ.db = D.serve (next r) none (D.apply ws σ.db) := by rw [serve, hx]
          rw [hserve]
          refine (ih r none (⟨q, D.now σ.db, σ.db⟩ :: log) (wrote || !ws.isEmpty) { σ with db := D.apply ws σ.db } (hb r)
            ⟨h.alone, h.unbroken⟩).head ?_
          simp only [advance, if_pos (h.allow _), hx]
      · rcases hx : D.exec q t.start (D.apply t.writes σ.db) with e | ⟨r, ws⟩
        · rw [serve_refused hx]
          refine (endsWith_ended h (.error e) (some t) log wrote).head ?_
          simp only [advance, h.unbroken, if_pos (h.allow _), hx]
          rfl
        · rw [serve_stmt hx]
          refine (ih r (some ⟨t.start, t.writes ++ ws, D.locks q (D.apply t.writes σ.db) ++ t.held⟩)
            (⟨q, t.start, D.apply t.writes σ.db⟩ :: log) wrote _ (hb r) (h.take (D.locks q (D.apply t.writes σ.db)))).head ?_
          simp only [advance, h.unbroken, if_pos (h.allow _), hx]
          rfl

end Turns

end Genzh.Lib.Database
