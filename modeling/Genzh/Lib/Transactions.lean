/-
Transactions on one database. A call is a script whose questions are statements; between `begin` and `commit` its
statements see what is committed and what the transaction itself has written, take their locks or wait for them, and
what they write is committed all at once. A statement outside a transaction is committed by itself. The database may
break a transaction off at any time.

`Discipline` says what the calls do for each other: what a lock keeps unchanged (`keeps`), what only ever grows
(`grows`), and which writes may be committed (`Acts`). `Safe` is the obligation of one script: each of its statements
may rely on what the locks it holds by then keep. `Sound.step` is the rule: where every call is safe, everything that
is ever committed is one of the `Acts`.
-/
import Genzh.Lib.Script
import Genzh.Lib.Locks
import Genzh.Lib.Interleaving

namespace Genzh.Lib

/-! ## Calls on a database -/

/-- What a script may ask of a database. -/
inductive Command (Q : Type) where
  | begin
  | commit
  | stmt (q : Q)
  deriving DecidableEq, Repr

/-- What it is answered. -/
@[reducible] def Command.Answer {Q : Type} (R : Q → Type) : Command Q → Type
  | begin => Unit
  | commit => Unit
  | stmt q => R q

/-- A database: its clock, its writes, and for every statement the locks it takes, and what it answers and writes in
a transaction that began at a time. -/
structure Database (S T W K : Type) {Q : Type} (R : Q → Type) (E : Type) where
  now : S → T
  write : W → S → S
  locks : Q → S → List (Lock K)
  exec : (q : Q) → T → S → Except E (R q × List W)
  /-- The error of a transaction that was broken off. -/
  broken : E

/-- An open transaction: when it began, what it has written, and the locks it holds. -/
structure Txn (T W K : Type) where
  start : T
  writes : List W
  held : List (Lock K)

/-- A statement that was executed: when its transaction began, and what it saw. -/
structure Executed (S T Q : Type) where
  stmt : Q
  start : T
  view : S

/-- How far a call has come: what is left of its script, its transaction, the statements it has executed, the last
one first, and whether it has committed a write. -/
structure Call (S T W K : Type) {Q : Type} (R : Q → Type) (E α : Type) where
  script : Script (Command.Answer R) E α
  txn : Option (Txn T W K)
  log : List (Executed S T Q)
  wrote : Bool

/-- A database that serves calls, with the locks it has granted and the calls whose transactions it breaks off. -/
structure Served (S K I : Type) where
  db : S
  grants : Grants K I
  doomed : I → Bool

/-- What happens apart from the calls. -/
inductive Outside (I A : Type) where
  | interrupt (i : I)
  | other (a : A)
  deriving DecidableEq, Repr

namespace Call

variable {S T W K Q : Type} {R : Q → Type} {E α : Type}

/-- A call that has not begun. -/
def start (script : Script (Command.Answer R) E α) : Call S T W K R E α :=
  { script := script, txn := none, log := [], wrote := false }

/-- The call has failed, and its transaction is gone. -/
def Failed (c : Call S T W K R E α) : Prop := ∃ e, c.script = .fail e

end Call

namespace Database

variable {S T W K Q : Type} {R : Q → Type} {E α : Type}

section Step

variable (D : Database S T W K R E) {I : Type} [DecidableEq K] [DecidableEq I]

/-- All the writes of a list, in order. -/
def apply (ws : List W) (s : S) : S := ws.foldl (fun s w => D.write w s) s

/-- What the statements of a call see, and when its transaction began. -/
def view (t : Option (Txn T W K)) (s : S) : S := D.apply (t.elim [] (·.writes)) s

def began (t : Option (Txn T W K)) (s : S) : T := t.elim (D.now s) (·.start)

/-- The statement a call executes in its turn, if it gets its locks. -/
def executes (i : I) (c : Call S T W K R E α) (σ : Served S K I) : Option (Executed S T Q) :=
  match c.script with
  | .ask (.stmt q) _ =>
    if (c.txn.isSome && σ.doomed i) = false ∧ σ.grants.Allow i (D.locks q (D.view c.txn σ.db)) then
      some ⟨q, D.began c.txn σ.db, D.view c.txn σ.db⟩
    else none
  | _ => none

/-- The turn of a call. -/
def advance (i : I) (c : Call S T W K R E α) (σ : Served S K I) : Call S T W K R E α × Served S K I :=
  match c.txn with
  | none =>
    match c.script with
    | .ask .begin next => ({ c with script := next (), txn := some ⟨D.now σ.db, [], []⟩ }, σ)
    | .ask (.stmt q) next =>
      -- the statement waits until it may have its locks, and gives them back as it ends
      if σ.grants.Allow i (D.locks q σ.db) then
        match D.exec q (D.now σ.db) σ.db with
        | .error e => ({ c with script := .fail e }, σ)
        | .ok (r, ws) =>
          ({ script := next r, txn := none, log := ⟨q, D.now σ.db, σ.db⟩ :: c.log, wrote := c.wrote || !ws.isEmpty },
            { σ with db := D.apply ws σ.db })
      else (c, σ)
    | _ => (c, σ)
  | some t =>
    if σ.doomed i then ({ c with script := .fail D.broken, txn := none }, { σ with grants := σ.grants.release i })
    else
      match c.script with
      | .ask (.stmt q) next =>
        let seen := D.apply t.writes σ.db
        if σ.grants.Allow i (D.locks q seen) then
          match D.exec q t.start seen with
          | .error e => ({ c with script := .fail e }, σ)
          | .ok (r, ws) =>
            ({ c with
                script := next r
                txn := some { t with writes := t.writes ++ ws, held := D.locks q seen ++ t.held }
                log := ⟨q, t.start, seen⟩ :: c.log },
              { σ with grants := σ.grants.take i (D.locks q seen) })
        else (c, σ)
      | .ask .commit next =>
        ({ c with script := next (), txn := none, wrote := c.wrote || !t.writes.isEmpty },
          { σ with db := D.apply t.writes σ.db, grants := σ.grants.release i })
      -- a script that ends without a commit drops its transaction
      | .done _ | .fail _ => ({ c with txn := none }, { σ with grants := σ.grants.release i })
      | .ask .begin _ => (c, σ)

/-- What happens to the database apart from the calls. -/
def outside {A : Type} (other : A → S → S) : Outside I A → Served S K I → Served S K I
  | .interrupt i, σ => { σ with doomed := Function.update σ.doomed i true }
  | .other a, σ => { σ with db := other a σ.db }

/-- One event of the calls on the database. -/
def step {A : Type} (other : A → S → S) :
    System (Served S K I) I (Call S T W K R E α) → Event I (Outside I A) → System (Served S K I) I (Call S T W K R E α) :=
  System.step D.advance (outside other)

/-- The calls of these scripts, none of which has begun. -/
def initial (s : S) (scripts : I → Script (Command.Answer R) E α) : System (Served S K I) I (Call S T W K R E α) :=
  { store := { db := s, grants := .none, doomed := fun _ => false }, calls := fun i => .start (scripts i) }

end Step

@[simp] theorem apply_nil (D : Database S T W K R E) (s : S) : D.apply [] s = s := rfl

@[simp] theorem apply_cons (D : Database S T W K R E) (w : W) (ws : List W) (s : S) :
    D.apply (w :: ws) s = D.apply ws (D.write w s) := rfl

theorem apply_append (D : Database S T W K R E) (ws ws' : List W) (s : S) :
    D.apply (ws ++ ws') s = D.apply ws' (D.apply ws s) := List.foldl_append

end Database

/-! ## What the calls do for each other -/

/-- What the holder of a lock may rely on, what grows whoever commits, and what may be committed. -/
structure Discipline {S T W K Q : Type} {R : Q → Type} {E : Type} (D : Database S T W K R E) where
  /-- What holds of the database between any two events. -/
  Good : S → Prop
  keeps : Lock K → S → S → Prop
  grows : S → S → Prop
  /-- May a call that has executed these statements and holds these locks commit these writes? -/
  Acts : List (Executed S T Q) → List (Lock K) → List W → S → Prop
  keeps_refl : ∀ n s, keeps n s s
  keeps_trans : ∀ n s s' s'', keeps n s s' → keeps n s' s'' → keeps n s s''
  grows_refl : ∀ s, grows s s
  grows_trans : ∀ s s' s'', grows s s' → grows s' s'' → grows s s''
  acts_keeps : ∀ log held ws s n, Good s → Acts log held ws s → (∀ m ∈ held, m.Compatible n) → keeps n s (D.apply ws s)
  acts_grows : ∀ log held ws s, Good s → Acts log held ws s → grows s (D.apply ws s)
  acts_good : ∀ log held ws s, Good s → Acts log held ws s → Good (D.apply ws s)

namespace Discipline

variable {S T W K Q : Type} {R : Q → Type} {E α : Type} {D : Database S T W K R E} (P : Discipline D)

/-- What a call with these locks may rely on between two of its turns. -/
structure Rely (held : List (Lock K)) (s s' : S) : Prop where
  good : P.Good s'
  kept : ∀ n ∈ held, P.keeps n s s'
  grown : P.grows s s'

variable {P} {held : List (Lock K)} {s s' s'' : S}

theorem Rely.refl (h : P.Good s) : P.Rely held s s :=
  ⟨h, fun n _ => P.keeps_refl n s, P.grows_refl s⟩

theorem Rely.trans (h : P.Rely held s s') (h' : P.Rely held s' s'') : P.Rely held s s'' :=
  ⟨h'.good, fun n hn => P.keeps_trans n s s' s'' (h.kept n hn) (h'.kept n hn), P.grows_trans s s' s'' h.grown h'.grown⟩

/-- With fewer locks there is less to rely on. -/
theorem Rely.mono {held' : List (Lock K)} (h : P.Rely held s s') (hsub : ∀ n ∈ held', n ∈ held) : P.Rely held' s s' :=
  ⟨h.good, fun n hn => h.kept n (hsub n hn), h.grown⟩

/-- What others commit, the holder of a compatible lock may rely on. -/
theorem rely_of_acts {log : List (Executed S T Q)} {theirs : List (Lock K)} {ws : List W} (hgood : P.Good s)
    (h : P.Acts log theirs ws s) (hcomp : ∀ n ∈ held, ∀ m ∈ theirs, m.Compatible n) : P.Rely held s (D.apply ws s) :=
  ⟨P.acts_good log theirs ws s hgood h, fun n hn => P.acts_keeps log theirs ws s n hgood h (hcomp n hn),
    P.acts_grows log theirs ws s hgood h⟩

variable (P)

/-- The obligation of a script that has come to a point: from there on it commits what may be committed, and once it
has committed it does not fail. -/
def Safe : Script (Command.Answer R) E α → Option (Txn T W K) → List (Executed S T Q) → Bool → S → Prop
  | .done _, _, _, _, _ => True
  | .fail _, _, _, wrote, _ => wrote = false
  | .ask .begin next, none, log, wrote, s =>
    ∀ s', P.Rely [] s s' → wrote = false ∧ Safe (next ()) (some ⟨D.now s', [], []⟩) log wrote s'
  | .ask (.stmt q) next, none, log, wrote, s => ∀ s', P.Rely [] s s' →
    (∀ e, D.exec q (D.now s') s' = .error e → wrote = false) ∧
    ∀ r ws, D.exec q (D.now s') s' = .ok (r, ws) →
      (ws = [] ∨ P.Acts (⟨q, D.now s', s'⟩ :: log) (D.locks q s') ws s') ∧
      Safe (next r) none (⟨q, D.now s', s'⟩ :: log) (wrote || !ws.isEmpty) (D.apply ws s')
  | .ask (.stmt q) next, some t, log, wrote, s => ∀ s', P.Rely t.held s s' →
    ∀ r ws, D.exec q t.start (D.apply t.writes s') = .ok (r, ws) →
      Safe (next r) (some ⟨t.start, t.writes ++ ws, D.locks q (D.apply t.writes s') ++ t.held⟩)
        (⟨q, t.start, D.apply t.writes s'⟩ :: log) wrote s'
  | .ask .commit next, some t, log, wrote, s => ∀ s', P.Rely t.held s s' →
    (t.writes = [] ∨ P.Acts log t.held t.writes s') ∧
    Safe (next ()) none log (wrote || !t.writes.isEmpty) (D.apply t.writes s')
  | .ask .begin _, some _, _, _, _ => False
  | .ask .commit _, none, _, _, _ => False

variable {P}

/-- A script stays safe as long as the others keep to what it relies on. -/
theorem Safe.rely {script : Script (Command.Answer R) E α} {t : Option (Txn T W K)} {log : List (Executed S T Q)} {wrote : Bool}
    (h : P.Safe script t log wrote s) (hrely : P.Rely (t.elim [] (·.held)) s s') : P.Safe script t log wrote s' := by
  match script, t with
  | .done _, _ => trivial
  | .fail _, _ => exact h
  | .ask .begin _, none => exact fun s'' h' => h s'' (hrely.trans h')
  | .ask (.stmt _) _, none => exact fun s'' h' => h s'' (hrely.trans h')
  | .ask (.stmt _) _, some _ => exact fun s'' h' => h s'' (hrely.trans h')
  | .ask .commit _, some _ => exact fun s'' h' => h s'' (hrely.trans h')
  | .ask .begin _, some _ => exact h
  | .ask .commit _, none => exact h

theorem Safe.map {β : Type} {f : α → β} {script : Script (Command.Answer R) E α} {t : Option (Txn T W K)}
    {log : List (Executed S T Q)} {wrote : Bool} (h : P.Safe script t log wrote s) : P.Safe (f <$> script) t log wrote s := by
  induction script generalizing t log wrote s with
  | done a => trivial
  | fail e => exact h
  | ask q next ih =>
    match q, t with
    | .begin, none => exact fun s' h' => ⟨(h s' h').1, ih _ (h s' h').2⟩
    | .stmt _, none =>
      exact fun s' h' => ⟨(h s' h').1, fun r ws hx => ⟨((h s' h').2 r ws hx).1, ih _ ((h s' h').2 r ws hx).2⟩⟩
    | .stmt _, some _ => exact fun s' h' r ws hx => ih _ (h s' h' r ws hx)
    | .commit, some _ => exact fun s' h' => ⟨(h s' h').1, ih _ (h s' h').2⟩
    | .begin, some _ => exact h
    | .commit, none => exact h

section Rules

variable {β : Type} {t : Option (Txn T W K)} {log : List (Executed S T Q)} {wrote : Bool}

/-- A script that goes on only if `c` holds. -/
theorem Safe.ensure {c : Bool} {e : E} {k : Unit → Script (Command.Answer R) E β} (hfail : wrote = false)
    (h : c = true → P.Safe (k ()) t log wrote s) : P.Safe (Script.ensure c e >>= k) t log wrote s := by
  cases c with
  | false => exact hfail
  | true => exact h rfl

theorem Safe.found {o : Option α} {e : E} {k : α → Script (Command.Answer R) E β} (hfail : wrote = false)
    (h : ∀ a, o = some a → P.Safe (k a) t log wrote s) : P.Safe (Script.found e o >>= k) t log wrote s := by
  cases o with
  | none => exact hfail
  | some a => exact h a rfl

theorem Safe.lift {x : Except E α} {k : α → Script (Command.Answer R) E β} (hfail : wrote = false)
    (h : ∀ a, x = .ok a → P.Safe (k a) t log wrote s) : P.Safe (Script.lift x >>= k) t log wrote s := by
  cases x with
  | error e => exact hfail
  | ok a => exact h a rfl

/-- A statement outside a transaction that writes nothing. -/
theorem Safe.read {q : Q} {k : R q → Script (Command.Answer R) E β} {f : S → R q} (hx : ∀ s, D.exec q (D.now s) s = .ok (f s, []))
    (h : ∀ s' r, P.Rely [] s s' → r = f s' → P.Safe (k r) none (⟨q, D.now s', s'⟩ :: log) wrote s') :
    P.Safe (Script.query (Command.stmt q) >>= k) none log wrote s := by
  intro s' hrely
  refine ⟨fun e he => ?_, fun r ws hok => ?_⟩
  · rw [hx] at he
    cases he
  · rw [hx] at hok
    cases hok
    rw [List.isEmpty_nil, Bool.not_true, Bool.or_false]
    exact ⟨.inl rfl, h s' _ hrely rfl⟩

theorem Safe.begin {k : Unit → Script (Command.Answer R) E β}
    (h : ∀ s', P.Rely [] s s' → P.Safe (k ()) (some ⟨D.now s', [], []⟩) log false s') :
    P.Safe (Script.query Command.begin >>= k) none log false s :=
  fun s' hrely => ⟨rfl, h s' hrely⟩

/-- A statement of a transaction that writes nothing and takes no locks. -/
theorem Safe.readIn {t : Txn T W K} {q : Q} {k : R q → Script (Command.Answer R) E β} {f : S → R q}
    (hx : ∀ s, D.exec q t.start s = .ok (f s, [])) (hlocks : ∀ s, D.locks q s = [])
    (h : ∀ s' r, P.Rely t.held s s' → r = f (D.apply t.writes s') →
      P.Safe (k r) (some t) (⟨q, t.start, D.apply t.writes s'⟩ :: log) wrote s') :
    P.Safe (Script.query (Command.stmt q) >>= k) (some t) log wrote s := by
  intro s' hrely r ws hok
  rw [hx] at hok
  cases hok
  rw [hlocks, List.append_nil, List.nil_append]
  exact h s' _ hrely rfl

/-- A statement of a transaction. -/
theorem Safe.stmtIn {t : Txn T W K} {q : Q} {k : R q → Script (Command.Answer R) E β}
    (h : ∀ s' r ws, P.Rely t.held s s' → D.exec q t.start (D.apply t.writes s') = .ok (r, ws) →
      P.Safe (k r) (some ⟨t.start, t.writes ++ ws, D.locks q (D.apply t.writes s') ++ t.held⟩)
        (⟨q, t.start, D.apply t.writes s'⟩ :: log) wrote s') :
    P.Safe (Script.query (Command.stmt q) >>= k) (some t) log wrote s :=
  fun s' hrely r ws hok => h s' r ws hrely hok

end Rules

end Discipline

/-! ## What a turn does -/

namespace Database

variable {S T W K Q : Type} {R : Q → Type} {E α : Type} (D : Database S T W K R E) {I : Type} [DecidableEq K] [DecidableEq I]

/-- What the turn of a call comes to. -/
inductive Turn (i : I) (c : Call S T W K R E α) (σ : Served S K I) : Call S T W K R E α → Served S K I → Prop
  | stays : Turn i c σ c σ
  | begins (next) (hs : c.script = .ask .begin next) (ht : c.txn = none) :
    Turn i c σ { c with script := next (), txn := some ⟨D.now σ.db, [], []⟩ } σ
  | refused (q next e) (hs : c.script = .ask (.stmt q) next) (ht : c.txn = none) (hx : D.exec q (D.now σ.db) σ.db = .error e) :
    Turn i c σ { c with script := .fail e } σ
  | executes (q next r ws) (hs : c.script = .ask (.stmt q) next) (ht : c.txn = none) (hallow : σ.grants.Allow i (D.locks q σ.db))
    (hx : D.exec q (D.now σ.db) σ.db = .ok (r, ws)) (hlogged : D.executes i c σ = some ⟨q, D.now σ.db, σ.db⟩) :
    Turn i c σ
      { script := next r, txn := none, log := ⟨q, D.now σ.db, σ.db⟩ :: c.log, wrote := c.wrote || !ws.isEmpty }
      { σ with db := D.apply ws σ.db }
  | breaks (t) (ht : c.txn = some t) :
    Turn i c σ { c with script := .fail D.broken, txn := none } { σ with grants := σ.grants.release i }
  | refusedIn (q next t e) (hs : c.script = .ask (.stmt q) next) (ht : c.txn = some t) : Turn i c σ { c with script := .fail e } σ
  | writes (q next t r ws) (hs : c.script = .ask (.stmt q) next) (ht : c.txn = some t)
    (hallow : σ.grants.Allow i (D.locks q (D.apply t.writes σ.db))) (hx : D.exec q t.start (D.apply t.writes σ.db) = .ok (r, ws))
    (hlogged : D.executes i c σ = some ⟨q, t.start, D.apply t.writes σ.db⟩) :
    Turn i c σ
      { c with
        script := next r
        txn := some ⟨t.start, t.writes ++ ws, D.locks q (D.apply t.writes σ.db) ++ t.held⟩
        log := ⟨q, t.start, D.apply t.writes σ.db⟩ :: c.log }
      { σ with grants := σ.grants.take i (D.locks q (D.apply t.writes σ.db)) }
  | commits (next t) (hs : c.script = .ask .commit next) (ht : c.txn = some t) :
    Turn i c σ { c with script := next (), txn := none, wrote := c.wrote || !t.writes.isEmpty }
      { σ with db := D.apply t.writes σ.db, grants := σ.grants.release i }
  | drops (t) (hs : (∃ a, c.script = .done a) ∨ ∃ e, c.script = .fail e) (ht : c.txn = some t) :
    Turn i c σ { c with txn := none } { σ with grants := σ.grants.release i }

theorem turn_advance (i : I) (c : Call S T W K R E α) (σ : Served S K I) :
    D.Turn i c σ (D.advance i c σ).1 (D.advance i c σ).2 := by
  obtain ⟨script, txn, log, wrote⟩ := c
  rcases txn with _ | t
  · rcases script with a | e | ⟨_ | _ | q, next⟩
    · exact .stays
    · exact .stays
    · exact .begins next rfl rfl
    · exact .stays
    · by_cases hallow : σ.grants.Allow i (D.locks q σ.db)
      · have hlogged : D.executes i ⟨.ask (.stmt q) next, none, log, wrote⟩ σ = some ⟨q, D.now σ.db, σ.db⟩ :=
          if_pos ⟨rfl, hallow⟩
        simp only [advance, if_pos hallow]
        rcases hx : D.exec q (D.now σ.db) σ.db with e | ⟨r, ws⟩
        · exact .refused q next e rfl rfl hx
        · exact .executes q next r ws rfl rfl hallow hx hlogged
      · simp only [advance, if_neg hallow]
        exact .stays
  · by_cases hdoomed : σ.doomed i = true
    · simp only [advance, if_pos hdoomed]
      exact .breaks t rfl
    · simp only [advance, if_neg hdoomed]
      rcases script with a | e | ⟨_ | _ | q, next⟩
      · exact .drops t (.inl ⟨a, rfl⟩) rfl
      · exact .drops t (.inr ⟨e, rfl⟩) rfl
      · exact .stays
      · exact .commits next t rfl rfl
      · by_cases hallow : σ.grants.Allow i (D.locks q (D.apply t.writes σ.db))
        · have hlogged : D.executes i ⟨.ask (.stmt q) next, some t, log, wrote⟩ σ = some ⟨q, t.start, D.apply t.writes σ.db⟩ :=
            if_pos ⟨by simp [hdoomed], hallow⟩
          simp only [if_pos hallow]
          rcases hx : D.exec q t.start (D.apply t.writes σ.db) with e | ⟨r, ws⟩
          · exact .refusedIn q next t e rfl rfl
          · exact .writes q next t r ws rfl rfl hallow hx hlogged
        · simp only [if_neg hallow]
          exact .stays

/-- A turn that changes the database executes a statement by itself, or commits a transaction. -/
theorem Turn.changes {D : Database S T W K R E} {i : I} {c c' : Call S T W K R E α} {σ σ' : Served S K I} (h : D.Turn i c σ c' σ')
    (hdb : σ'.db ≠ σ.db) :
    (∃ x next, c.script = .ask (.stmt x.stmt) next ∧ c.txn = none ∧ D.executes i c σ = some x ∧ c'.log = x :: c.log) ∨
      ∃ next t, c.script = .ask .commit next ∧ c.txn = some t ∧ c'.log = c.log ∧ σ'.db = D.apply t.writes σ.db := by
  cases h with
  | executes q next r ws hs ht hallow hx hlogged => exact .inl ⟨_, next, hs, ht, hlogged, rfl⟩
  | commits next t hs ht => exact .inr ⟨next, t, hs, ht, rfl, rfl⟩
  | _ => exact absurd rfl hdb

/-- The turn of a statement by itself. -/
theorem Turn.single {D : Database S T W K R E} {i : I} {c c' : Call S T W K R E α} {σ σ' : Served S K I} (h : D.Turn i c σ c' σ')
    {q next} (hs : c.script = .ask (.stmt q) next) (ht : c.txn = none) :
    (c' = c ∧ σ' = σ) ∨ (∃ e, D.exec q (D.now σ.db) σ.db = .error e ∧ c' = { c with script := .fail e } ∧ σ' = σ) ∨
      ∃ r ws, D.exec q (D.now σ.db) σ.db = .ok (r, ws) ∧ σ' = { σ with db := D.apply ws σ.db } ∧
        c' = { script := next r, txn := none, log := ⟨q, D.now σ.db, σ.db⟩ :: c.log, wrote := c.wrote || !ws.isEmpty } := by
  cases h with
  | stays => exact .inl ⟨rfl, rfl⟩
  | begins next' hs' ht' => cases hs.symm.trans hs'
  | refused q' next' e hs' ht' hx =>
    cases hs.symm.trans hs'
    exact .inr (.inl ⟨e, hx, rfl, rfl⟩)
  | executes q' next' r ws hs' ht' hallow hx hlogged =>
    cases hs.symm.trans hs'
    exact .inr (.inr ⟨r, ws, hx, rfl, rfl⟩)
  | commits next' t hs' ht' => cases hs.symm.trans hs'
  | breaks t ht' | refusedIn q' next' t e hs' ht' | writes q' next' t r ws hs' ht' | drops t hs' ht' => cases ht.symm.trans ht'

/-- A call that has ended without a transaction does nothing. -/
theorem Turn.ended {D : Database S T W K R E} {i : I} {c c' : Call S T W K R E α} {σ σ' : Served S K I} (h : D.Turn i c σ c' σ')
    (hs : (∃ a, c.script = .done a) ∨ ∃ e, c.script = .fail e) (ht : c.txn = none) : c' = c ∧ σ' = σ := by
  have hno : ∀ q next, c.script ≠ .ask q next := by
    rintro q next hask
    rcases hs with ⟨a, hs⟩ | ⟨e, hs⟩ <;> cases hs.symm.trans hask
  cases h with
  | stays => exact ⟨rfl, rfl⟩
  | begins next' hs' ht' | refused q' next' e hs' | executes q' next' r ws hs' => exact absurd hs' (hno _ _)
  | breaks t ht' | refusedIn q' next' t e hs' ht' | writes q' next' t r ws hs' ht' | commits next' t hs' ht' | drops t hs' ht' =>
    cases ht.symm.trans ht'

/-- What every turn of a call preserves of it, the events of a run preserve. -/
theorem call_step {A : Type} {other : A → S → S} {D : Database S T W K R E} {G : Call S T W K R E α → Prop} {i : I}
    (hG : ∀ c σ c' σ', D.Turn i c σ c' σ' → G c → G c') {σ : System (Served S K I) I (Call S T W K R E α)} (h : G (σ.calls i))
    (e : Event I (Outside I A)) : G ((D.step other σ e).calls i) := by
  cases e with
  | turn j =>
    by_cases hij : i = j
    · subst hij
      rw [step, System.calls_turn_self]
      exact hG _ _ _ _ (D.turn_advance i (σ.calls i) σ.store) h
    · rw [step, System.calls_turn_of_ne _ _ _ hij]
      exact h
  | outside a => exact h

end Database

/-! ## Soundness -/

namespace Discipline

variable {S T W K Q : Type} {R : Q → Type} {E α : Type} {D : Database S T W K R E} (P : Discipline D)
  {I A : Type} [DecidableEq K] [DecidableEq I] {other : A → S → S}

/-- Every call is safe where it is, holds the locks it counts on, and has committed nothing while a transaction of its
own is open. -/
structure Sound (σ : System (Served S K I) I (Call S T W K R E α)) : Prop where
  good : P.Good σ.store.db
  safe : ∀ i, P.Safe (σ.calls i).script (σ.calls i).txn (σ.calls i).log (σ.calls i).wrote σ.store.db
  nothing : ∀ i t, (σ.calls i).txn = some t → (σ.calls i).wrote = false
  granted : ∀ i t, (σ.calls i).txn = some t → ∀ n ∈ t.held, σ.store.grants.Holds i n
  coherent : σ.store.grants.Coherent

variable {P} {σ : System (Served S K I) I (Call S T W K R E α)} {i j : I}

omit [DecidableEq K] [DecidableEq I] in
theorem Sound.initial {s : S} {scripts : I → Script (Command.Answer R) E α} (hgood : P.Good s)
    (hsafe : ∀ i, P.Safe (scripts i) none [] false s) : P.Sound (Database.initial s scripts) where
  good := hgood
  safe := hsafe
  nothing _ _ _ := rfl
  granted i t h := absurd h (by simp [Database.initial, Call.start])
  coherent := Grants.coherent_none

omit [DecidableEq K] [DecidableEq I] in
/-- What a call commits, the others may rely on. -/
theorem Sound.rely (h : P.Sound σ) {log : List (Executed S T Q)} {theirs : List (Lock K)} {ws : List W}
    (hacts : P.Acts log theirs ws σ.store.db)
    (hcomp : ∀ n, σ.store.grants.Holds j n → ∀ m ∈ theirs, m.Compatible n) :
    P.Rely ((σ.calls j).txn.elim [] (·.held)) σ.store.db (D.apply ws σ.store.db) := by
  refine rely_of_acts h.good hacts fun n hn m hm => hcomp n ?_ m hm
  rcases ht : (σ.calls j).txn with _ | t
  · rw [ht] at hn
    cases hn
  · rw [ht] at hn
    exact h.granted j t ht n hn

omit [DecidableEq K] in
/-- A turn keeps the system sound if the mover is safe after it, and the others may rely on what it did. -/
theorem Sound.moved (h : P.Sound σ) {c : Call S T W K R E α} {σ' : Served S K I} (hgood : P.Good σ'.db)
    (hsafe : P.Safe c.script c.txn c.log c.wrote σ'.db)
    (hnothing : ∀ t, c.txn = some t → c.wrote = false) (hgranted : ∀ t, c.txn = some t → ∀ n ∈ t.held, σ'.grants.Holds i n)
    (hcoherent : σ'.grants.Coherent) (hholds : ∀ j, j ≠ i → ∀ n, σ.store.grants.Holds j n → σ'.grants.Holds j n)
    (hrely : ∀ j, j ≠ i → P.Rely ((σ.calls j).txn.elim [] (·.held)) σ.store.db σ'.db) :
    P.Sound { store := σ', calls := Function.update σ.calls i c } := by
  refine ⟨hgood, fun j => ?_, fun j t ht => ?_, fun j t ht n hn => ?_, hcoherent⟩ <;> by_cases hj : j = i
  · subst hj
    simpa only [Function.update_self] using hsafe
  · simp only [Function.update_of_ne hj]
    exact (h.safe j).rely (hrely j hj)
  · subst hj
    simp only [Function.update_self] at ht ⊢
    exact hnothing t ht
  · simp only [Function.update_of_ne hj] at ht ⊢
    exact h.nothing j t ht
  · subst hj
    simp only [Function.update_self] at ht
    exact hgranted t ht n hn
  · simp only [Function.update_of_ne hj] at ht
    exact hholds j hj n (h.granted j t ht n hn)

/-- What a turn commits: nothing, or writes that may be committed. -/
theorem Sound.committed (h : P.Sound σ) {c : Call S T W K R E α} {σ' : Served S K I}
    (hturn : D.Turn i (σ.calls i) σ.store c σ') :
    σ'.db = σ.store.db ∨ ∃ held ws, P.Acts c.log held ws σ.store.db ∧ σ'.db = D.apply ws σ.store.db ∧ c.wrote = true ∧
      ∀ j, j ≠ i → ∀ n, σ.store.grants.Holds j n → ∀ m ∈ held, m.Compatible n := by
  have hsafe := h.safe i
  generalize hci : σ.calls i = ci at hturn hsafe
  cases hturn with
  | executes q next r ws hs ht hallow hx hlogged =>
    rw [hs, ht] at hsafe
    rcases hws : ws with _ | ⟨w, ws'⟩
    · exact .inl rfl
    · rw [← hws]
      rcases ((hsafe _ (.refl h.good)).2 r ws hx).1 with hnil | hacts
      · exact .inl (by simp [hnil])
      · exact .inr ⟨_, ws, hacts, rfl, by simp [hws], fun j hj n hn m hm => hallow.compatible hn hj m hm⟩
  | commits next t hs ht =>
    rw [hs, ht] at hsafe
    rcases hws : t.writes with _ | ⟨w, ws'⟩
    · exact .inl rfl
    · rw [← hws]
      rcases (hsafe _ (.refl h.good)).1 with hnil | hacts
      · exact .inl (by simp [hnil])
      · refine .inr ⟨t.held, t.writes, hacts, rfl, by simp [hws], fun j hj n hn m hm => ?_⟩
        exact h.coherent i j m n (Ne.symm hj) (h.granted i t (hci ▸ ht) m hm) hn
  | _ => exact .inl rfl

/-- The rule: a turn of a safe call keeps the system sound. -/
theorem Sound.turn (h : P.Sound σ) {c : Call S T W K R E α} {σ' : Served S K I}
    (hturn : D.Turn i (σ.calls i) σ.store c σ') : P.Sound { store := σ', calls := Function.update σ.calls i c } := by
  have hrely : P.Good σ'.db ∧ ∀ j, j ≠ i → P.Rely ((σ.calls j).txn.elim [] (·.held)) σ.store.db σ'.db := by
    rcases h.committed hturn with hsame | ⟨held, ws, hacts, hdb, -, hcomp⟩
    · rw [hsame]
      exact ⟨h.good, fun j _ => .refl h.good⟩
    · rw [hdb]
      exact ⟨P.acts_good _ _ _ _ h.good hacts, fun j hj => h.rely hacts (hcomp j hj)⟩
  obtain ⟨hgood, hrely⟩ := hrely
  have hsafe := h.safe i
  have hnothing := h.nothing i
  have hgranted := h.granted i
  generalize σ.calls i = ci at hturn hsafe hnothing hgranted
  have hsame : ∀ j, j ≠ i → ∀ n, σ.store.grants.Holds j n → σ.store.grants.Holds j n := fun _ _ _ hn => hn
  have hkept : ∀ j, j ≠ i → ∀ n, σ.store.grants.Holds j n → (σ.store.grants.release i).Holds j n := fun j hj n hn => hn.release hj
  cases hturn with
  | stays => exact h.moved hgood hsafe hnothing hgranted h.coherent hsame hrely
  | begins next hs ht =>
    rw [hs, ht] at hsafe
    obtain ⟨hwrote, hnext⟩ := hsafe _ (.refl h.good)
    exact h.moved hgood hnext (fun _ _ => hwrote) (fun t ht n hn => by cases ht; cases hn) h.coherent hsame hrely
  | refused q next e hs ht hx =>
    rw [hs, ht] at hsafe
    exact h.moved hgood ((hsafe _ (.refl h.good)).1 e hx) hnothing hgranted h.coherent hsame hrely
  | executes q next r ws hs ht hallow hx hlogged =>
    rw [hs, ht] at hsafe
    exact h.moved hgood ((hsafe _ (.refl h.good)).2 r ws hx).2 (fun t ht => by cases ht) (fun t ht => by cases ht) h.coherent
      hsame hrely
  | breaks t ht =>
    exact h.moved hgood (hnothing t ht) (fun t ht => by cases ht) (fun t ht => by cases ht) h.coherent.release hkept hrely
  | refusedIn q next t e hs ht =>
    exact h.moved hgood (hnothing t ht) hnothing hgranted h.coherent hsame hrely
  | writes q next t r ws hs ht hallow hx hlogged =>
    rw [hs, ht] at hsafe
    refine h.moved hgood (hsafe _ (.refl h.good) r ws hx) (fun _ _ => hnothing t ht) (fun t' ht' n hn => ?_) (h.coherent.take hallow)
      (fun _ _ _ hn => hn.take) hrely
    cases ht'
    rcases List.mem_append.1 hn with hn | hn
    · exact Grants.holds_take_self hn
    · exact (hgranted t ht n hn).take
  | commits next t hs ht =>
    rw [hs, ht] at hsafe
    exact h.moved hgood (hsafe _ (.refl h.good)).2 (fun t ht => by cases ht) (fun t ht => by cases ht) h.coherent.release hkept hrely
  | drops t hs ht =>
    refine h.moved hgood ?_ (fun t ht => by cases ht) (fun t ht => by cases ht) h.coherent.release hkept hrely
    rcases hs with ⟨a, hs⟩ | ⟨e, hs⟩
    · rw [hs]
      trivial
    · rw [hs]
      exact hnothing t ht

/-- What else happens is nothing the calls do not put up with. -/
def Tolerates (P : Discipline D) (other : A → S → S) : Prop := ∀ a s held, P.Good s → P.Rely held s (other a s)

theorem Sound.step (h : P.Sound σ) (hother : P.Tolerates other) (e : Event I (Outside I A)) : P.Sound (D.step other σ e) := by
  cases e with
  | turn i => exact h.turn (D.turn_advance i (σ.calls i) σ.store)
  | outside a =>
    cases a with
    | interrupt i => exact ⟨h.good, h.safe, h.nothing, h.granted, h.coherent⟩
    | other a =>
      exact ⟨(hother a σ.store.db [] h.good).good, fun i => (h.safe i).rely (hother a _ _ h.good), h.nothing, h.granted, h.coherent⟩

theorem Sound.after (h : P.Sound σ) (hother : P.Tolerates other) (es : List (Event I (Outside I A))) :
    P.Sound (run (D.step other) σ es) :=
  run_of_step (I := P.Sound) (fun _ e h => Sound.step h hother e) h

/-! ## What has been executed -/

/-- Every statement of the log met `C` when it was executed after those before it. -/
def Clean (C : List (Executed S T Q) → Executed S T Q → Prop) : List (Executed S T Q) → Prop
  | [] => True
  | x :: log => C log x ∧ Clean C log

/-- The statement of this turn meets `C`. -/
def Heeds (D : Database S T W K R E) (C : List (Executed S T Q) → Executed S T Q → Prop)
    (σ : System (Served S K I) I (Call S T W K R E α)) : Event I (Outside I A) → Prop
  | .turn i => ∀ x, D.executes i (σ.calls i) σ.store = some x → C (σ.calls i).log x
  | .outside _ => True

variable {C : List (Executed S T Q) → Executed S T Q → Prop}

instance [∀ log x, Decidable (C log x)] (σ : System (Served S K I) I (Call S T W K R E α)) (e : Event I (Outside I A)) :
    Decidable (Heeds D C σ e) :=
  match e with
  | .turn i =>
    match h : D.executes i (σ.calls i) σ.store with
    | none => .isTrue fun x hx => by rw [h] at hx; cases hx
    | some x => decidable_of_iff (C (σ.calls i).log x) ⟨fun hc y hy => by rw [h] at hy; cases hy; exact hc, fun hc => hc x h⟩
  | .outside _ => .isTrue trivial

/-- Every statement of a clean log met `C` when it was executed. -/
theorem Clean.mem : ∀ {log : List (Executed S T Q)}, Clean C log → ∀ x ∈ log, ∃ before, (x :: before) <:+ log ∧ C before x
  | y :: log, h, x, hx => by
    rcases List.mem_cons.1 hx with rfl | hx
    · exact ⟨log, List.suffix_refl _, h.1⟩
    · obtain ⟨before, hsuffix, hC⟩ := Clean.mem h.2 x hx
      exact ⟨before, hsuffix.trans (List.suffix_cons y log), hC⟩

theorem Clean.suffix {log log' : List (Executed S T Q)} (h : Clean C log) (hsuffix : log' <:+ log) : Clean C log' := by
  obtain ⟨pre, rfl⟩ := hsuffix
  induction pre with
  | nil => exact h
  | cons x pre ih => exact ih h.2

/-- A turn adds to a log no more than the statement it executes. -/
theorem log_turn {c c' : Call S T W K R E α} {σ σ' : Served S K I} (hturn : D.Turn i c σ c' σ') :
    c'.log = c.log ∨ ∃ x, D.executes i c σ = some x ∧ c'.log = x :: c.log := by
  cases hturn with
  | executes q next r ws hs ht hallow hx hlogged => exact .inr ⟨_, hlogged, rfl⟩
  | writes q next t r ws hs ht hallow hx hlogged => exact .inr ⟨_, hlogged, rfl⟩
  | _ => exact .inl rfl

theorem clean_step (h : ∀ i, Clean C (σ.calls i).log) {e : Event I (Outside I A)} (he : Heeds D C σ e) (i : I) :
    Clean C ((D.step other σ e).calls i).log := by
  cases e with
  | turn j =>
    by_cases hij : i = j
    · subst hij
      rw [Database.step, System.calls_turn_self]
      rcases log_turn (D.turn_advance i (σ.calls i) σ.store) with hlog | ⟨x, hx, hlog⟩
      · rw [hlog]
        exact h i
      · rw [hlog]
        exact ⟨he x hx, h i⟩
    · rw [Database.step, System.calls_turn_of_ne _ _ _ hij]
      exact h i
  | outside a => exact h i

/-! ## What is committed -/

/-- Whatever is committed, is what a call that has executed such statements may commit. -/
theorem Sound.db_step (other : A → S → S) (h : P.Sound σ) (hclean : ∀ i, Clean C (σ.calls i).log) {e : Event I (Outside I A)}
    (he : Heeds D C σ e) :
    (D.step other σ e).store.db = σ.store.db ∨
    (∃ log held ws, Clean C log ∧ P.Acts log held ws σ.store.db ∧ (D.step other σ e).store.db = D.apply ws σ.store.db) ∨
    ∃ a, (D.step other σ e).store.db = other a σ.store.db := by
  cases e with
  | turn i =>
    rcases h.committed (D.turn_advance i (σ.calls i) σ.store) with hsame | ⟨held, ws, hacts, hdb, -, -⟩
    · exact .inl hsame
    · have hlog : Clean C ((D.step other σ (.turn i)).calls i).log := clean_step hclean he i
      rw [Database.step, System.calls_turn_self] at hlog
      exact .inr (.inl ⟨_, held, ws, hlog, hacts, hdb⟩)
  | outside a =>
    cases a with
    | interrupt i => exact .inl rfl
    | other a => exact .inr (.inr ⟨a, rfl⟩)

/-- What everything that may be committed preserves, holds all along a run whose statements meet `C`; and what it makes
of the database, every step makes of it. -/
theorem Sound.always_along {J : S → Prop} (Step : S → S → Prop) (hother : P.Tolerates other)
    (hacts : ∀ log held ws s, P.Good s → Clean C log → P.Acts log held ws s → J s → J (D.apply ws s) ∧ Step s (D.apply ws s))
    (hout : ∀ a s, P.Good s → J s → J (other a s) ∧ Step s (other a s)) (hrefl : ∀ s, Step s s) (h : P.Sound σ)
    (hclean : ∀ i, Clean C (σ.calls i).log) (hinv : J σ.store.db) {es : List (Event I (Outside I A))}
    (hes : Along (D.step other) (Heeds D C) σ es) :
    Always (D.step other) (fun σ => J σ.store.db) σ es ∧
      Along (D.step other) (fun σ e => Step σ.store.db (D.step other σ e).store.db) σ es := by
  have hstep : ∀ (σ : System (Served S K I) I (Call S T W K R E α)) (e : Event I (Outside I A)),
      (P.Sound σ ∧ (∀ i, Clean C (σ.calls i).log) ∧ J σ.store.db) → Heeds D C σ e →
      (P.Sound (D.step other σ e) ∧ (∀ i, Clean C ((D.step other σ e).calls i).log) ∧ J (D.step other σ e).store.db) ∧
        Step σ.store.db (D.step other σ e).store.db := by
    rintro σ e ⟨hsound, hclean, hinv⟩ he
    have hdb : J (D.step other σ e).store.db ∧ Step σ.store.db (D.step other σ e).store.db := by
      rcases hsound.db_step other hclean he with hsame | ⟨log, held, ws, hlog, hact, hdb⟩ | ⟨a, hdb⟩
      · rw [hsame]
        exact ⟨hinv, hrefl _⟩
      · rw [hdb]
        exact hacts log held ws _ hsound.good hlog hact hinv
      · rw [hdb]
        exact hout a _ hsound.good hinv
    exact ⟨⟨hsound.step hother e, clean_step hclean he, hdb.1⟩, hdb.2⟩
  exact ⟨(always_of_along (fun σ e hσ he => (hstep σ e hσ he).1) ⟨h, hclean, hinv⟩ hes).mono fun σ hσ => hσ.2.2,
    along_of_along hstep ⟨h, hclean, hinv⟩ hes⟩

theorem Sound.always {J : S → Prop} (hother : P.Tolerates other)
    (hacts : ∀ log held ws s, P.Good s → Clean C log → P.Acts log held ws s → J s → J (D.apply ws s))
    (hout : ∀ a s, P.Good s → J s → J (other a s)) (h : P.Sound σ) (hclean : ∀ i, Clean C (σ.calls i).log)
    (hinv : J σ.store.db) {es : List (Event I (Outside I A))} (hes : Along (D.step other) (Heeds D C) σ es) :
    Always (D.step other) (fun σ => J σ.store.db) σ es :=
  (h.always_along (fun _ _ => True) hother (fun log held ws s hg hc ha hi => ⟨hacts log held ws s hg hc ha hi, trivial⟩)
    (fun a s hg hi => ⟨hout a s hg hi, trivial⟩) (fun _ => trivial) hclean hinv hes).1

/-- No condition is met by every run. -/
theorem along_heeds (σ : System (Served S K I) I (Call S T W K R E α)) (es : List (Event I (Outside I A))) :
    Along (D.step other) (Heeds D fun _ _ => True) σ es := by
  induction es generalizing σ with
  | nil => trivial
  | cons e es ih => exact ⟨by cases e <;> simp [Heeds], ih _⟩

theorem clean_true : ∀ log : List (Executed S T Q), Clean (fun _ _ => True) log
  | [] => trivial
  | _ :: log => ⟨trivial, clean_true log⟩

/-! ## Calls that fail -/

theorem wrote_turn {c c' : Call S T W K R E α} {σ σ' : Served S K I} (hturn : D.Turn i c σ c' σ') (h : c.wrote = true) :
    c'.wrote = true := by
  cases hturn with
  | executes => simp [h]
  | commits => simp [h]
  | _ => exact h

theorem wrote_step (h : (σ.calls i).wrote = true) (e : Event I (Outside I A)) : ((D.step other σ e).calls i).wrote = true :=
  Database.call_step (G := fun c => c.wrote = true) (fun _ _ _ _ => wrote_turn) h e

/-- A call that fails in the end has changed nothing in any of its turns. -/
theorem Sound.failed (h : P.Sound σ) (hother : P.Tolerates other) {es : List (Event I (Outside I A))}
    (hfail : ((run (D.step other) σ (.turn i :: es)).calls i).Failed) : (D.step other σ (.turn i)).store.db = σ.store.db := by
  rcases h.committed (D.turn_advance i (σ.calls i) σ.store) with hsame | ⟨held, ws, -, -, hwrote, -⟩
  · exact hsame
  · have hwrote' : ((run (D.step other) σ (.turn i :: es)).calls i).wrote = true := by
      rw [run_cons]
      refine run_of_step (I := fun σ : System (Served S K I) I (Call S T W K R E α) => (σ.calls i).wrote = true)
        (fun _ e hσ => wrote_step hσ e) ?_
      rw [Database.step, System.calls_turn_self]
      exact hwrote
    obtain ⟨e, he⟩ := hfail
    have hsafe := (h.after hother (.turn i :: es)).safe i
    rw [he] at hsafe
    rw [show _ = false from hsafe] at hwrote'
    cases hwrote'

/-- Each turn of a run's call that has failed by the end has changed nothing. -/
theorem Sound.unchanged (h : P.Sound σ) (hother : P.Tolerates other) {es before after : List (Event I (Outside I A))}
    (hes : es = before ++ .turn i :: after) (hfail : ((run (D.step other) σ es).calls i).Failed) :
    (run (D.step other) σ (before ++ [.turn i])).store.db = (run (D.step other) σ before).store.db := by
  subst hes
  rw [run_append] at hfail ⊢
  exact (h.after hother before).failed hother hfail

end Discipline

end Genzh.Lib
