/-
Programs over a store that can fail: a failure stops the program and keeps what was written before
it, as a service does that issues its statements one by one. `transaction` takes the writes of a
failed part back, `attempt` goes on whatever the outcome.

Two kinds of rules: `run_bind` and its kin compute a program forward, and the rules of `Frames`
say that a program leaves an observation of the store alone, part by part.
-/
import Mathlib.Tactic

namespace Genzh.Lib

/-- A program over a store `S` that fails with an `E`. -/
def Prog (S E α : Type) := S → Except E α × S

namespace Prog

variable {S E α β : Type}

/-- The outcome of a program on a store, and the store it leaves. -/
def exec (m : Prog S E α) (s : S) : Except E α × S := m s

instance : Monad (Prog S E) where
  pure a := fun s => (.ok a, s)
  bind m f := fun s =>
    match m s with
    | (.ok a, s') => f a s'
    | (.error e, s') => (.error e, s')

instance : LawfulMonad (Prog S E) := by
  refine LawfulMonad.mk' _ ?_ ?_ ?_
  · intro _ m
    funext s
    change (match m s with | (.ok a, s') => (.ok (id a), s') | (.error e, s') => (.error e, s')) = m s
    rcases m s with ⟨_ | a, s'⟩ <;> rfl
  · intros
    rfl
  · intro _ _ _ m f g
    funext s
    change (match (match m s with | (.ok a, s') => f a s' | (.error e, s') => (.error e, s')) with
        | (.ok b, s') => g b s'
        | (.error e, s') => (.error e, s')) = match m s with
        | (.ok a, s') => (f a >>= g) s'
        | (.error e, s') => (.error e, s')
    rcases m s with ⟨_ | a, s'⟩ <;> rfl

/-- Read the store. -/
def read (f : S → α) : Prog S E α := fun s => (.ok (f s), s)

/-- A read that can fail. -/
def query (f : S → Except E α) : Prog S E α := fun s => (f s, s)

/-- Write the store. -/
def modify (f : S → S) : Prog S E Unit := fun s => (.ok (), f s)

/-- `return Err(e)`. -/
def fail (e : E) : Prog S E α := fun s => (.error e, s)

/-- A computed result, as `?` passes it on. -/
def lift (r : Except E α) : Prog S E α := fun s => (r, s)

/-- Go on only if `c` holds. -/
def ensure (c : Bool) (e : E) : Prog S E Unit := if c then pure () else fail e

/-- The writes of a failed program are taken back. -/
def transaction (m : Prog S E α) : Prog S E α := fun s =>
  match m s with
  | (.ok a, s') => (.ok a, s')
  | (.error e, _) => (.error e, s)

/-- `let _ = m`: the outcome is dropped, the writes stay. -/
def attempt (m : Prog S E α) : Prog S E Unit := fun s => (.ok (), (m s).2)

/-- `.map_err(f)`. -/
def mapError {E' : Type} (f : E → E') (m : Prog S E α) : Prog S E' α := fun s =>
  match m s with
  | (.ok a, s') => (.ok a, s')
  | (.error e, s') => (.error (f e), s')

/-- `m`, and another program in its place where it failed with an error in `p`. -/
def orElse (m : Prog S E α) (p : E → Bool) (m' : Prog S E α) : Prog S E α := fun s =>
  match m s with
  | (.ok a, s') => (.ok a, s')
  | (.error e, s') => if p e then m' s' else (.error e, s')

/-- `for a in as`. -/
def forEach (as : List α) (f : α → Prog S E Unit) : Prog S E Unit :=
  match as with
  | [] => pure ()
  | a :: as => do
    f a
    forEach as f

/-! ## Forward -/

@[simp] theorem exec_pure (a : α) (s : S) : (pure a : Prog S E α).exec s = (.ok a, s) := rfl

@[simp] theorem exec_read (f : S → α) (s : S) : (read f : Prog S E α).exec s = (.ok (f s), s) := rfl

@[simp] theorem exec_query (f : S → Except E α) (s : S) : (query f).exec s = (f s, s) := rfl

@[simp] theorem exec_modify (f : S → S) (s : S) : (modify f : Prog S E Unit).exec s = (.ok (), f s) := rfl

@[simp] theorem exec_fail (e : E) (s : S) : (fail e : Prog S E α).exec s = (.error e, s) := rfl

@[simp] theorem exec_lift (r : Except E α) (s : S) : (lift r).exec s = (r, s) := rfl

theorem exec_ensure (c : Bool) (e : E) (s : S) :
    (ensure c e).exec s = (if c then .ok () else .error e, s) := by
  cases c <;> rfl

theorem exec_attempt (m : Prog S E α) (s : S) : (attempt m).exec s = (.ok (), (m.exec s).2) := rfl

theorem exec_bind (m : Prog S E α) (f : α → Prog S E β) (s : S) :
    (m >>= f).exec s = match m.exec s with
      | (.ok a, s') => (f a).exec s'
      | (.error e, s') => (.error e, s') := rfl

theorem exec_bind_ok {m : Prog S E α} {f : α → Prog S E β} {s s' : S} {a : α} (h : m.exec s = (.ok a, s')) :
    (m >>= f).exec s = (f a).exec s' := by
  rw [exec_bind, h]

theorem exec_bind_error {m : Prog S E α} {f : α → Prog S E β} {s s' : S} {e : E}
    (h : m.exec s = (.error e, s')) : (m >>= f).exec s = (.error e, s') := by
  rw [exec_bind, h]

theorem exec_transaction (m : Prog S E α) (s : S) :
    (transaction m).exec s = match m.exec s with
      | (.ok a, s') => (.ok a, s')
      | (.error e, _) => (.error e, s) := rfl

theorem exec_mapError {E' : Type} (f : E → E') (m : Prog S E α) (s : S) :
    (mapError f m).exec s = ((m.exec s).1.mapError f, (m.exec s).2) := by
  change (match m s with | (.ok a, s') => _ | (.error e, s') => _) = ((m s).1.mapError f, (m s).2)
  rcases m s with ⟨_ | a, s'⟩ <;> rfl

theorem exec_orElse (m : Prog S E α) (p : E → Bool) (m' : Prog S E α) (s : S) :
    (orElse m p m').exec s = match m.exec s with
      | (.ok a, s') => (.ok a, s')
      | (.error e, s') => if p e then m'.exec s' else (.error e, s') := rfl

/-- What a read that can fail leads to: its failure, on the store it read, or the rest on that store. -/
theorem exec_query_bind (q : S → Except E α) (f : α → Prog S E β) (s : S) :
    (query q >>= f).exec s = match q s with
      | .ok a => (f a).exec s
      | .error e => (.error e, s) := by
  rw [exec_bind, exec_query]
  cases q s <;> rfl

theorem exec_lift_bind (r : Except E α) (f : α → Prog S E β) (s : S) :
    (lift r >>= f).exec s = match r with
      | .ok a => (f a).exec s
      | .error e => (.error e, s) := by
  rw [exec_bind, exec_lift]
  cases r <;> rfl

theorem exec_ensure_bind (c : Bool) (e : E) (m : Prog S E β) (s : S) :
    (ensure c e >>= fun _ => m).exec s = if c then m.exec s else (.error e, s) := by
  rw [exec_bind, exec_ensure]
  cases c <;> rfl

@[simp] theorem exec_read_bind (q : S → α) (f : α → Prog S E β) (s : S) :
    (read q >>= f).exec s = (f (q s)).exec s := rfl

@[simp] theorem exec_modify_bind (g : S → S) (f : Unit → Prog S E β) (s : S) :
    (modify g >>= f).exec s = (f ()).exec (g s) := rfl

@[simp] theorem exec_attempt_bind (m : Prog S E α) (f : Unit → Prog S E β) (s : S) :
    (attempt m >>= f).exec s = (f ()).exec (m.exec s).2 := rfl

/-- A bind that succeeded: both parts did. -/
theorem bind_ok {m : Prog S E α} {f : α → Prog S E β} {s s'' : S} {b : β}
    (h : (m >>= f).exec s = (.ok b, s'')) :
    ∃ a s', m.exec s = (.ok a, s') ∧ (f a).exec s' = (.ok b, s'') := by
  rw [exec_bind] at h
  rcases hm : m.exec s with ⟨_ | a, s'⟩
  · rw [hm] at h
    cases h
  · rw [hm] at h
    exact ⟨a, s', rfl, h⟩

/-- The same of two outcomes in a row. -/
theorem bind_eq_ok {x : Except E α} {f : α → Except E β} {y : β} (h : x >>= f = .ok y) : ∃ v, x = .ok v ∧ f v = .ok y := by
  rcases x with e | v
  · cases h
  · exact ⟨v, rfl, h⟩

/-- Of two outcomes in a row that fail, the first one does, or the second. -/
theorem bind_eq_error {x : Except E α} {f : α → Except E β} {e : E} (h : x >>= f = .error e) :
    x = .error e ∨ ∃ v, x = .ok v ∧ f v = .error e := by
  rcases x with e | v
  · cases h
    exact .inl rfl
  · exact .inr ⟨v, rfl, h⟩

theorem ensure_ok {c : Bool} {e : E} {x : Unit} {s s' : S} (h : (ensure c e).exec s = (.ok x, s')) : c = true ∧ s' = s := by
  rw [exec_ensure] at h
  cases c <;> cases h
  exact ⟨rfl, rfl⟩

/-- A transaction that succeeded did what its statements do. -/
theorem transaction_ok {m : Prog S E α} {s s' : S} {a : α} (h : (transaction m).exec s = (.ok a, s')) :
    m.exec s = (.ok a, s') := by
  rw [exec_transaction] at h
  split at h
  · rename_i hm
    rw [hm, h]
  · cases h

/-- A transaction that failed did nothing. -/
theorem transaction_error {m : Prog S E α} {s s' : S} {e : E} (h : (transaction m).exec s = (.error e, s')) : s' = s := by
  rw [exec_transaction] at h
  split at h
  · cases h
  · cases h
    rfl

theorem transaction_ok_iff {m : Prog S E α} {s : S} :
    (∃ a s', (transaction m).exec s = (.ok a, s')) ↔ ∃ a s', m.exec s = (.ok a, s') := by
  rw [exec_transaction]
  rcases m.exec s with ⟨_ | a, s'⟩ <;> simp

/-! ## From the store before to the store after -/

/-- Whatever its outcome, the program leads from a store to one related to it. -/
def Leads (R : S → S → Prop) (m : Prog S E α) : Prop := ∀ s, R s (m.exec s).2

theorem Leads.exec {R : S → S → Prop} {m : Prog S E α} (hm : Leads R m) {s s' : S} {r : Except E α}
    (h : m.exec s = (r, s')) : R s s' := by
  have := hm s
  rwa [h] at this

section Leads

variable {R : S → S → Prop} (hrefl : ∀ s, R s s) (htrans : ∀ s s' s'', R s s' → R s' s'' → R s s'')

include htrans in
theorem Leads.bind {m : Prog S E α} {f : α → Prog S E β} (hm : Leads R m) (hf : ∀ a, Leads R (f a)) :
    Leads R (m >>= f) := by
  intro s
  have h := hm s
  rw [exec_bind]
  rcases hs : m.exec s with ⟨_ | a, s'⟩
  · rw [hs] at h
    exact h
  · rw [hs] at h
    exact htrans _ _ _ h (hf a s')

include hrefl in
theorem Leads.transaction {m : Prog S E α} (hm : Leads R m) : Leads R (Prog.transaction m) := by
  intro s
  have h := hm s
  rw [exec_transaction]
  rcases hs : m.exec s with ⟨_ | a, s'⟩
  · exact hrefl s
  · rw [hs] at h
    exact h

include hrefl htrans in
theorem Leads.forEach {as : List α} {f : α → Prog S E Unit} (hf : ∀ a ∈ as, Leads R (f a)) :
    Leads R (Prog.forEach as f) := by
  induction as with
  | nil => exact hrefl
  | cons a as ih =>
    exact Leads.bind htrans (hf a List.mem_cons_self) fun _ => ih fun b hb => hf b (List.mem_cons_of_mem _ hb)

include hrefl in
theorem Leads.ensure (c : Bool) (e : E) : Leads R (Prog.ensure c e : Prog S E Unit) := by
  intro s
  rw [exec_ensure]
  exact hrefl s

end Leads

/-! ## Frames -/

/-- The program leaves the observation `obs` of the store alone, whatever its outcome. -/
def Frames {γ : Type} (obs : S → γ) (m : Prog S E α) : Prop := Leads (fun s s' => obs s' = obs s) m

variable {γ : Type} {obs : S → γ}

theorem Frames.pure (a : α) : Frames obs (Pure.pure a : Prog S E α) := fun _ => rfl

theorem Frames.read (f : S → α) : Frames obs (Prog.read f : Prog S E α) := fun _ => rfl

theorem Frames.query (f : S → Except E α) : Frames obs (Prog.query f) := fun _ => rfl

theorem Frames.fail (e : E) : Frames obs (Prog.fail e : Prog S E α) := fun _ => rfl

theorem Frames.lift (r : Except E α) : Frames obs (Prog.lift r : Prog S E α) := fun _ => rfl

theorem Frames.ensure (c : Bool) (e : E) : Frames obs (Prog.ensure c e : Prog S E Unit) :=
  Leads.ensure (R := fun s s' => obs s' = obs s) (fun _ => rfl) c e

theorem Frames.modify {f : S → S} (h : ∀ s, obs (f s) = obs s) : Frames obs (Prog.modify f : Prog S E Unit) := h

theorem Frames.bind {m : Prog S E α} {f : α → Prog S E β} (hm : Frames obs m) (hf : ∀ a, Frames obs (f a)) :
    Frames obs (m >>= f) :=
  Leads.bind (fun _ _ _ h h' => h'.trans h) hm hf

/-- What follows a call and leaves something alone leaves it as the call did. -/
theorem Frames.after {m : Prog S E α} {f : α → Prog S E β} (hf : ∀ a, Frames obs (f a)) (s : S) :
    obs ((m >>= f).exec s).2 = obs (m.exec s).2 := by
  rw [exec_bind]
  rcases hm : m.exec s with ⟨_ | a, s'⟩
  · rfl
  · exact hf a s'

theorem Frames.transaction {m : Prog S E α} (hm : Frames obs m) : Frames obs (Prog.transaction m) :=
  Leads.transaction (R := fun s s' => obs s' = obs s) (fun _ => rfl) hm

theorem Frames.attempt {m : Prog S E α} (hm : Frames obs m) : Frames obs (Prog.attempt m : Prog S E Unit) := hm

theorem Frames.mapError {E' : Type} {f : E → E'} {m : Prog S E α} (hm : Frames obs m) :
    Frames obs (Prog.mapError f m) := by
  intro s
  rw [exec_mapError]
  exact hm s

theorem Frames.forEach {as : List α} {f : α → Prog S E Unit} (hf : ∀ a ∈ as, Frames obs (f a)) :
    Frames obs (Prog.forEach as f) :=
  Leads.forEach (R := fun s s' => obs s' = obs s) (fun _ => rfl) (fun _ _ _ h h' => h'.trans h) hf

/-! ## Invariants -/

/-- The program keeps the invariant, whatever its outcome. -/
def Keeps (I : S → Prop) (m : Prog S E α) : Prop := Leads (fun s s' => I s → I s') m

variable {I : S → Prop}

theorem Keeps.of_frames (hI : ∀ s s', obs s' = obs s → I s → I s') {m : Prog S E α} (hm : Frames obs m) : Keeps I m :=
  fun s => hI s _ (hm s)

theorem Keeps.bind {m : Prog S E α} {f : α → Prog S E β} (hm : Keeps I m) (hf : ∀ a, Keeps I (f a)) : Keeps I (m >>= f) :=
  Leads.bind (fun _ _ _ h h' hi => h' (h hi)) hm hf

/-! ## Refusals that write nothing -/

/-- A program that fails leaves the store as it found it. -/
def Clean (m : Prog S E α) : Prop := ∀ s, (m.exec s).1.isOk = false → (m.exec s).2 = s

/-- What writes nothing may come before. -/
theorem Clean.bind {m : Prog S E α} {f : α → Prog S E β} (hm : Frames id m) (hf : ∀ a, Clean (f a)) :
    Clean (m >>= f) := by
  intro s h
  have hs : (m.exec s).2 = s := hm s
  rw [exec_bind] at h ⊢
  rcases he : m.exec s with ⟨_ | a, s'⟩
  · rw [he] at hs
    exact hs
  · rw [he] at h hs
    obtain rfl : s' = s := hs
    exact hf a s' h

/-- What cannot fail may come after. -/
theorem Clean.seq {m : Prog S E α} {f : α → Prog S E β} (hm : Clean m) (hf : ∀ a s, ((f a).exec s).1.isOk = true) :
    Clean (m >>= f) := by
  intro s h
  have hs := hm s
  rw [exec_bind] at h ⊢
  rcases he : m.exec s with ⟨_ | a, s'⟩
  · rw [he] at hs
    exact hs rfl
  · rw [he] at h
    exact absurd (hf a s') (by simpa using h)

/-! ## Checks before a write

What a program leaves whose checks, one after another, come before its write `w`: what it found, where a check refuses
it, and otherwise the write of what the checks came to. -/

theorem checked_query {γ : Type} {q : S → Except E α} {f : α → Prog S E β} {check : α → Except E γ} {w : γ → S} {s : S}
    (h : ∀ a, ((f a).exec s).2 = (check a).toOption.elim s w) :
    ((query q >>= f).exec s).2 = (q s >>= check).toOption.elim s w := by
  rw [exec_query_bind]
  rcases q s with e | a
  · rfl
  · exact h a

theorem checked_lift {γ : Type} {x : Except E α} {f : α → Prog S E β} {check : α → Except E γ} {w : γ → S} {s : S}
    (h : ∀ a, ((f a).exec s).2 = (check a).toOption.elim s w) :
    ((lift x >>= f).exec s).2 = (x >>= check).toOption.elim s w := by
  rw [exec_lift_bind]
  rcases x with e | a
  · rfl
  · exact h a

end Prog

end Genzh.Lib
