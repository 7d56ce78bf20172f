/-
Stores that keep an entry for each key they have been asked about, and drop the ones that have gone stale: now
and then, and before a visit where there are many. A stale entry is worth as much as none, so what is answered
about a key follows from the visits to that key alone.
-/
import Genzh.Lib.Map
import Genzh.Lib.Run

namespace Genzh.Lib

/-- How a store answers a visit to a key from the key's entry, and when an entry is stale. -/
structure Keeper (ρ κ A D : Type) where
  visit : Nat → κ → A → Option ρ → D × ρ
  stale : Nat → ρ → Bool
  /-- How many entries there may be before a visit drops the stale ones. -/
  threshold : Nat

/-- A visit, or a sweep. -/
inductive Visit (κ A : Type) where
  | check (k : κ) (a : A) (now : Nat)
  | sweep (now : Nat)
  deriving DecidableEq, Repr

namespace Visit

variable {κ A : Type}

def now : Visit κ A → Nat
  | check _ _ now => now
  | sweep now => now

/-- Is it a visit to `k`? -/
def isTo [DecidableEq κ] (k : κ) : Visit κ A → Bool
  | check k' _ _ => k' = k
  | sweep _ => false

/-- Is it a visit to some key? -/
def isCheck : Visit κ A → Bool
  | check _ _ _ => true
  | sweep _ => false

/-- When `k` is visited, and with what. -/
def paidTo [DecidableEq κ] (k : κ) : Visit κ A → Option (Nat × A)
  | check k' a now => if k' = k then some (now, a) else none
  | sweep _ => none

end Visit

namespace Keeper

variable {ρ κ A D : Type} [DecidableEq κ] (K : Keeper ρ κ A D)

/-- Drop the stale entries. -/
def sweep (now : Nat) (t : Map κ ρ) : Map κ ρ := t.retain fun _ r => !K.stale now r

/-- The entries a visit finds. -/
def found (now : Nat) (t : Map κ ρ) : Map κ ρ := if K.threshold < t.size then K.sweep now t else t

/-- Visit a key. -/
def check (now : Nat) (k : κ) (a : A) (t : Map κ ρ) : D × Map κ ρ :=
  ((K.visit now k a ((K.found now t).get k)).1, (K.found now t).set k (K.visit now k a ((K.found now t).get k)).2)

def step (t : Map κ ρ) : Visit κ A → Map κ ρ
  | .check k a now => (K.check now k a t).2
  | .sweep now => K.sweep now t

/-- The visits to a key and their answers, in a run. -/
def history (k : κ) : Map κ ρ → List (Visit κ A) → List (Nat × A × D)
  | _, [] => []
  | t, .check k' a now :: vs =>
    if k' = k then (now, a, (K.check now k' a t).1) :: history k (K.check now k' a t).2 vs
    else history k (K.check now k' a t).2 vs
  | t, .sweep now :: vs => history k (K.sweep now t) vs

/-- The answers to all visits, in a run. -/
def answers : Map κ ρ → List (Visit κ A) → List D
  | _, [] => []
  | t, .check k a now :: vs => (K.check now k a t).1 :: answers (K.check now k a t).2 vs
  | t, .sweep now :: vs => answers (K.sweep now t) vs

omit [DecidableEq κ] in
/-- The same store, but for its never dropping an entry. -/
def unswept : Keeper ρ κ A D := { K with stale := fun _ _ => false }

/-- The answers about a key from its entry alone. -/
def alone (k : κ) : Option ρ → List (Nat × A) → List (Nat × A × D)
  | _, [] => []
  | o, (now, a) :: vs => (now, a, (K.visit now k a o).1) :: alone k (some (K.visit now k a o).2) vs

/-- The laws of a keeper: entries only get staler, and a stale entry is worth as much as none. `valid now` is what an
entry that was visited before `now` is like. -/
structure Lawful (valid : Nat → ρ → Prop) : Prop where
  keeps_valid : ∀ now k a o, (∀ r, o = some r → valid now r) → valid now (K.visit now k a o).2
  valid_later : ∀ now now' r, now ≤ now' → valid now r → valid now' r
  stale_later : ∀ now now' r, now ≤ now' → K.stale now r = true → K.stale now' r = true
  stale : ∀ now k a r, valid now r → K.stale now r = true → K.visit now k a (some r) = K.visit now k a none

variable {K} {valid : Nat → ρ → Prop}

/-- What the store has about a key is what the visits to it have left, or nothing if that is stale. -/
def Keeps (K : Keeper ρ κ A D) (now : Nat) (k : κ) (t : Map κ ρ) (o : Option ρ) : Prop :=
  t.get k = o ∨ t.get k = none ∧ ∃ r, o = some r ∧ K.stale now r = true

theorem Keeps.sweep {now : Nat} {k : κ} {t : Map κ ρ} {o : Option ρ} (h : Keeps K now k t o) : Keeps K now k (K.sweep now t) o := by
  unfold Keeps Keeper.sweep
  rw [Map.get_retain]
  rcases h with h | ⟨h, hstale⟩
  · rw [h]
    cases o with
    | none => exact .inl rfl
    | some r =>
      rcases hr : K.stale now r
      · exact .inl (Option.filter_some_pos (by simp [hr]))
      · exact .inr ⟨Option.filter_some_neg (by simp [hr]), r, rfl, hr⟩
  · rw [h]
    exact .inr ⟨rfl, hstale⟩

theorem Keeps.found {now : Nat} {k : κ} {t : Map κ ρ} {o : Option ρ} (h : Keeps K now k t o) : Keeps K now k (K.found now t) o := by
  unfold Keeper.found
  by_cases hmany : K.threshold < t.size
  · rw [if_pos hmany]
    exact h.sweep
  · rw [if_neg hmany]
    exact h

theorem Keeps.later (hlaw : K.Lawful valid) {now now' : Nat} {k : κ} {t : Map κ ρ} {o : Option ρ} (hle : now ≤ now')
    (h : Keeps K now k t o) : Keeps K now' k t o := by
  rcases h with h | ⟨h, r, ho, hstale⟩
  · exact .inl h
  · exact .inr ⟨h, r, ho, hlaw.stale_later now now' r hle hstale⟩

/-- A visit goes by what the visits to its key have left. -/
theorem Keeps.visit (hlaw : K.Lawful valid) {now : Nat} {k : κ} {a : A} {t : Map κ ρ} {o : Option ρ} (h : Keeps K now k t o)
    (hvalid : ∀ r, o = some r → valid now r) : K.visit now k a ((K.found now t).get k) = K.visit now k a o := by
  rcases h.found with hf | ⟨hf, r, rfl, hstale⟩
  · rw [hf]
  · rw [hf, hlaw.stale now k a r (hvalid r rfl) hstale]

theorem Keeps.check (hlaw : K.Lawful valid) {now : Nat} {k k' : κ} {a : A} {t : Map κ ρ} {o : Option ρ} (h : Keeps K now k t o)
    (hvalid : ∀ r, o = some r → valid now r) :
    Keeps K now k (K.check now k' a t).2 (if k' = k then some (K.visit now k' a o).2 else o) := by
  unfold Keeper.check Keeps
  rw [Map.get_set]
  by_cases hk : k' = k
  · subst hk
    rw [if_pos rfl, if_pos rfl, h.visit hlaw hvalid]
    exact .inl rfl
  · rw [if_neg hk, if_neg hk]
    exact h.found

omit [DecidableEq κ] in
/-- A clock that does not go back is not before a visit once that has been paid. -/
theorem sorted_cons {v : Visit κ A} {vs : List (Visit κ A)} (h : ((v :: vs).map Visit.now).Pairwise (· ≤ ·)) :
    (∀ v' ∈ vs, v.now ≤ v'.now) ∧ (vs.map Visit.now).Pairwise (· ≤ ·) := by
  rw [List.map_cons, List.pairwise_cons] at h
  exact ⟨fun v' hv' => h.1 _ (List.mem_map_of_mem hv'), h.2⟩

/-- In a run whose clock does not go back, the answers about a key follow from the visits to it. -/
theorem history_eq (hlaw : K.Lawful valid) {now : Nat} {k : κ} {t : Map κ ρ} {o : Option ρ} {vs : List (Visit κ A)}
    (h : Keeps K now k t o) (hvalid : ∀ r, o = some r → valid now r) (hnow : ∀ v ∈ vs, now ≤ v.now)
    (hsorted : (vs.map Visit.now).Pairwise (· ≤ ·)) : K.history k t vs = K.alone k o (vs.filterMap (Visit.paidTo k)) := by
  induction vs generalizing now t o with
  | nil => rfl
  | cons v vs ih =>
    obtain ⟨hlater, hclock⟩ := sorted_cons hsorted
    have hle := hnow v List.mem_cons_self
    have hvalid' : ∀ r, o = some r → valid v.now r := fun r hr => hlaw.valid_later now v.now r hle (hvalid r hr)
    have h' := h.later hlaw hle
    cases v with
    | sweep now' => exact ih h'.sweep hvalid' hlater hclock
    | check k' a now' =>
      have hnext : Keeps K now' k (K.check now' k' a t).2 _ := h'.check hlaw hvalid'
      by_cases hk : k' = k
      · subst hk
        rw [if_pos rfl] at hnext
        have hans : (K.check now' k' a t).1 = (K.visit now' k' a o).1 :=
          congrArg Prod.fst (h'.visit hlaw (a := a) hvalid')
        have hrest := ih hnext (fun r hr => by cases hr; exact hlaw.keeps_valid now' k' a o hvalid') hlater hclock
        simp only [Visit.now] at hrest
        simp only [history, Visit.paidTo, List.filterMap_cons, if_true, alone, hrest]
        rw [hans]
      · rw [if_neg hk] at hnext
        have hrest := ih hnext hvalid' hlater hclock
        simp only [history, Visit.paidTo, List.filterMap_cons, hk, if_false]
        exact hrest

/-- The same from an empty store. -/
theorem history_empty (hlaw : K.Lawful valid) {k : κ} {vs : List (Visit κ A)} (hsorted : (vs.map Visit.now).Pairwise (· ≤ ·)) :
    K.history k .empty vs = K.alone k none (vs.filterMap (Visit.paidTo k)) :=
  history_eq hlaw (.inl rfl) (fun r hr => by cases hr) (fun _ _ => Nat.zero_le _) hsorted

/-- What is answered about a key does not depend on the visits to others, nor on the sweeps. -/
theorem history_filter (hlaw : K.Lawful valid) {k : κ} {vs : List (Visit κ A)} (hsorted : (vs.map Visit.now).Pairwise (· ≤ ·)) :
    K.history k .empty vs = K.history k .empty (vs.filter (Visit.isTo k)) := by
  have hfilter : ((vs.filter (Visit.isTo k)).map Visit.now).Pairwise (· ≤ ·) :=
    hsorted.sublist (List.filter_sublist.map _)
  rw [history_empty hlaw hsorted, history_empty hlaw hfilter, List.filterMap_filter]
  congr 2
  funext v
  cases v with
  | sweep now => rfl
  | check k' a now =>
    by_cases hk : k' = k <;> simp [Visit.isTo, Visit.paidTo, hk]

/-! ## Sweeps do not show -/

/-- A store that never drops an entry has what the visits to each key have left. -/
def Follows (K : Keeper ρ κ A D) (valid : Nat → ρ → Prop) (now : Nat) (t t' : Map κ ρ) : Prop :=
  ∀ k, Keeps K now k t (t'.get k) ∧ ∀ r, t'.get k = some r → valid now r

theorem sweep_unswept (now : Nat) (t : Map κ ρ) (k : κ) : (K.unswept.sweep now t).get k = t.get k := by
  unfold Keeper.sweep
  rw [Map.get_retain]
  cases t.get k <;> rfl

theorem found_unswept (now : Nat) (t : Map κ ρ) (k : κ) : (K.unswept.found now t).get k = t.get k := by
  unfold Keeper.found
  split
  · exact sweep_unswept now t k
  · rfl

/-- After a visit to a key that both stores answer alike, one follows the other. -/
theorem Follows.check (hlaw : K.Lawful valid) {now : Nat} {k : κ} {a : A} {t t' : Map κ ρ} (h : Follows K valid now t t') :
    (K.check now k a t).1 = (K.unswept.check now k a t').1 ∧
      Follows K valid now (K.check now k a t).2 (K.unswept.check now k a t').2 := by
  have hfound := found_unswept (K := K) now t' k
  have hvisit : K.visit now k a ((K.found now t).get k) = K.visit now k a (t'.get k) :=
    (h k).1.visit hlaw (h k).2
  refine ⟨?_, fun k' => ?_⟩
  · show (K.visit now k a ((K.found now t).get k)).1 = (K.visit now k a ((K.unswept.found now t').get k)).1
    rw [hfound, hvisit]
  · have hget : (K.unswept.check now k a t').2.get k' = if k = k' then some (K.visit now k a (t'.get k)).2 else t'.get k' := by
      show ((K.unswept.found now t').set k (K.visit now k a ((K.unswept.found now t').get k)).2).get k' = _
      rw [Map.get_set, hfound, found_unswept]
    have hkeeps : Keeps K now k' (K.check now k a t).2 _ := (h k').1.check hlaw (h k').2
    rw [hget]
    by_cases hk : k = k'
    · subst hk
      rw [if_pos rfl] at hkeeps ⊢
      refine ⟨hkeeps, ?_⟩
      rintro r ⟨⟩
      exact hlaw.keeps_valid now k a (t'.get k) (h k).2
    · rw [if_neg hk] at hkeeps ⊢
      exact ⟨hkeeps, (h k').2⟩

/-- In a run whose clock does not go back, a store answers every visit as one that never drops an entry, whatever sweeps
come in between. -/
theorem answers_eq (hlaw : K.Lawful valid) {now : Nat} {t t' : Map κ ρ} {vs : List (Visit κ A)} (h : Follows K valid now t t')
    (hnow : ∀ v ∈ vs, now ≤ v.now) (hsorted : (vs.map Visit.now).Pairwise (· ≤ ·)) :
    K.answers t vs = K.unswept.answers t' (vs.filter Visit.isCheck) := by
  induction vs generalizing now t t' with
  | nil => rfl
  | cons v vs ih =>
    obtain ⟨hlater, hclock⟩ := sorted_cons hsorted
    have hle := hnow v List.mem_cons_self
    have h' : Follows K valid v.now t t' := fun k =>
      ⟨(h k).1.later hlaw hle, fun r hr => hlaw.valid_later now v.now r hle ((h k).2 r hr)⟩
    cases v with
    | sweep now' =>
      -- only one of the two stores drops what is stale
      have hswept : Follows K valid now' (K.sweep now' t) t' := fun k => ⟨(h' k).1.sweep, (h' k).2⟩
      exact ih hswept hlater hclock
    | check k a now' =>
      obtain ⟨hanswer, hnext⟩ := h'.check hlaw (k := k) (a := a)
      have hrest := ih hnext hlater hclock
      simp only [Visit.now] at hanswer hrest
      simp only [answers, List.filter_cons, Visit.isCheck, if_true, hanswer, hrest]

/-- The same from empty stores. -/
theorem answers_unswept (hlaw : K.Lawful valid) {vs : List (Visit κ A)} (hsorted : (vs.map Visit.now).Pairwise (· ≤ ·)) :
    K.answers .empty vs = K.unswept.answers .empty (vs.filter Visit.isCheck) := by
  have hfollows : Follows K valid 0 .empty .empty := by
    refine fun k => ⟨.inl rfl, ?_⟩
    rintro r ⟨⟩
  exact answers_eq hlaw hfollows (fun _ _ => Nat.zero_le _) hsorted

/-- What a store has about a key stays with it while other keys are visited. -/
theorem Keeps.run (hlaw : K.Lawful valid) {now later : Nat} {k : κ} {t : Map κ ρ} {o : Option ρ} {vs : List (Visit κ A)}
    (h : Keeps K now k t o) (hvalid : ∀ r, o = some r → valid now r) (hother : ∀ v ∈ vs, v.isTo k = false)
    (hnow : ∀ v ∈ vs, now ≤ v.now) (hlater : ∀ v ∈ vs, v.now ≤ later) (hle : now ≤ later)
    (hsorted : (vs.map Visit.now).Pairwise (· ≤ ·)) : Keeps K later k (run K.step t vs) o := by
  induction vs generalizing now t with
  | nil => exact h.later hlaw hle
  | cons v vs ih =>
    obtain ⟨hnext, hclock⟩ := sorted_cons hsorted
    have hv := hnow v List.mem_cons_self
    have hvalid' : ∀ r, o = some r → valid v.now r := fun r hr => hlaw.valid_later now v.now r hv (hvalid r hr)
    have h' := h.later hlaw hv
    have hkeeps : Keeps K v.now k (K.step t v) o := by
      cases v with
      | sweep now' => exact h'.sweep
      | check k' a now' =>
        have hk : k' ≠ k := by simpa [Visit.isTo] using hother _ List.mem_cons_self
        have hkept : Keeps K now' k (K.check now' k' a t).2 _ := h'.check hlaw hvalid'
        rwa [if_neg hk] at hkept
    exact ih hkeeps hvalid' (fun v' hv' => hother v' (List.mem_cons_of_mem _ hv')) hnext
      (fun v' hv' => hlater v' (List.mem_cons_of_mem _ hv')) (hlater v List.mem_cons_self) hclock

/-! ## Visit by visit -/

/-- The entry some visits leave. -/
def entryFrom (K : Keeper ρ κ A D) (k : κ) (o : Option ρ) (vs : List (Nat × A)) : Option ρ :=
  vs.foldl (fun o v => some (K.visit v.1 k v.2 o).2) o

/-- The entry the first visits to a key leave. -/
def entryAfter (K : Keeper ρ κ A D) (k : κ) (vs : List (Nat × A)) : Option ρ := K.entryFrom k none vs

omit [DecidableEq κ] in
@[simp] theorem entryAfter_snoc {k : κ} {vs : List (Nat × A)} {v : Nat × A} :
    K.entryAfter k (vs ++ [v]) = some (K.visit v.1 k v.2 (K.entryAfter k vs)).2 := by
  simp [entryAfter, entryFrom]

omit [DecidableEq κ] in
theorem alone_append {k : κ} {o : Option ρ} {vs ws : List (Nat × A)} :
    K.alone k o (vs ++ ws) = K.alone k o vs ++ K.alone k (K.entryFrom k o vs) ws := by
  unfold entryFrom
  induction vs generalizing o with
  | nil => rfl
  | cons v vs ih => simp only [List.cons_append, alone, List.foldl_cons, ih]

omit [DecidableEq κ] in
/-- Each answer follows from the entry the visits before it leave. -/
theorem alone_snoc {k : κ} {vs : List (Nat × A)} {v : Nat × A} :
    K.alone k none (vs ++ [v]) = K.alone k none vs ++ [(v.1, v.2, (K.visit v.1 k v.2 (K.entryAfter k vs)).1)] := by
  rw [alone_append]
  rfl

omit [DecidableEq κ] in
/-- The first of the answers are those to the first of the visits. -/
theorem alone_eq_append {k : κ} {o : Option ρ} {vs : List (Nat × A)} {h₁ h₂ : List (Nat × A × D)} (h : K.alone k o vs = h₁ ++ h₂) :
    ∃ vs₁ vs₂, vs = vs₁ ++ vs₂ ∧ h₁ = K.alone k o vs₁ ∧ h₂ = K.alone k (K.entryFrom k o vs₁) vs₂ := by
  induction h₁ generalizing o vs with
  | nil => exact ⟨[], vs, rfl, rfl, h.symm⟩
  | cons x h₁ ih =>
    cases vs with
    | nil => cases h
    | cons v vs =>
      obtain ⟨rfl, hrest⟩ := List.cons.inj h
      obtain ⟨vs₁, vs₂, rfl, hone, htwo⟩ := ih hrest
      exact ⟨v :: vs₁, vs₂, rfl, congrArg _ hone, htwo⟩

omit [DecidableEq κ] in
/-- An answer follows from the visits before it. -/
theorem alone_split {k : κ} {vs : List (Nat × A)} {pre post : List (Nat × A × D)} {x : Nat × A × D}
    (h : K.alone k none vs = pre ++ x :: post) :
    ∃ before after, vs = before ++ (x.1, x.2.1) :: after ∧ pre = K.alone k none before ∧
      x.2.2 = (K.visit x.1 k x.2.1 (K.entryAfter k before)).1 := by
  obtain ⟨before, rest, rfl, hpre, hrest⟩ := alone_eq_append h
  cases rest with
  | nil => cases hrest
  | cons v after =>
    obtain ⟨rfl, -⟩ := List.cons.inj hrest
    exact ⟨before, after, rfl, hpre, rfl⟩

omit [DecidableEq κ] in
/-- A history is of the visits paid. -/
theorem map_visit_alone {k : κ} {o : Option ρ} {vs : List (Nat × A)} : (K.alone k o vs).map (fun x => (x.1, x.2.1)) = vs := by
  induction vs generalizing o with
  | nil => rfl
  | cons v vs ih => simp only [alone, List.map_cons, ih]

omit [DecidableEq κ] in
theorem map_time_alone {k : κ} {o : Option ρ} {vs : List (Nat × A)} : (K.alone k o vs).map Prod.fst = vs.map Prod.fst := by
  conv_rhs => rw [← @map_visit_alone _ _ _ _ K k o vs, List.map_map]
  rfl

/-- The clock of the visits to one key does not go back either. -/
theorem sorted_visits {k : κ} {vs : List (Visit κ A)} (hsorted : (vs.map Visit.now).Pairwise (· ≤ ·)) :
    ((vs.filterMap (Visit.paidTo k)).map Prod.fst).Pairwise (· ≤ ·) := by
  rw [List.pairwise_map] at hsorted ⊢
  rw [List.pairwise_filterMap]
  refine hsorted.imp fun {v v'} hle x hx x' hx' => ?_
  have htime : ∀ (v : Visit κ A) x, Visit.paidTo k v = some x → x.1 = v.now := by
    intro v x hx
    cases v with
    | sweep now => cases hx
    | check k' a now =>
      simp only [Visit.paidTo] at hx
      split at hx
      · cases hx
        rfl
      · cases hx
  rw [htime v x hx, htime v' x' hx']
  exact hle

/-! ## What entries are like -/

theorem valid_found {now : Nat} {t : Map κ ρ} (h : ∀ k r, t.get k = some r → valid now r) (k : κ) (r : ρ)
    (hr : (K.found now t).get k = some r) : valid now r := by
  unfold Keeper.found Keeper.sweep at hr
  split at hr
  · rw [Map.get_retain, Option.filter_eq_some_iff] at hr
    exact h k r hr.1
  · exact h k r hr

/-- In a run whose clock does not go back, every entry was visited before. -/
theorem valid_run (hlaw : K.Lawful valid) {now later : Nat} {t : Map κ ρ} {vs : List (Visit κ A)}
    (h : ∀ k r, t.get k = some r → valid now r) (hnow : ∀ v ∈ vs, now ≤ v.now) (hlater : ∀ v ∈ vs, v.now ≤ later) (hle : now ≤ later)
    (hsorted : (vs.map Visit.now).Pairwise (· ≤ ·)) (k : κ) (r : ρ) (hr : (run K.step t vs).get k = some r) : valid later r := by
  induction vs generalizing now t with
  | nil => exact hlaw.valid_later now later r hle (h k r hr)
  | cons v vs ih =>
    obtain ⟨hnext, hclock⟩ := sorted_cons hsorted
    have hv := hnow v List.mem_cons_self
    have h' : ∀ k r, t.get k = some r → valid v.now r := fun k r hr => hlaw.valid_later now v.now r hv (h k r hr)
    refine ih ?_ hnext (fun v' hv' => hlater v' (List.mem_cons_of_mem _ hv')) (hlater v List.mem_cons_self) hclock hr
    intro k' r' hr'
    cases v with
    | sweep now' =>
      change (K.sweep now' t).get k' = some r' at hr'
      unfold Keeper.sweep at hr'
      rw [Map.get_retain, Option.filter_eq_some_iff] at hr'
      exact h' k' r' hr'.1
    | check k'' a now' =>
      change ((K.found now' t).set k'' (K.visit now' k'' a ((K.found now' t).get k'')).2).get k' = some r' at hr'
      rw [Map.get_set] at hr'
      split at hr'
      · cases hr'
        exact hlaw.keeps_valid now' k'' a _ fun r hr => valid_found h' k'' r hr
      · exact valid_found h' k' r' hr'

/-! ## Conditions on the visits -/

/-- `P` holds of every visit to the key and the entry it finds. -/
def Throughout (K : Keeper ρ κ A D) (P : Nat → A → Option ρ → Prop) (k : κ) : Option ρ → List (Nat × A) → Prop
  | _, [] => True
  | o, (now, a) :: vs => P now a o ∧ Throughout K P k (some (K.visit now k a o).2) vs

omit [DecidableEq κ] in
theorem throughout_append {P : Nat → A → Option ρ → Prop} {k : κ} {o : Option ρ} {vs ws : List (Nat × A)} :
    Throughout K P k o (vs ++ ws) ↔ Throughout K P k o vs ∧ Throughout K P k (K.entryFrom k o vs) ws := by
  unfold entryFrom
  induction vs generalizing o with
  | nil => simp [Throughout]
  | cons v vs ih => simp only [List.cons_append, Throughout, List.foldl_cons, ih, and_assoc]

omit [DecidableEq κ] in
theorem throughout_snoc {P : Nat → A → Option ρ → Prop} {k : κ} {vs : List (Nat × A)} {v : Nat × A} :
    Throughout K P k none (vs ++ [v]) ↔ Throughout K P k none vs ∧ P v.1 v.2 (K.entryAfter k vs) := by
  rw [throughout_append]
  exact and_congr_right fun _ => and_iff_left trivial

/-- A condition on every visit of a run is one on the visits to a key, if it asks no more of a stale entry than of none. -/
theorem throughout_of_along {P : Nat → A → Option ρ → Prop} (hlaw : K.Lawful valid)
    (hP : ∀ now a r, valid now r → K.stale now r = true → P now a none → P now a (some r)) {now : Nat} {k : κ} {t : Map κ ρ} {o : Option ρ}
    {vs : List (Visit κ A)} (h : Keeps K now k t o) (hvalid : ∀ r, o = some r → valid now r) (hnow : ∀ v ∈ vs, now ≤ v.now)
    (hsorted : (vs.map Visit.now).Pairwise (· ≤ ·))
    (halong : Along K.step (fun t v => ∀ a now, v = .check k a now → P now a (t.get k)) t vs) :
    Throughout K P k o (vs.filterMap (Visit.paidTo k)) := by
  induction vs generalizing now t o with
  | nil => trivial
  | cons v vs ih =>
    obtain ⟨hlater, hclock⟩ := sorted_cons hsorted
    obtain ⟨hstep, hrest⟩ := halong
    have hle := hnow v List.mem_cons_self
    have hvalid' : ∀ r, o = some r → valid v.now r := fun r hr => hlaw.valid_later now v.now r hle (hvalid r hr)
    have h' := h.later hlaw hle
    cases v with
    | sweep now' => exact ih h'.sweep hvalid' hlater hclock hrest
    | check k' a now' =>
      have hnext : Keeps K now' k (K.check now' k' a t).2 _ := h'.check hlaw hvalid'
      by_cases hk : k' = k
      · subst hk
        rw [if_pos rfl] at hnext
        -- what was dropped as stale is a condition about no entry
        have hfind : P now' a o := by
          have hp := hstep a now' rfl
          rcases h' with hf | ⟨hf, r, rfl, hstale⟩
          · rwa [hf] at hp
          · rw [hf] at hp
            exact hP now' a r (hvalid' r rfl) hstale hp
        simp only [Visit.paidTo, List.filterMap_cons, if_true]
        exact ⟨hfind, ih hnext (fun r hr => by cases hr; exact hlaw.keeps_valid now' k' a o hvalid') hlater hclock hrest⟩
      · rw [if_neg hk] at hnext
        simp only [Visit.paidTo, List.filterMap_cons, hk, if_false]
        exact ih hnext hvalid' hlater hclock hrest

end Keeper

end Genzh.Lib
