/-
Recordings that run at the same time, one statement of one of them after the other, while the recipients read what
they have. A recording is an insert and, where a row stands in its way, a fold into the row that is open. What the
two statements do not see is the recipient who reads between them: the row in the way is closed, and the message is
counted nowhere.
-/
import Genzh.Notification.Repository
import Genzh.Lib.Interleaving

namespace Genzh.Notification

open Genzh.Lib Genzh.Domain Genzh.Infrastructure

/-- How far a recording has come. -/
inductive Recording where
  /-- The row is inserted next. -/
  | inserting (id : NotificationId) (new : NewNotification)
  /-- A row was in the way; the open one is updated next. -/
  | folding (new : NewNotification)
  | finished (outcome : Except RepositoryError Recorded)
  deriving DecidableEq

/-- What else happens to the table. -/
inductive Elsewhere where
  | read (userId : UserId) (id : NotificationId)
  | readAll (userId : UserId)
  | wait (elapsed : Nat)
  deriving DecidableEq, Repr

namespace Recording

/-- The next statement of a recording. -/
def advance : Recording → NotificationDb → Recording × NotificationDb
  | inserting id new, db =>
    match (insertNotification id new).exec db with
    | (.error e, db') => (finished (.error e), db')
    | (.ok (some n), db') => (finished (.ok (.created n)), db')
    | (.ok none, db') => if new.standsAlone then (finished (.ok .known), db') else (folding new, db')
  | folding new, db =>
    match (foldNotification new).exec db with
    | (.error e, db') => (finished (.error e), db')
    | (.ok (some n), db') => (finished (.ok (.folded n)), db')
    | (.ok none, db') => (finished (.ok .known), db')
  | finished outcome, db => (finished outcome, db)

/-- The row a recording is counted in. -/
def countedIn : Recording → Option NotificationId
  | finished (.ok r) => r.notification.map (·.id)
  | _ => none

end Recording

/-- A statement of somebody else. -/
def elsewhere : Elsewhere → NotificationDb → NotificationDb
  | .read u id, db => ((markRead u id).exec db).2
  | .readAll u, db => ((markAllRead u).exec db).2
  | .wait elapsed, db => { db with now := db.now + elapsed }

abbrev Recordings (I : Type) := System NotificationDb I Recording

/-- One event of the recordings on the table. -/
def step {I : Type} [DecidableEq I] : Recordings I → Event I Elsewhere → Recordings I :=
  System.step (fun _ => Recording.advance) elsewhere

/-- The recordings of these events under these identifiers, none of which has begun. -/
def begin {I : Type} (db : NotificationDb) (ids : I → NotificationId) (new : I → NewNotification) : Recordings I :=
  { store := db, calls := fun i => .inserting (ids i) (new i) }

/-! ## A recording by itself -/

/-- By itself, a recording is the call of the repository. -/
theorem reaches_record {I : Type} {i : I} (id : NotificationId) (new : NewNotification) (db : NotificationDb) :
    System.Reaches (fun _ : I => Recording.advance) i (.inserting id new) db (.finished ((record id new).exec db).1)
      ((record id new).exec db).2 := by
  unfold record
  rw [Prog.exec_bind]
  rcases hi : (insertNotification id new).exec db with ⟨e | _ | n, db'⟩
  · exact .one (by simp only [Recording.advance, hi])
  · rcases hs : new.standsAlone
    · refine .head (.folding new) db' (by simp [Recording.advance, hi, hs]) (.one ?_)
      simp only [Bool.false_eq_true, if_false, Recording.advance, Prog.exec_bind]
      rcases (foldNotification new).exec db' with ⟨e | _ | n, db''⟩ <;> rfl
    · exact .one (by simp [Recording.advance, hi, hs])
  · exact .one (by simp only [Recording.advance, hi]; rfl)

/-! ## What is counted -/

section Counting

variable {I : Type}

/-- What recordings of distinct messages are given: fresh identifiers, messages that no row is about, and references to
what is there. -/
structure Postings (start : NotificationDb) (ids : I → NotificationId) (new : I → NewNotification) : Prop where
  indexed : Indexed start.notifications
  distinct : ∀ i j, i ≠ j → (new i).userId = (new j).userId → (new i).kind = (new j).kind →
    (new i).messageId = (new j).messageId → (new i).messageId = none
  unrecorded : ∀ i, (new i).already start.notifications = false
  fresh : ∀ i, start.notifications.contains (ids i) = false
  drawn : Function.Injective ids
  posted : ∀ i, (new i).referencesExist start.toDb = true

/-- Is this the row with this identifier the recording is counted in? -/
abbrev CountedAs (id : NotificationId) (c : Recording) : Prop := c.countedIn = some id

/-- How many events a row stood for at the start. -/
def countBefore (start : NotificationDb) (id : NotificationId) : Nat := (start.notifications.find id).elim 0 (·.count)

/-- Every recording that has come to its end without standing alone is counted in one row, every row counts what it
stood for and the recordings counted in it, and no conversation has two open rows. -/
structure Counted [Fintype I] (start : NotificationDb) (new : I → NewNotification) (σ : Recordings I) : Prop where
  recorded : ∀ i outcome, σ.calls i = .finished outcome → outcome = .ok .known ∧ (new i).standsAlone = true ∨
    ∃ n ∈ σ.store.notifications.rows, CountedAs n.id (σ.calls i)
  counts : ∀ n ∈ σ.store.notifications.rows, n.count = countBefore start n.id + System.tally (CountedAs n.id) σ.calls
  total : σ.store.notifications.sum (·.count) =
    start.notifications.sum (·.count) + System.tally (fun c => c.countedIn.isSome = true) σ.calls
  openOnce : ∀ n ∈ σ.store.notifications.rows, ∀ m ∈ σ.store.notifications.rows, n.userId = m.userId → n.roomId = m.roomId →
    n.roomId.isSome = true → n.actorId = m.actorId → n.kind = m.kind → n.readAt = none → m.readAt = none → n = m

/-- A recording that is about to fold finds a row of its conversation that is open, and can count one more. -/
def Recording.findsOpen (db : NotificationDb) : Recording → Prop
  | folding new => ∃ n ∈ db.notifications.rows, new.foldsInto n = true ∧ n.count < maxInteger
  | _ => True

instance (db : NotificationDb) : (c : Recording) → Decidable (c.findsOpen db)
  | .inserting .. => .isTrue trivial
  | .folding new => inferInstanceAs (Decidable (∃ n ∈ db.notifications.rows, new.foldsInto n = true ∧ n.count < maxInteger))
  | .finished _ => .isTrue trivial

/-- Nobody folds a message into a conversation that has been read meanwhile, or whose row can count no more. -/
def FoldsIntoOpen (σ : Recordings I) : Event I Elsewhere → Prop
  | .turn i => (σ.calls i).findsOpen σ.store
  | .outside _ => True

instance (σ : Recordings I) : (e : Event I Elsewhere) → Decidable (FoldsIntoOpen σ e)
  | .turn i => inferInstanceAs (Decidable ((σ.calls i).findsOpen σ.store))
  | .outside _ => .isTrue trivial

/-- How far each recording has come, and what no row is about until then. -/
structure Underway (ids : I → NotificationId) (new : I → NewNotification) (σ : Recordings I) : Prop where
  indexed : Indexed σ.store.notifications
  posted : ∀ i, (new i).referencesExist σ.store.toDb = true
  call : ∀ i, (σ.calls i = .inserting (ids i) (new i) ∧ σ.store.notifications.contains (ids i) = false ∧
      (new i).already σ.store.notifications = false) ∨
    (σ.calls i = .folding (new i) ∧ (new i).standsAlone = false ∧ (new i).already σ.store.notifications = false) ∨
    ∃ outcome, σ.calls i = .finished outcome

/-- What a turn of a recording does. -/
inductive Moves (id : NotificationId) (new : NewNotification) (db : NotificationDb) : Recording → Recording → NotificationDb → Prop where
  | ended (outcome) : Moves id new db (.finished outcome) (.finished outcome) db
  | inTheWay (h : new.standsAlone = false) : Moves id new db (.inserting id new) (.folding new) db
  | alone (h : new.standsAlone = true) : Moves id new db (.inserting id new) (.finished (.ok .known)) db
  | creates (h : conflicts db.notifications (new.row id db.now) = false) :
    Moves id new db (.inserting id new) (.finished (.ok (.created (new.row id db.now))))
      { db with notifications := db.notifications.insert (new.row id db.now) }
  | misses (h : ∀ n ∈ db.notifications.rows, new.foldsInto n = false) :
    Moves id new db (.folding new) (.finished (.ok .known)) db
  | full (n : Notification) (hn : n ∈ db.notifications.rows) (hf : new.foldsInto n = true) (hc : maxInteger ≤ n.count) :
    Moves id new db (.folding new) (.finished (.error .database)) db
  | folds (n : Notification) (hn : n ∈ db.notifications.rows) (hf : new.foldsInto n = true) (hc : n.count < maxInteger) :
    Moves id new db (.folding new) (.finished (.ok (.folded (foldRow new db.now n))))
      { db with notifications := db.notifications.update n.id (foldRow new db.now) fun _ => rfl }

variable {start : NotificationDb} {ids : I → NotificationId} {new : I → NewNotification} {σ : Recordings I} {i : I}

theorem Underway.moves (h : Underway ids new σ) (i : I) : Moves (ids i) (new i) σ.store (σ.calls i)
    ((σ.calls i).advance σ.store).1 ((σ.calls i).advance σ.store).2 := by
  rcases h.call i with ⟨hc, -, -⟩ | ⟨hc, hs, hnew⟩ | ⟨outcome, hc⟩
  · rw [hc]
    rcases hconf : conflicts σ.store.notifications ((new i).row (ids i) σ.store.now)
    · simp only [Recording.advance, insertNotification_created hconf (h.posted i)]
      exact .creates hconf
    · simp only [Recording.advance, insertNotification_conflict hconf]
      rcases hs : (new i).standsAlone
      · exact .inTheWay hs
      · exact .alone hs
  · rw [hc]
    by_cases hopen : ∃ n ∈ σ.store.notifications.rows, (new i).foldsInto n = true
    · obtain ⟨n, hn, hf⟩ := hopen
      simp only [Recording.advance, foldNotification_some h.indexed hnew hn hf]
      by_cases hfull : maxInteger ≤ n.count
      · rw [if_pos hfull]
        exact .full n hn hf hfull
      · rw [if_neg hfull]
        exact .folds n hn hf (Nat.lt_of_not_le hfull)
    · have hnone : ∀ n ∈ σ.store.notifications.rows, (new i).foldsInto n = false := fun n hn =>
        Bool.eq_false_iff.2 fun hf => hopen ⟨n, hn, hf⟩
      simp only [Recording.advance, foldNotification_none hnew hnone]
      exact .misses hnone
  · rw [hc]
    exact .ended outcome

/-! ## Every recording stays on its way -/

section Underway

variable {n : Notification} {db : NotificationDb} {t : Table Notification}

theorem already_insert (hp : Postings start ids new) {j : I} (hj : j ≠ i) (h : (new j).already t = false) (now : Timestamp) :
    (new j).already (t.insert ((new i).row (ids i) now)) = false := by
  refine already_eq_false.2 fun n hn => Bool.eq_false_iff.2 fun habout => ?_
  rcases Table.mem_insert.1 hn with hn | ⟨rfl, -⟩
  · rw [already_eq_false.1 h n hn] at habout
    cases habout
  · obtain ⟨hu, hk, hs, hm⟩ := isAbout_iff.1 habout
    rw [hp.distinct j i hj hu.symm hk.symm hm.symm] at hs
    cases hs

theorem already_fold (hp : Postings start ids new) {j : I} (hj : j ≠ i) (h : (new j).already t = false) (now : Timestamp)
    (hn : n ∈ t.rows) (hf : (new i).foldsInto n = true) :
    (new j).already (t.update n.id (foldRow (new i) now) fun _ => rfl) = false := by
  refine already_eq_false.2 fun m hm => Bool.eq_false_iff.2 fun habout => ?_
  rcases (Table.mem_update t n.id (foldRow (new i) now) fun _ => rfl).1 hm with ⟨r, hr, hrn, rfl⟩ | ⟨hold, -⟩
  · obtain rfl : r = n := List.inj_on_of_nodup_map t.nodup hr hn hrn
    rcases isAbout_foldRow hf habout with habout | ⟨hu, hk, hm, hs⟩
    · rw [already_eq_false.1 h r hr] at habout
      cases habout
    · rw [hp.distinct i j (Ne.symm hj) hu hk hm] at hs
      cases hs
  · rw [already_eq_false.1 h m hold] at habout
    cases habout

theorem already_markWhere {new : NewNotification} (h : new.already db.notifications = false) (p : Notification → Bool) :
    new.already (markWhere p db).notifications = false := by
  refine already_eq_false.2 fun m hm => ?_
  obtain ⟨n, hn, rfl⟩ := mem_markWhere.1 hm
  have := already_eq_false.1 h n hn
  split <;> exact this

theorem Underway.begin (hp : Postings start ids new) : Underway ids new (begin start ids new) where
  indexed := hp.indexed
  posted := hp.posted
  call i := .inl ⟨rfl, hp.fresh i, hp.unrecorded i⟩

variable [DecidableEq I]

/-- A turn keeps what the others have before them, and gives the mover its next state. -/
theorem Underway.of_turn (h : Underway ids new σ) {db : NotificationDb} {c : Recording} (hidx : Indexed db.notifications)
    (hdb : db.toDb = σ.store.toDb)
    (hcontains : ∀ j, j ≠ i → σ.store.notifications.contains (ids j) = false → db.notifications.contains (ids j) = false)
    (halready : ∀ j, j ≠ i → (new j).already σ.store.notifications = false → (new j).already db.notifications = false)
    (hown : (c = .folding (new i) ∧ (new i).standsAlone = false ∧ (new i).already db.notifications = false) ∨
      ∃ outcome, c = .finished outcome) : Underway ids new { store := db, calls := Function.update σ.calls i c } := by
  refine ⟨hidx, fun j => hdb ▸ h.posted j, fun j => ?_⟩
  by_cases hj : j = i
  · subst hj
    simp only [Function.update_self]
    exact .inr hown
  · simp only [Function.update_of_ne hj]
    rcases h.call j with ⟨hc, hid, hnew⟩ | ⟨hc, hs, hnew⟩ | hc
    · exact .inl ⟨hc, hcontains j hj hid, halready j hj hnew⟩
    · exact .inr (.inl ⟨hc, hs, halready j hj hnew⟩)
    · exact .inr (.inr hc)

omit [DecidableEq I] in
theorem Underway.already (h : Underway ids new σ) (hc : ∀ outcome, σ.calls i ≠ .finished outcome) :
    (new i).already σ.store.notifications = false := by
  rcases h.call i with ⟨-, -, hnew⟩ | ⟨-, -, hnew⟩ | ⟨outcome, hf⟩
  · exact hnew
  · exact hnew
  · exact absurd hf (hc outcome)

theorem Underway.moved (hp : Postings start ids new) (h : Underway ids new σ) {c : Recording} {db : NotificationDb}
    (hm : Moves (ids i) (new i) σ.store (σ.calls i) c db) :
    Underway ids new { store := db, calls := Function.update σ.calls i c } := by
  have hnew : (∀ outcome, σ.calls i ≠ .finished outcome) → _ := h.already (i := i)
  generalize hci : σ.calls i = ci at hm hnew
  cases hm with
  | ended outcome => exact h.of_turn h.indexed rfl (fun _ _ => id) (fun _ _ => id) (.inr ⟨outcome, rfl⟩)
  | inTheWay hs => exact h.of_turn h.indexed rfl (fun _ _ => id) (fun _ _ => id) (.inl ⟨rfl, hs, hnew fun _ h => by cases h⟩)
  | alone hs => exact h.of_turn h.indexed rfl (fun _ _ => id) (fun _ _ => id) (.inr ⟨_, rfl⟩)
  | creates hconf =>
    refine h.of_turn (h.indexed.insert hconf) rfl (fun j hj hc => ?_) (fun j hj hc => already_insert hp hj hc _) (.inr ⟨_, rfl⟩)
    have hne : ids i ≠ ids j := fun he => hj (hp.drawn he).symm
    have hcontains := Table.contains_insert σ.store.notifications ((new i).row (ids i) σ.store.now) (ids j)
    rw [hcontains, hc, Bool.false_or]
    exact decide_eq_false hne
  | misses hnone => exact h.of_turn h.indexed rfl (fun _ _ => id) (fun _ _ => id) (.inr ⟨_, rfl⟩)
  | full n hn hf hc => exact h.of_turn h.indexed rfl (fun _ _ => id) (fun _ _ => id) (.inr ⟨_, rfl⟩)
  | folds n hn hf hc =>
    refine h.of_turn (h.indexed.fold (hnew fun _ h => by cases h) hn hf _) rfl (fun j hj hc => ?_) (fun j hj hc => already_fold hp hj hc _ hn hf)
      (.inr ⟨_, rfl⟩)
    exact (Table.contains_updateWhere _ _ (foldRow (new i) σ.store.now) (fun _ => rfl) _).trans hc

theorem Underway.outside (h : Underway ids new σ) (a : Elsewhere) : Underway ids new (step σ (.outside a)) := by
  have hmark : ∀ p : Notification → Bool, Underway ids new { σ with store := markWhere p σ.store } := by
    intro p
    refine ⟨h.indexed.markWhere p, h.posted, fun j => ?_⟩
    have hcontains : ∀ id, (markWhere p σ.store).notifications.contains id = σ.store.notifications.contains id := fun id =>
      Table.contains_updateWhere _ _ (closeRow σ.store.now) (fun _ => rfl) id
    rcases h.call j with ⟨hc, hid, hnew⟩ | ⟨hc, hs, hnew⟩ | hc
    · exact .inl ⟨hc, (hcontains _).trans hid, already_markWhere hnew p⟩
    · exact .inr (.inl ⟨hc, hs, already_markWhere hnew p⟩)
    · exact .inr (.inr hc)
  cases a with
  | read u id => exact hmark _
  | readAll u => exact hmark _
  | wait elapsed => exact ⟨h.indexed, h.posted, h.call⟩

end Underway

/-! ## What a turn counts -/

section Turn

variable [Fintype I] {n : Notification} {c : Recording} {db : NotificationDb}

/-- What a recording is counted in is a row. -/
theorem Counted.contains (h : Counted start new σ) {j : I} {id : NotificationId} (hj : CountedAs id (σ.calls j)) :
    σ.store.notifications.contains id = true := by
  rcases hc : σ.calls j with _ | _ | outcome
  · rw [hc] at hj
    cases hj
  · rw [hc] at hj
    cases hj
  · rcases h.recorded j outcome hc with ⟨rfl, -⟩ | ⟨n, hn, hcounted⟩
    · rw [hc] at hj
      cases hj
    · obtain rfl : n.id = id := Option.some.inj (hcounted.symm.trans hj)
      exact Table.contains_iff.2 ⟨n, Table.mem_iff_find.1 hn⟩

/-- Two open rows of one conversation are one. -/
theorem openOnce_of_indexed {t : Table Notification} (h : Indexed t) : ∀ n ∈ t.rows, ∀ m ∈ t.rows, n.userId = m.userId →
    n.roomId = m.roomId → n.roomId.isSome = true → n.actorId = m.actorId → n.kind = m.kind → n.readAt = none →
    m.readAt = none → n = m := by
  intro n hn m hm hu hr hs ha hk hno hmo
  exact h.openGroups n hn m hm (by simp [sameOpenGroup, isOpen, hno, hmo, hs, ← hr, hu, ha, hk])

variable [DecidableEq I]

/-- A turn that counts nothing: it leaves the rows, and ends only as a recording that stands alone may. -/
theorem Counted.of_idle (h : Counted start new σ) (hci : (σ.calls i).countedIn = none) (hc : c.countedIn = none)
    (hend : ∀ outcome, c = .finished outcome → outcome = .ok .known ∧ (new i).standsAlone = true) :
    Counted start new { store := σ.store, calls := Function.update σ.calls i c } := by
  have htally : ∀ id, System.tally (CountedAs id) (Function.update σ.calls i c) = System.tally (CountedAs id) σ.calls :=
    fun id => System.tally_update_of_iff (by simp [CountedAs, hc, hci])
  refine ⟨fun j outcome hj => ?_, fun n hn => ?_, ?_, h.openOnce⟩
  · by_cases hji : j = i
    · subst hji
      simp only [Function.update_self] at hj
      exact .inl (hend outcome hj)
    · simp only [Function.update_of_ne hji] at hj ⊢
      exact h.recorded j outcome hj
  · rw [htally]
    exact h.counts n hn
  · rw [System.tally_update_of_iff (by simp [hc, hci])]
    exact h.total

/-- A turn that counts its message in a row: the rows there were are still there, and only that one has changed. -/
theorem Counted.of_counting (h : Counted start new σ) (hidx : Indexed db.notifications) (hci : (σ.calls i).countedIn = none)
    {k : NotificationId} (hc : CountedAs k c)
    (hkeys : ∀ id, db.notifications.contains id = (σ.store.notifications.contains id || decide (k = id)))
    (hcounts : ∀ n ∈ db.notifications.rows,
      n.count = countBefore start n.id + System.tally (CountedAs n.id) σ.calls + if n.id = k then 1 else 0)
    (hsum : db.notifications.sum (·.count) = σ.store.notifications.sum (·.count) + 1) :
    Counted start new { store := db, calls := Function.update σ.calls i c } := by
  have hrow : ∀ id, db.notifications.contains id = true → ∃ n ∈ db.notifications.rows, n.id = id := by
    intro id hid
    obtain ⟨n, hn⟩ := Table.contains_iff.1 hid
    exact ⟨n, (Table.find_eq_some.1 hn).1, (Table.find_eq_some.1 hn).2⟩
  refine ⟨fun j outcome hj => ?_, fun n hn => ?_, ?_, openOnce_of_indexed hidx⟩
  · by_cases hji : j = i
    · subst hji
      obtain ⟨n, hn, rfl⟩ := hrow k (by simp [hkeys])
      exact .inr ⟨n, hn, by simpa using hc⟩
    · simp only [Function.update_of_ne hji] at hj ⊢
      rcases h.recorded j outcome hj with hknown | ⟨n, hn, hcounted⟩
      · exact .inl hknown
      · obtain ⟨m, hm, hmid⟩ := hrow n.id (by simp [hkeys, h.contains hcounted])
        exact .inr ⟨m, hm, hmid ▸ hcounted⟩
  · rw [hcounts n hn]
    by_cases hnk : n.id = k
    · rw [System.tally_update_of_new (hnk ▸ hc) (by simp [hci]), if_pos hnk]
      omega
    · have hnot : ¬ CountedAs n.id c := fun h => hnk (Option.some.inj (h.symm.trans hc))
      rw [System.tally_update_of_iff (by simp [hnot, hci]), if_neg hnk, Nat.add_zero]
  · rw [hsum, h.total, System.tally_update_of_new (by rw [hc]; rfl) (by simp [hci])]
    omega

end Turn

/-! ## Every message is counted once -/

section Once

theorem countBefore_fresh (hp : Postings start ids new) (i : I) : countBefore start (ids i) = 0 := by
  unfold countBefore
  rw [Table.contains_eq_false.1 (hp.fresh i)]
  rfl

variable [Fintype I] [DecidableEq I]

/-- A row that is created counts the message it is made for, and nothing was counted in it before. -/
theorem Counted.of_create (hp : Postings start ids new) (hu : Underway ids new σ) (h : Counted start new σ)
    (hci : (σ.calls i).countedIn = none) (hconf : conflicts σ.store.notifications ((new i).row (ids i) σ.store.now) = false) :
    Counted start new
      { store := { σ.store with notifications := σ.store.notifications.insert ((new i).row (ids i) σ.store.now) }
        calls := Function.update σ.calls i (.finished (.ok (.created ((new i).row (ids i) σ.store.now)))) } := by
  have hfree : σ.store.notifications.contains (ids i) = false := contains_of_not_conflicts hconf
  refine h.of_counting (hu.indexed.insert hconf) hci rfl (Table.contains_insert _ _) (fun n hn => ?_) (Table.sum_insert _ _ hfree)
  rcases Table.mem_insert.1 hn with hn | ⟨rfl, -⟩
  · have hne : n.id ≠ ids i := by
      intro he
      have hin : σ.store.notifications.contains n.id = true := Table.contains_iff.2 ⟨n, Table.mem_iff_find.1 hn⟩
      rw [he, hfree] at hin
      cases hin
    rw [h.counts n hn]
    simp [NewNotification.row, hne]
  · -- whoever is counted in a row has it there already
    have hzero : System.tally (CountedAs (ids i)) σ.calls = 0 := System.tally_eq_zero fun j hj => by
      have hin := h.contains hj
      rw [hfree] at hin
      cases hin
    show 1 = countBefore start (ids i) + System.tally (CountedAs (ids i)) σ.calls + if ids i = ids i then 1 else 0
    rw [countBefore_fresh hp i, hzero, if_pos rfl]

/-- A row that is folded into counts one message more. -/
theorem Counted.of_fold (hu : Underway ids new σ) (h : Counted start new σ) (hci : (σ.calls i).countedIn = none)
    (hnew : (new i).already σ.store.notifications = false) {n : Notification} (hn : n ∈ σ.store.notifications.rows)
    (hf : (new i).foldsInto n = true) :
    Counted start new
      { store := { σ.store with notifications := σ.store.notifications.update n.id (foldRow (new i) σ.store.now) fun _ => rfl }
        calls := Function.update σ.calls i (.finished (.ok (.folded (foldRow (new i) σ.store.now n)))) } := by
  have hfind : σ.store.notifications.find n.id = some n := Table.mem_iff_find.1 hn
  have hin : σ.store.notifications.contains n.id = true := Table.contains_iff.2 ⟨n, hfind⟩
  refine h.of_counting (hu.indexed.fold hnew hn hf _) hci rfl (fun id => ?_) (fun m hm => ?_) ?_
  · refine (Table.contains_updateWhere _ _ (foldRow (new i) σ.store.now) (fun _ => rfl) id).trans ?_
    by_cases hid : n.id = id
    · subst hid
      simp [hin]
    · simp [foldRow, hid]
  · obtain ⟨r, hr, rfl⟩ := List.mem_map.1 hm
    by_cases hrn : r.id = n.id
    · rw [if_pos (by simpa [key] using hrn)]
      simp only [foldRow, h.counts r hr, hrn, if_true]
    · rw [if_neg (by simpa [key] using hrn), h.counts r hr]
      simp [foldRow, hrn]
  · have hsum := Table.sum_update (g := fun n : Notification => n.count) σ.store.notifications n.id
      (foldRow (new i) σ.store.now) (fun _ => rfl) hfind
    simp only [foldRow] at hsum ⊢
    omega

/-- A recording that ends without a row has counted nothing, which only one that stands alone may. -/
theorem not_counted_of_lost {outcome : Except RepositoryError Recorded} (hnone : (Recording.finished outcome).countedIn = none)
    (halone : (new i).standsAlone = false ∨ outcome ≠ .ok .known) :
    ¬ Counted start new { store := σ.store, calls := Function.update σ.calls i (.finished outcome) } := by
  intro h
  rcases h.recorded i outcome (Function.update_self ..) with ⟨hknown, hs⟩ | ⟨n, -, hin⟩
  · rcases halone with hfalse | hne
    · rw [hfalse] at hs
      cases hs
    · exact hne hknown
  · simp only [Function.update_self] at hin
    exact Option.some_ne_none _ (hin.symm.trans hnone)

/-- A turn keeps the count exactly if a fold finds an open row. -/
theorem counted_turn_iff (hp : Postings start ids new) (hu : Underway ids new σ) (h : Counted start new σ) {c : Recording}
    {db : NotificationDb} (hm : Moves (ids i) (new i) σ.store (σ.calls i) c db) :
    Counted start new { store := db, calls := Function.update σ.calls i c } ↔ FoldsIntoOpen σ (.turn i) := by
  have hcall := hu.call i
  have hnew : (∀ outcome, σ.calls i ≠ .finished outcome) → _ := hu.already (i := i)
  simp only [FoldsIntoOpen]
  generalize hci : σ.calls i = ci at hm hcall hnew
  cases hm with
  | ended outcome =>
    have hsame : Function.update σ.calls i (.finished outcome) = σ.calls := by
      rw [← hci, Function.update_eq_self]
    rw [hsame]
    exact iff_of_true h trivial
  | inTheWay hs =>
    refine iff_of_true (h.of_idle (by rw [hci]; rfl) rfl fun outcome he => ?_) trivial
    cases he
  | alone hs =>
    refine iff_of_true (h.of_idle (by rw [hci]; rfl) rfl fun outcome he => ?_) trivial
    cases he
    exact ⟨rfl, hs⟩
  | creates hconf => exact iff_of_true (Counted.of_create hp hu h (by rw [hci]; rfl) hconf) trivial
  | misses hnone =>
    have hs : (new i).standsAlone = false := by
      rcases hcall with ⟨hc, -⟩ | ⟨-, hs, -⟩ | ⟨outcome, hc⟩
      · cases hc
      · exact hs
      · cases hc
    refine iff_of_false (not_counted_of_lost rfl (.inl hs)) ?_
    rintro ⟨n, hn, hf, -⟩
    rw [hnone n hn] at hf
    cases hf
  | full n hn hf hc =>
    refine iff_of_false (not_counted_of_lost rfl (.inr nofun)) ?_
    rintro ⟨m, hm, hfm, hcm⟩
    rw [foldsInto_unique hu.indexed hm hn hfm hf] at hcm
    exact absurd hcm (Nat.not_lt.2 hc)
  | folds n hn hf hc =>
    exact iff_of_true (Counted.of_fold hu h (by rw [hci]; rfl) (hnew fun _ h => by cases h) hn hf) ⟨n, hn, hf, hc⟩

theorem counted_outside (h : Counted start new σ) (hu : Underway ids new σ) (a : Elsewhere) :
    Counted start new (step σ (.outside a)) := by
  have hmark : ∀ p : Notification → Bool, Counted start new { σ with store := markWhere p σ.store } := by
    intro p
    have hrow : ∀ n : Notification, ∃ at_, (if (p n && n.readAt.isNone) = true then closeRow σ.store.now n else n) =
        { n with readAt := at_ } := by
      intro n
      split
      · exact ⟨_, rfl⟩
      · exact ⟨n.readAt, rfl⟩
    refine ⟨fun j outcome hj => ?_, fun m hm => ?_, ?_, openOnce_of_indexed (hu.indexed.markWhere p)⟩
    · rcases h.recorded j outcome hj with hknown | ⟨n, hn, hin⟩
      · exact .inl hknown
      · obtain ⟨at_, hat⟩ := hrow n
        exact .inr ⟨_, mem_markWhere.2 ⟨n, hn, rfl⟩, by rw [hat]; exact hin⟩
    · obtain ⟨n, hn, rfl⟩ := mem_markWhere.1 hm
      obtain ⟨at_, hat⟩ := hrow n
      rw [hat]
      exact h.counts n hn
    · have hsum := Table.sum_updateWhere (g := fun n : Notification => n.count) σ.store.notifications
        (fun n => p n && n.readAt.isNone) (closeRow σ.store.now) (fun _ => rfl) fun _ => rfl
      exact hsum.trans h.total
  cases a with
  | read u id => exact hmark _
  | readAll u => exact hmark _
  | wait elapsed => exact ⟨h.recorded, h.counts, h.total, h.openOnce⟩

omit [DecidableEq I] in
theorem counted_begin (hp : Postings start ids new) : Counted start new (begin start ids new) := by
  refine ⟨fun j outcome hj => (nomatch hj), fun n hn => ?_, ?_, openOnce_of_indexed hp.indexed⟩
  · rw [System.tally_eq_zero fun j hj => (nomatch hj)]
    show n.count = countBefore start n.id + 0
    unfold countBefore
    rw [show start.notifications.find n.id = some n from Table.mem_iff_find.1 hn]
    rfl
  · rw [System.tally_eq_zero fun j hj => (nomatch hj)]
    rfl

/-- In every run of recordings of distinct messages, every message that is not set aside as one that stands alone is
counted in exactly one row and no conversation has two open ones, exactly if no recording comes to fold into a
conversation that has been read meanwhile, or whose row can count no more. -/
theorem counted_once (start : NotificationDb) (ids : I → NotificationId) (new : I → NewNotification)
    (hp : Postings start ids new) (events : List (Event I Elsewhere)) :
    Always step (Counted start new) (begin start ids new) events ↔ Along step FoldsIntoOpen (begin start ids new) events := by
  refine always_iff_along (J := Underway ids new) (fun σ e hu => ?_) (fun σ e hu h => ?_) (.begin hp) (counted_begin hp)
  · cases e with
    | turn i => exact hu.moved hp (hu.moves i)
    | outside a => exact hu.outside a
  · cases e with
    | turn i => exact counted_turn_iff hp hu h (hu.moves i)
    | outside a => exact iff_of_true (counted_outside h hu a) trivial

end Once

end Counting

/-! ## Two messages of one conversation -/

section Sample

/-- A room in which `⟨2⟩` has written to `⟨1⟩` twice. -/
def sampleRoom : RoomRow where
  id := ⟨5⟩
  communityId := none
  ownerId := none
  name := "DM: @ana"
  topic := none
  category := directCategory
  roomType := .text
  visibility := .private
  status := .active
  isAnonymous := false
  position := 0
  maxParticipants := none
  currentParticipants := 2
  startedAt := none
  expiresAt := none
  endedAt := none
  createdAt := 0
  updatedAt := 0
  emptiedAt := none

def sampleMessage (m : MessageId) : Message where
  id := m
  roomId := ⟨5⟩
  authorId := ⟨2⟩
  content := "hi"
  replyToId := none
  isAnonymous := false
  editedAt := none
  createdAt := 0

def sample : NotificationDb :=
  { Db.empty 0 with
    users := (Table.empty.insert { id := ⟨1⟩, handle := "ana", email := "ana@example.com", isActive := true }).insert
      { id := ⟨2⟩, handle := "ben", email := "ben@example.com", isActive := true }
    rooms := Table.empty.insert sampleRoom
    messages := (Table.empty.insert (sampleMessage ⟨1⟩)).insert (sampleMessage ⟨2⟩)
    notifications := .empty }

/-- What the first and the second of them give rise to. -/
def sampleNew (second : Bool) : NewNotification where
  userId := ⟨1⟩
  kind := .directMessage
  actorId := some ⟨2⟩
  roomId := some ⟨5⟩
  messageId := some (if second then ⟨2⟩ else ⟨1⟩)
  preview := some "hi"

def sampleId (second : Bool) : NotificationId := if second then ⟨2⟩ else ⟨1⟩

theorem sample_postings : Postings sample sampleId sampleNew where
  indexed := Indexed.empty
  distinct := by decide
  unrecorded _ := rfl
  fresh _ := rfl
  drawn := by decide
  posted := by decide

/-- One after the other, both are counted. -/
theorem counted_once_of_two : Along step FoldsIntoOpen (begin sample sampleId sampleNew) [.turn false, .turn true, .turn true] ∧
    Always step (Counted sample sampleNew) (begin sample sampleId sampleNew) [.turn false, .turn true, .turn true] :=
  have hopen : Along step FoldsIntoOpen (begin sample sampleId sampleNew) [.turn false, .turn true, .turn true] := by decide
  ⟨hopen, (counted_once sample sampleId sampleNew sample_postings _).2 hopen⟩

/-- Who reads between the two statements of the second recording is never told of the second message. -/
theorem read_between_loses : Postings sample sampleId sampleNew ∧
    ¬ Always step (Counted sample sampleNew) (begin sample sampleId sampleNew)
      [.turn false, .turn true, .outside (.readAll ⟨1⟩), .turn true] := by
  refine ⟨sample_postings, fun h => ?_⟩
  have hend : (run step (begin sample sampleId sampleNew) [.turn false, .turn true, .outside (.readAll ⟨1⟩), .turn true]).calls true =
      .finished (.ok .known) := by decide
  rcases h.last.recorded true _ hend with ⟨-, hs⟩ | ⟨n, -, hin⟩
  · cases hs
  · rw [hend] at hin
    cases hin

end Sample

end Genzh.Notification
