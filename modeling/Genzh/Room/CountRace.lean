/-
Joins, leaves and the reaper at the same time. A recount counts the participant rows it sees and then
waits for the room's row; what it writes in the end is what it has counted, whatever has been committed
meanwhile. Where nobody commits a change of who is in a room while another recount of that room is between
its count and the room's row, every count is right, and no room ends with somebody in it.
-/
import Genzh.Room.Counts
import Genzh.Room.Transactions

namespace Genzh.Room

open Genzh.Lib Genzh.Domain Genzh.Infrastructure

/-- Every room counts its participant rows. -/
def CountsRight (db : Db) : Prop := ∀ r row, db.room r = some row → row.currentParticipants = db.participantCount r

/-- No room that ends on the way has a participant. -/
def EndsEmpty (db db' : Db) : Prop :=
  ∀ r row row', db.room r = some row → db'.room r = some row' → row.status ≠ .ended → row'.status = .ended →
    db.participantCount r = 0

/-- What every transaction relies on. -/
structure Settled (db : Db) : Prop where
  noStray : NoStray db
  counts : CountsRight db

namespace Progress

/-- The room a recount has counted, without having its row yet. -/
def countingRoom : Progress → Option RoomId
  | counting _ w _ => some w.roomId
  | _ => none

/-- The room in which the commit to come changes who is there. -/
def changingRoom (db : Db) : Progress → Option RoomId
  | counted _ w _ => if w.changes db then some w.roomId else none
  | _ => none

end Progress

/-! ## What a write does to the participants -/

namespace Write

variable {db db' : Db} {w : Write} {now : Timestamp} {r : RoomId} {u : UserId}

/-- A row that is put in has its room. -/
def Placed (w : Write) (db : Db) : Prop :=
  match w with
  | join r _ _ => db.roomExists r = true
  | leave .. => True

theorem room_apply (now : Timestamp) (w : Write) (db : Db) (r : RoomId) : (w.apply now db).room r = db.room r := by
  rcases w with _ | ⟨r', u', _ | _⟩ <;> rfl

theorem participates_join (r' : RoomId) (u' : UserId) (role : RoomParticipantRole) :
    ((join r' u' role).apply now db).participates r u = (db.participates r u || decide (r' = r ∧ u' = u)) :=
  participates_insertParticipant (db.tick now) r' r u' u role

theorem participates_leave (r' : RoomId) (u' : UserId) (found : Bool) :
    ((leave r' u' found).apply now db).participates r u =
      (db.participates r u && !(found && decide (r' = r ∧ u' = u))) := by
  cases found with
  | false => simp [apply]
  | true =>
    refine (participates_deleteParticipant db r' r u' u).trans ?_
    simp

/-- Other rooms keep their participants. -/
theorem participates_apply_of_ne (h : w.roomId ≠ r) : (w.apply now db).participates r u = db.participates r u := by
  cases w with
  | join r' u' role =>
    rw [participates_join]
    simp [show r' ≠ r from h]
  | leave r' u' found =>
    rw [participates_leave]
    simp [show r' ≠ r from h]

/-- So does the room of a write that changes nobody's place. -/
theorem participates_apply_of_same (h : w.changes db = false) :
    (w.apply now db).participates r u = db.participates r u := by
  cases w with
  | join r' u' role =>
    rw [participates_join]
    by_cases hru : r' = r ∧ u' = u
    · obtain ⟨rfl, rfl⟩ := hru
      have hin : db.participates r' u' = true := by simpa [changes] using h
      simp [hin]
    · simp [hru]
  | leave r' u' found =>
    rw [participates_leave]
    by_cases hru : r' = r ∧ u' = u
    · obtain ⟨rfl, rfl⟩ := hru
      simp only [changes] at h
      cases hp : db.participates r' u' <;> cases found <;> simp_all
    · simp [hru]

/-- What the transaction sees of its room follows from who is in it. -/
theorem participates_apply_congr (h : ∀ v, db'.participates r v = db.participates r v) :
    (w.apply now db').participates r u = (w.apply now db).participates r u := by
  cases w with
  | join r' u' role => rw [participates_join, participates_join, h]
  | leave r' u' found => rw [participates_leave, participates_leave, h]

/-- A write that changes who is in a room is one to a room that is there. -/
theorem Placed.exists_of_changes (hp : w.Placed db) (hf : NoStray db) (h : w.changes db = true) :
    db.roomExists w.roomId = true := by
  cases w with
  | join r u role => exact hp
  | leave r u found =>
    obtain ⟨row, hrow⟩ := hf r u (Bool.and_eq_true_iff.1 h).2
    exact Table.contains_iff.2 ⟨row, hrow⟩

end Write

/-- Rooms with the same participants have as many of them. -/
theorem participantCount_congr {db db' : Db} {r : RoomId} (h : ∀ u, db'.participates r u = db.participates r u) :
    db'.participantCount r = db.participantCount r := by
  rw [Db.participantCount_eq_length, Db.participantCount_eq_length]
  refine List.Perm.length_eq ((List.perm_ext_iff_of_nodup (Db.nodup_participants db' r) (Db.nodup_participants db r)).2 ?_)
  intro u
  rw [Db.mem_participants, Db.mem_participants, h]

theorem room_writeCount (now : Timestamp) (r : RoomId) (total : Nat) (db : Db) (r' : RoomId) :
    (writeCount now r total db).room r' = if r = r' then (db.room r').map (recountRow now total) else db.room r' :=
  Table.find_update db.rooms r r' (recountRow now total) fun _ => rfl

theorem room_endListed (now : Timestamp) (ended : List RoomId) (db : Db) (r : RoomId) :
    (endListed now ended db).room r = (db.room r).map fun row => if ended.contains r then endRoom now row else row := by
  refine (Table.find_updateWhere db.rooms _ (endRoom now) (fun _ => rfl) r).trans ?_
  rcases h : db.rooms.find r with _ | row
  · simp [Db.room, h]
  · have hid : row.id = r := Table.find_key h
    rw [show db.room r = some row from h, Option.map_some, Option.map_some, hid]

/-! ## The statements -/

section Statement

variable {I : Type} [DecidableEq I]

/-- What the next step of a transaction can be. -/
inductive Statement (i : I) (s : Store I) : Progress → Progress → Store I → Prop where
  | start {t : Transaction} : Statement i s (.waiting t) (.begun t s.db.now) s
  | insert {r : RoomId} {u : UserId} {role : RoomParticipantRole} {now : Timestamp} (h : seatable s.db r u = true) :
      Statement i s (.begun (.join r u role) now) (.written now (.join r u role)) (s.lockParticipant i r u)
  | refuse {t : Transaction} {now : Timestamp} {e : ServiceError} : Statement i s (.begun t now) (.finished (.error e)) s
  | look {r : RoomId} {u : UserId} {now : Timestamp} {tuple : Nat} :
      Statement i s (.begun (.leave r u) now) (.deleting r u now tuple) s
  | miss {p : Progress} {r : RoomId} {u : UserId} {now : Timestamp} : Statement i s p (.written now (.leave r u false)) s
  | delete {r : RoomId} {u : UserId} {now : Timestamp} {tuple : Nat} :
      Statement i s (.deleting r u now tuple) (.written now (.leave r u true)) (s.lockParticipant i r u)
  | count {now : Timestamp} {w : Write} (h : s.db.roomExists w.roomId = true) :
      Statement i s (.written now w) (.counting now w ((w.apply now s.db).participantCount w.roomId)) s
  | countNone {now : Timestamp} {w : Write} {total : Nat} (h : s.db.roomExists w.roomId = false) :
      Statement i s (.written now w) (.counted now w total) s
  | lock {now : Timestamp} {w : Write} {total : Nat} (h : s.roomLocks.free i w.roomId = true) :
      Statement i s (.counting now w total) (.counted now w total) (s.lockRoom i w.roomId)
  | commit {now : Timestamp} {w : Write} {total : Nat} :
      Statement i s (.counted now w total) (.finished (.ok (w.outcome now s.db))) (s.commit i now w total)
  | find {now : Timestamp} {grace : Duration} {todo : List RoomId} :
      Statement i s (.begun (.reap grace) now) (.sweeping now grace todo []) s
  | visit {now : Timestamp} {grace : Duration} {r : RoomId} {row : RoomRow} {todo ended : List RoomId}
      (hrow : s.db.room r = some row) (hfree : s.roomLocks.free i r = true) :
      Statement i s (.sweeping now grace (r :: todo) ended)
        (.sweeping now grace todo (if abandoned now grace row then r :: ended else ended)) (s.lockRoom i r)
  | pass {now : Timestamp} {grace : Duration} {r : RoomId} {todo ended : List RoomId} :
      Statement i s (.sweeping now grace (r :: todo) ended) (.sweeping now grace todo ended) s
  | commitEnded {now : Timestamp} {grace : Duration} {ended : List RoomId} :
      Statement i s (.sweeping now grace [] ended) (.finished (.ok (.reaped ended.length))) (s.commitEnded i now ended)
  | rest {p : Progress} : Statement i s p p s

theorem advance_statement (i : I) (p : Progress) (s : Store I) :
    Statement i s p (p.advance i s).1 (p.advance i s).2 := by
  cases p with
  | waiting t => exact .start
  | begun t now =>
    cases t with
    | join r u role =>
      simp only [Progress.advance]
      split
      · exact .rest
      · split
        · exact .insert ‹_›
        · exact .refuse
    | leave r u =>
      simp only [Progress.advance]
      split
      · exact .look
      · exact .miss
    | reap grace => exact .find
  | deleting r u now tuple =>
    simp only [Progress.advance]
    split
    · exact .miss
    · split
      · exact .delete
      · exact .rest
  | written now w =>
    simp only [Progress.advance]
    split
    · exact .count ‹_›
    · exact .countNone (Bool.eq_false_iff.2 ‹_›)
  | counting now w total =>
    simp only [Progress.advance]
    split
    · exact .lock ‹_›
    · exact .rest
  | counted now w total => exact .commit
  | sweeping now grace todo ended =>
    cases todo with
    | nil => exact .commitEnded
    | cons r todo =>
      simp only [Progress.advance]
      rcases hrow : s.db.room r with _ | row
      · exact .pass
      · by_cases hfree : s.roomLocks.free i r = true
        · have hvisit : Statement i s (.sweeping now grace (r :: todo) ended)
            (.sweeping now grace todo (if abandoned now grace row then r :: ended else ended)) (s.lockRoom i r) :=
            .visit hrow hfree
          by_cases ha : abandoned now grace row = true
          · simpa [hfree, ha] using hvisit
          · simpa [hfree, ha] using hvisit
        · simpa [hfree] using Statement.rest
  | finished result => exact .rest

/-! ## What holds between the statements -/

/-- What a transaction knows: the row it puts in has its room; a recount under way has counted who is there
with what it has written itself; once it has the room's row it holds its lock; and the reaper holds the
locks of the rooms it has ended, and nobody is in them. -/
def Knows (i : I) : Progress → Store I → Prop
  | .written _ w, s => w.Placed s.db
  | .counting now w total, s =>
    w.Placed s.db ∧ s.db.roomExists w.roomId = true ∧ total = (w.apply now s.db).participantCount w.roomId
  | .counted now w total, s =>
    w.Placed s.db ∧ (s.db.roomExists w.roomId = true →
      s.roomLocks.holds i w.roomId = true ∧ total = (w.apply now s.db).participantCount w.roomId)
  | .sweeping _ _ _ ended, s => ∀ r ∈ ended, s.roomLocks.holds i r = true ∧ s.db.participantCount r = 0
  | _, _ => True

variable {i j : I} {s s' : Store I} {p p' q : Progress}

theorem roomExists_commit (now : Timestamp) (w : Write) (total : Nat) (r : RoomId) :
    (s.commit i now w total).db.roomExists r = s.db.roomExists r := by
  refine (Table.contains_updateWhere (w.apply now s.db).rooms _ (recountRow now total) (fun _ => rfl) r).trans ?_
  exact congrArg Option.isSome (Write.room_apply now w s.db r)

theorem roomExists_commitEnded (now : Timestamp) (ended : List RoomId) (r : RoomId) :
    (s.commitEnded i now ended).db.roomExists r = s.db.roomExists r :=
  Table.contains_updateWhere s.db.rooms _ (endRoom now) (fun _ => rfl) r

theorem room_commit (now : Timestamp) (w : Write) (total : Nat) (r : RoomId) :
    (s.commit i now w total).db.room r =
      if w.roomId = r then (s.db.room r).map (recountRow now total) else s.db.room r := by
  rw [← Write.room_apply now w s.db r]
  exact room_writeCount ..

/-- What a transaction knows stands as long as it keeps its locks and nobody comes or goes in the rooms it
has locked or counted. -/
theorem Knows.of_frame (hk : Knows i p s) (hexists : ∀ r, s'.db.roomExists r = s.db.roomExists r)
    (hlock : ∀ r, s.roomLocks.holds i r = true → s'.roomLocks.holds i r = true)
    (hsame : ∀ r, s.roomLocks.holds i r = true ∨ p.countingRoom = some r →
      ∀ u, s'.db.participates r u = s.db.participates r u) : Knows i p s' := by
  have hplaced : ∀ {w : Write}, w.Placed s.db → w.Placed s'.db := by
    intro w hw
    cases w with
    | join r u role => exact (hexists r).trans hw
    | leave => trivial
  cases p with
  | written now w => exact hplaced hk
  | counting now w total =>
    obtain ⟨hw, he, ht⟩ := hk
    refine ⟨hplaced hw, (hexists _).trans he, ht.trans ?_⟩
    exact (participantCount_congr fun u => Write.participates_apply_congr (hsame _ (.inr rfl))).symm
  | counted now w total =>
    obtain ⟨hw, h⟩ := hk
    refine ⟨hplaced hw, fun he => ?_⟩
    obtain ⟨hl, ht⟩ := h ((hexists _).symm.trans he)
    refine ⟨hlock _ hl, ht.trans ?_⟩
    exact (participantCount_congr fun u => Write.participates_apply_congr (hsame _ (.inl hl))).symm
  | sweeping now grace todo ended =>
    intro r hr
    obtain ⟨hl, hc⟩ := hk r hr
    exact ⟨hlock r hl, (participantCount_congr (hsame r (.inl hl))).trans hc⟩
  | _ => trivial

/-- A commit that changes who is in a room holds the lock of the room. -/
theorem Knows.holds_of_changes {now : Timestamp} {w : Write} {total : Nat} (hk : Knows i (.counted now w total) s)
    (hf : NoStray s.db) (h : w.changes s.db = true) : s.roomLocks.holds i w.roomId = true :=
  (hk.2 (hk.1.exists_of_changes hf h)).1

/-- The reaper visits a room: what it ends has nobody in it. -/
theorem Knows.visit {now : Timestamp} {grace : Duration} {r : RoomId} {row : RoomRow} {todo ended : List RoomId}
    (hk : Knows i (.sweeping now grace (r :: todo) ended) s) (hg : Settled s.db) (hrow : s.db.room r = some row)
    (hfree : s.roomLocks.free i r = true) :
    Knows i (.sweeping now grace todo (if abandoned now grace row then r :: ended else ended)) (s.lockRoom i r) := by
  have hkeep : ∀ r' ∈ ended, (s.lockRoom i r).roomLocks.holds i r' = true ∧ s.db.participantCount r' = 0 :=
    fun r' hr' => ⟨RowLocks.holds_take hfree (hk r' hr').1, (hk r' hr').2⟩
  by_cases ha : abandoned now grace row = true
  · rw [if_pos ha]
    intro r' hr'
    rcases List.mem_cons.1 hr' with rfl | hr'
    · refine ⟨RowLocks.holds_take_self, ?_⟩
      -- the room counts nobody, and the count is right
      simp only [abandoned, Bool.and_eq_true, decide_eq_true_eq] at ha
      have hcount := hg.counts r' row hrow
      rw [ha.1.2] at hcount
      exact_mod_cast hcount.symm
    · exact hkeep r' hr'
  · rw [if_neg ha]
    exact hkeep

theorem noStray_commit {now : Timestamp} {w : Write} {total : Nat} (hf : NoStray s.db) (hw : w.Placed s.db) :
    NoStray (s.commit i now w total).db := by
  intro r u hp
  refine Table.contains_iff.1 ((roomExists_commit now w total r).trans ?_)
  replace hp : (w.apply now s.db).participates r u = true := hp
  by_cases hr : w.roomId = r
  · subst hr
    by_cases hc : w.changes s.db = true
    · exact hw.exists_of_changes hf hc
    · rw [Write.participates_apply_of_same (Bool.eq_false_iff.2 hc)] at hp
      exact Table.contains_iff.2 (hf _ u hp)
  · rw [Write.participates_apply_of_ne hr] at hp
    exact Table.contains_iff.2 (hf r u hp)

theorem countsRight_commit {now : Timestamp} {w : Write} {total : Nat} (hc : CountsRight s.db)
    (hk : Knows i (.counted now w total) s) : CountsRight (s.commit i now w total).db := by
  intro r row' h
  rw [room_commit] at h
  change _ = (((w.apply now s.db).participantCount r : Nat) : Int)
  by_cases hr : w.roomId = r
  · subst hr
    rw [if_pos rfl] at h
    obtain ⟨row, hrow, rfl⟩ := Option.map_eq_some_iff.1 h
    rw [← (hk.2 (Table.contains_iff.2 ⟨row, hrow⟩)).2]
    rfl
  · rw [if_neg hr] at h
    rw [hc r row' h, participantCount_congr fun u => Write.participates_apply_of_ne hr]

theorem settled_commitEnded {now : Timestamp} {ended : List RoomId} (hg : Settled s.db) :
    Settled (s.commitEnded i now ended).db where
  noStray := by
    intro r u hp
    refine Table.contains_iff.1 ((roomExists_commitEnded now ended r).trans ?_)
    exact Table.contains_iff.2 (hg.noStray r u hp)
  counts := by
    intro r row' h
    obtain ⟨row, hrow, rfl⟩ := Option.map_eq_some_iff.1 ((room_endListed now ended s.db r).symm.trans h)
    have hcount := hg.counts r row hrow
    split
    · exact hcount
    · exact hcount

/-- A statement keeps what all transactions rely on, and what the one that makes it knows. -/
theorem Statement.keeps (h : Statement i s p p' s') (hg : Settled s.db) (hk : Knows i p s) :
    Settled s'.db ∧ Knows i p' s' := by
  cases h with
  | @insert r u role now hseat =>
    refine ⟨hg, ?_⟩
    rcases Bool.or_eq_true_iff.1 hseat with hp | he
    · exact Table.contains_iff.2 (hg.noStray r u hp)
    · exact (Bool.and_eq_true_iff.1 he).1
  | count he => exact ⟨hg, hk, he, rfl⟩
  | countNone he =>
    refine ⟨hg, hk, fun he' => ?_⟩
    rw [he] at he'
    cases he'
  | lock hfree =>
    obtain ⟨hw, -, ht⟩ := hk
    exact ⟨hg, hw, fun _ => ⟨RowLocks.holds_take_self, ht⟩⟩
  | commit => exact ⟨⟨noStray_commit hg.noStray hk.1, countsRight_commit hg.counts hk⟩, trivial⟩
  | find => exact ⟨hg, fun r hr => by cases hr⟩
  | visit hrow hfree => exact ⟨hg, hk.visit hg hrow hfree⟩
  | pass => exact ⟨hg, hk⟩
  | commitEnded => exact ⟨settled_commitEnded hg, trivial⟩
  | rest => exact ⟨hg, hk⟩
  | _ => exact ⟨hg, trivial⟩

/-- A statement leaves what another transaction knows, unless it commits a change of who is in the room that the
other has counted and has no lock of. -/
theorem Statement.spares (h : Statement i s p p' s') (hg : Settled s.db) (hp : Knows i p s) (hq : Knows j q s)
    (hij : j ≠ i) (hapart : ∀ r ∈ p.changingRoom s.db, q.countingRoom ≠ some r) : Knows j q s' := by
  cases h with
  | insert => exact hq.of_frame (fun _ => rfl) (fun _ hl => hl) fun _ _ _ => rfl
  | delete => exact hq.of_frame (fun _ => rfl) (fun _ hl => hl) fun _ _ _ => rfl
  | lock hfree => exact hq.of_frame (fun _ => rfl) (fun _ hl => RowLocks.holds_take hfree hl) fun _ _ _ => rfl
  | visit hrow hfree => exact hq.of_frame (fun _ => rfl) (fun _ hl => RowLocks.holds_take hfree hl) fun _ _ _ => rfl
  | commitEnded =>
    exact hq.of_frame (roomExists_commitEnded _ _) (fun _ hl => RowLocks.holds_release hij hl) fun _ _ _ => rfl
  | @commit now w total =>
    refine hq.of_frame (roomExists_commit _ _ _) (fun _ hl => RowLocks.holds_release hij hl) fun r hr u => ?_
    change (w.apply now s.db).participates r u = _
    by_cases hc : w.changes s.db = true
    · refine Write.participates_apply_of_ne fun hwr => ?_
      subst hwr
      rcases hr with hl | hcounting
      · exact hij (RowLocks.holds_unique hl (hp.holds_of_changes hg.noStray hc))
      · exact hapart w.roomId (by simp [Progress.changingRoom, hc]) hcounting
    · exact Write.participates_apply_of_same (Bool.eq_false_iff.2 hc)
  | _ => exact hq

/-- Only the reaper ends rooms, and nobody is in those. -/
theorem Statement.endsEmpty (h : Statement i s p p' s') (hk : Knows i p s) : EndsEmpty s.db s'.db := by
  have hstill : EndsEmpty s.db s.db := by
    intro r row row' hrow hrow' hne he
    rw [hrow] at hrow'
    cases hrow'
    exact absurd he hne
  cases h with
  | @commit now w total =>
    intro r row row' hrow hrow' hne he
    rw [room_commit, hrow] at hrow'
    split at hrow'
    · cases hrow'
      exact absurd he hne
    · cases hrow'
      exact absurd he hne
  | @commitEnded now grace ended =>
    intro r row row' hrow hrow' hne he
    replace hrow' := (room_endListed now ended s.db r).symm.trans hrow'
    rw [hrow, Option.map_some] at hrow'
    by_cases hr : ended.contains r = true
    · exact (hk r (List.contains_iff_mem.1 hr)).2
    · rw [if_neg hr] at hrow'
      cases hrow'
      exact absurd he hne
  | _ => exact hstill

end Statement

/-! ## Runs -/

section Runs

variable {I : Type} [DecidableEq I]

/-- A commit that changes who is in a room finds no other recount of the room between its count and the room's row. -/
def CommitsApart (σ : Transactions I) : Event I Timestamp → Prop
  | .turn i => ∀ r ∈ (σ.calls i).changingRoom σ.store.db, ∀ j, (σ.calls j).countingRoom ≠ some r
  | .outside _ => True

instance [Fintype I] : ∀ (σ : Transactions I) (e : Event I Timestamp), Decidable (CommitsApart σ e)
  | σ, .turn i =>
    inferInstanceAs (Decidable (∀ r ∈ (σ.calls i).changingRoom σ.store.db, ∀ j, (σ.calls j).countingRoom ≠ some r))
  | _, .outside _ => .isTrue trivial

/-- What all transactions rely on, and what each of them knows; the locks keep them apart. -/
def OneCount : Transactions I → Prop := System.Outline (fun s => Settled s.db) Knows fun _ _ => False

theorem OneCount.step {σ : Transactions I} (h : OneCount σ) {e : Event I Timestamp} (hapart : CommitsApart σ e) :
    OneCount (transactionStep σ e) ∧ EndsEmpty σ.store.db (transactionStep σ e).store.db := by
  cases e with
  | outside now =>
    have hsettled : Settled (σ.store.tick now).db := ⟨h.shared.noStray, h.shared.counts⟩
    refine ⟨h.elsewhere hsettled fun i => ?_, fun r row row' hrow hrow' hne he => ?_⟩
    · exact (h.own i).of_frame (fun _ => rfl) (fun _ hl => hl) fun _ _ _ => rfl
    · cases hrow.symm.trans hrow'
      exact absurd he hne
  | turn i =>
    have hs := advance_statement i (σ.calls i) σ.store
    obtain ⟨hsettled, hknows⟩ := hs.keeps h.shared (h.own i)
    refine ⟨System.Outline.turn h hsettled hknows (fun j hj => ?_) False.elim, hs.endsEmpty (h.own i)⟩
    exact hs.spares h.shared (h.own i) (h.own j) hj fun r hr => hapart r hr j

/-- Over every schedule of any number of joins, leaves and reapers, from any database whose counts are right: where
every commit that changes who is in a room finds no other recount of it between its count and the room's row,
the counts are right in every state, and no room ends with a participant. -/
theorem counts_settle (db : Db) (transactions : I → Transaction) (es : List (Event I Timestamp)) (hf : NoStray db)
    (hc : CountsRight db) (hapart : Along transactionStep CommitsApart (beginTransactions db transactions) es) :
    Always transactionStep (fun σ => CountsRight σ.store.db) (beginTransactions db transactions) es ∧
      Along transactionStep (fun σ e => EndsEmpty σ.store.db (transactionStep σ e).store.db)
        (beginTransactions db transactions) es := by
  have h0 : OneCount (beginTransactions db transactions) := ⟨⟨hf, hc⟩, fun _ => trivial, fun _ _ => False.elim⟩
  have hstep : ∀ (σ : Transactions I) (e : Event I Timestamp), OneCount σ → CommitsApart σ e →
      OneCount (transactionStep σ e) ∧ EndsEmpty σ.store.db (transactionStep σ e).store.db :=
    fun _ _ h ha => OneCount.step h ha
  have hcounts : Always transactionStep OneCount (beginTransactions db transactions) es :=
    always_of_along (fun σ e h ha => (hstep σ e h ha).1) h0 hapart
  exact ⟨hcounts.mono fun σ hσ => hσ.shared.counts, along_of_along hstep h0 hapart⟩

end Runs

/-- One request at a time, the requests of a run that keeps the columns in line lead to such a database. -/
theorem settled_of_run {now : Timestamp} {reqs : List Request} (h : Along step KeepsCounts (Db.empty now) reqs) :
    Settled (run step (Db.empty now) reqs) := by
  have hline : CountsInLine (run step (Db.empty now) reqs) :=
    ((always_iff_along noStray_step (fun db req hf hi => countsInLine_step_iff db req hf hi) (noStray_empty now)
      (countsInLine_empty now)).2 h).last
  exact ⟨run_of_step noStray_step (noStray_empty now), fun r row hrow => (hline r row hrow).1⟩

/-- Two accounts, one of them alone in a room it has opened. -/
def onePlayground : List Request :=
  [.register (account ⟨1⟩ "ana"), .register (account ⟨2⟩ "ben"),
    .create ⟨10⟩ none ⟨1⟩ { name := "late", roomType := .text }]

theorem settled_onePlayground : Settled (run step (Db.empty 0) onePlayground) :=
  settled_of_run ⟨trivial, trivial, trivial, trivial⟩

/-- Who is about: one who joins, one who leaves, and the reaper. -/
inductive Passer where
  | joiner
  | leaver
  | reaper
  deriving DecidableEq, Repr

instance : Fintype Passer := ⟨{.joiner, .leaver, .reaper}, fun p => by cases p <;> decide⟩

/-- The other account joins, the owner leaves, and the reaper comes by. -/
def comeAndGo : Passer → Transaction
  | .joiner => .join ⟨10⟩ ⟨2⟩ .participant
  | .leaver => .leave ⟨10⟩ ⟨1⟩
  | .reaper => .reap (.seconds playgroundEmptyGraceSeconds)

/-- The join is over before the leave begins. -/
def joinThenLeave : List (Event Passer Timestamp) :=
  List.replicate 5 (.turn .joiner) ++ List.replicate 6 (.turn .leaver)

/-- The one leaves after the other has joined. -/
theorem counts_settle_in_turn :
    Always transactionStep (fun σ => CountsRight σ.store.db)
        (beginTransactions (run step (Db.empty 0) onePlayground) comeAndGo) joinThenLeave ∧
      Along transactionStep (fun σ e => EndsEmpty σ.store.db (transactionStep σ e).store.db)
        (beginTransactions (run step (Db.empty 0) onePlayground) comeAndGo) joinThenLeave :=
  counts_settle _ comeAndGo _ settled_onePlayground.noStray settled_onePlayground.counts (by decide +kernel)

/-- The join holds the room's row while the leave counts, and waits; four minutes later the reaper comes by, and is
about to commit. -/
def leaveWhileJoining : List (Event Passer Timestamp) :=
  [.turn .joiner, .turn .joiner, .turn .joiner, .turn .joiner, .turn .leaver, .turn .leaver, .turn .leaver, .turn .leaver,
    .turn .joiner, .turn .leaver, .turn .leaver, .outside (Duration.seconds 240), .turn .reaper, .turn .reaper, .turn .reaper]

/-- The leave has counted nobody, and so the room that one account is in is empty to the reaper, and ends. -/
theorem leave_loses_join :
    ¬ Always transactionStep (fun σ => CountsRight σ.store.db)
        (beginTransactions (run step (Db.empty 0) onePlayground) comeAndGo) leaveWhileJoining ∧
      ¬ Along transactionStep (fun σ e => EndsEmpty σ.store.db (transactionStep σ e).store.db)
        (beginTransactions (run step (Db.empty 0) onePlayground) comeAndGo) (leaveWhileJoining ++ [.turn .reaper]) ∧
      (∀ i, ((run transactionStep (beginTransactions (run step (Db.empty 0) onePlayground) comeAndGo)
        (leaveWhileJoining ++ [.turn .reaper])).calls i).isFinished = true) := by
  have hrow : ((run transactionStep (beginTransactions (run step (Db.empty 0) onePlayground) comeAndGo)
      leaveWhileJoining).store.db.room ⟨10⟩).map (fun row => (row.status, row.currentParticipants)) =
        some (.active, 0) := by decide +kernel
  have hrow' : ((run transactionStep (beginTransactions (run step (Db.empty 0) onePlayground) comeAndGo)
      (leaveWhileJoining ++ [.turn .reaper])).store.db.room ⟨10⟩).map (fun row => row.status) = some .ended := by
    decide +kernel
  have hcount : (run transactionStep (beginTransactions (run step (Db.empty 0) onePlayground) comeAndGo)
      leaveWhileJoining).store.db.participantCount ⟨10⟩ = 1 := by decide +kernel
  obtain ⟨row, hr, hcols⟩ := Option.map_eq_some_iff.1 hrow
  obtain ⟨row', hr', hended⟩ := Option.map_eq_some_iff.1 hrow'
  refine ⟨fun h => ?_, fun h => ?_, by decide +kernel⟩
  · have := h.last ⟨10⟩ row hr
    rw [hcount, (Prod.mk.inj hcols).2] at this
    cases this
  · rw [run_append] at hr'
    have hempty := (along_append.1 h).2.1 ⟨10⟩ row row' hr hr' (by rw [(Prod.mk.inj hcols).1]; decide) hended
    rw [hcount] at hempty
    cases hempty

end Genzh.Room
