/-
The conversation of two. A room is found by who takes part in it, and a room for two by asking for both: whoever else is
there is not looked for, and one account asks for itself twice. What is returned is a conversation of exactly the two
where the one of theirs that was updated last holds nobody else.
-/
import Genzh.Room.OpenRace

namespace Genzh.Room

open Genzh.Lib Genzh.Domain Genzh.Infrastructure Genzh.Community Genzh.Social

/-! ## The first of the greatest -/

section Foremost

variable {ρ β : Type*} [LinearOrder β] (m : ρ → β)

/-- The first of those that are greatest by a measure: the ones before it are less, and the ones behind it are not greater. -/
def Foremost (rs : List ρ) (r : ρ) : Prop :=
  ∃ xs ys, rs = xs ++ r :: ys ∧ (∀ x ∈ xs, m x < m r) ∧ ∀ y ∈ ys, m y ≤ m r

variable {m} {rs : List ρ} {r r' : ρ}

theorem foremost_cons : Foremost m (r' :: rs) r ↔ (r = r' ∧ ∀ y ∈ rs, m y ≤ m r') ∨ (Foremost m rs r ∧ m r' < m r) := by
  constructor
  · rintro ⟨_ | ⟨x, xs⟩, ys, hsplit, hbefore, hbehind⟩
    · obtain ⟨rfl, rfl⟩ := List.cons.inj hsplit
      exact .inl ⟨rfl, hbehind⟩
    · obtain ⟨rfl, rfl⟩ := List.cons.inj hsplit
      exact .inr ⟨⟨xs, ys, rfl, fun y hy => hbefore y (List.mem_cons_of_mem _ hy), hbehind⟩, hbefore r' List.mem_cons_self⟩
  · rintro (⟨rfl, hbehind⟩ | ⟨⟨xs, ys, rfl, hbefore, hbehind⟩, hlt⟩)
    · exact ⟨[], rs, rfl, fun x hx => absurd hx List.not_mem_nil, hbehind⟩
    · refine ⟨r' :: xs, ys, rfl, ?_, hbehind⟩
      rintro x (_ | ⟨_, hx⟩)
      · exact hlt
      · exact hbefore x hx

theorem Foremost.le (h : Foremost m rs r) (hr : r' ∈ rs) : m r' ≤ m r := by
  obtain ⟨xs, ys, rfl, hbefore, hbehind⟩ := h
  rcases List.mem_append.1 hr with hr | _ | ⟨_, hr⟩
  · exact (hbefore r' hr).le
  · exact le_refl _
  · exact hbehind r' hr

theorem firstBy_eq_some : Table.firstBy (fun x y => decide (m y < m x)) rs = some r ↔ Foremost m rs r := by
  induction rs generalizing r with
  | nil =>
    refine ⟨nofun, ?_⟩
    rintro ⟨xs, ys, hsplit, -⟩
    exact absurd hsplit.symm (by simp)
  | cons a rs ih =>
    rw [foremost_cons, Table.firstBy]
    rcases hfirst : Table.firstBy (fun x y => decide (m y < m x)) rs with _ | b
    · obtain rfl := Table.firstBy_eq_none.1 hfirst
      constructor
      · rintro ⟨⟩
        exact .inl ⟨rfl, fun y hy => absurd hy List.not_mem_nil⟩
      · rintro (⟨rfl, -⟩ | ⟨⟨xs, ys, hsplit, -⟩, -⟩)
        · rfl
        · exact absurd hsplit.symm (by simp)
    · have hb := ih.1 hfirst
      have honly : ∀ c, Foremost m rs c → c = b := fun c hc => Option.some.inj ((ih.2 hc).symm.trans hfirst)
      by_cases hlt : m a < m b
      · simp only [hlt, decide_true, if_true, Option.some.injEq]
        constructor
        · rintro rfl
          exact .inr ⟨hb, hlt⟩
        · rintro (⟨rfl, hbehind⟩ | ⟨hr, -⟩)
          · exact absurd (hbehind b (Table.firstBy_mem hfirst)) (not_le.2 hlt)
          · exact (honly r hr).symm
      · simp only [hlt, decide_false, Bool.false_eq_true, if_false, Option.some.injEq]
        constructor
        · rintro rfl
          exact .inl ⟨rfl, fun y hy => (hb.le hy).trans (not_lt.1 hlt)⟩
        · rintro (⟨rfl, -⟩ | ⟨hr, har⟩)
          · rfl
          · exact absurd (honly r hr ▸ har) hlt

end Foremost

/-! ## Opening a conversation -/

/-- The conversations that both take part in, as the lookup goes through them. -/
def shared (db : Db) (a b : UserId) : List RoomRow :=
  db.rooms.select fun r => isConversation r && db.participates r.id a && db.participates r.id b

/-- A conversation of exactly these two, or of the one. -/
def OfExactly (db : Db) (room : Room) (a b : UserId) : Prop :=
  room.category = directCategory ∧ room.communityId = none ∧ ∀ u, db.participates room.id u = true ↔ u = a ∨ u = b

/-- What opening the conversation of two accounts returns is a conversation of exactly these two. -/
def OpensTheirs (db : Db) : Request → Prop
  | .openDirect id a b name handle => db.userExists b = true → ∀ room isNew db',
    (openDirect id a b name handle).exec db = (.ok (room, isNew), db') → OfExactly db' room a b
  | _ => True

/-- Where neither blocks the other, the first of the conversations both take part in, of those that were updated last, holds
nobody else. -/
def HoldsNobodyElse (db : Db) : Request → Prop
  | .openDirect _ a b _ _ => db.userExists b = true → a = b ∨ blockedEitherWay db a b = false →
    ∀ row, Foremost (fun r : RoomRow => r.updatedAt) (shared db a b) row → ∀ u, db.participates row.id u = true → u = a ∨ u = b
  | _ => True

section Opening

variable {db db' : Db} {a b : UserId} {id : RoomId} {name handle : String} {room : Room} {isNew : Bool}

theorem findDirectRoom_eq_some : findDirectRoom db a b = some room ↔
    ∃ row, Foremost (fun r : RoomRow => r.updatedAt) (shared db a b) row ∧ row.toRoom = room := by
  unfold findDirectRoom Table.selectFirst
  rw [Option.map_eq_some_iff]
  exact exists_congr fun row => and_congr_left' (firstBy_eq_some (m := fun r : RoomRow => r.updatedAt))

/-- A row that was found is that of a conversation both take part in. -/
theorem shared_of_foremost {row : RoomRow} (h : Foremost (fun r : RoomRow => r.updatedAt) (shared db a b) row) :
    (row.category = directCategory ∧ row.communityId = none) ∧ db.participates row.id a = true ∧ db.participates row.id b = true := by
  have hmem : row ∈ shared db a b := by
    obtain ⟨xs, ys, hsplit, -⟩ := h
    rw [hsplit]
    exact List.mem_append_right _ List.mem_cons_self
  have hp := (Table.mem_select.1 hmem).2
  rw [Bool.and_eq_true, Bool.and_eq_true] at hp
  exact ⟨isConversation_iff.1 hp.1.1, hp.1.2, hp.2⟩

/-- A new conversation holds its two accounts, and nobody else. -/
theorem guests_direct (hb : db.userExists b = true) (u : UserId) : u ∈ guests db a (directInput b name handle) ↔ u = a ∨ u = b := by
  unfold guests invited
  rw [List.mem_dedup, List.mem_cons, List.mem_filter, List.mem_filter]
  simp only [directInput, Option.getD_some, List.mem_singleton, decide_eq_true_eq]
  constructor
  · rintro (rfl | ⟨⟨rfl, -⟩, -⟩)
    · exact .inl rfl
    · exact .inr rfl
  · rintro (rfl | rfl)
    · exact .inl rfl
    · by_cases hu : u = a
      · exact .inl hu
      · exact .inr ⟨⟨rfl, hu⟩, hb⟩

theorem participates_of_core (h : core db = core db') (r : RoomId) (u : UserId) : db.participates r u = db'.participates r u := by
  change (core db).participates r u = (core db').participates r u
  rw [h]

/-- What a call that returns found or made. -/
theorem openDirect_ok (h : (openDirect id a b name handle).exec db = (.ok (room, isNew), db')) :
    (a = b ∨ blockedEitherWay db a b = false) ∧
      ((findDirectRoom db a b = some room ∧ db' = db) ∨
      (findDirectRoom db a b = none ∧ ∃ candidate, created db id none a (directInput b name handle) = some candidate ∧
        room = { candidate with createdAt := db.now, updatedAt := db.now } ∧
        core db' = core (opened a (directInput b name handle) candidate db))) := by
  unfold openDirect at h
  generalize directInput b name handle = input at h ⊢
  rw [Prog.exec_query_bind] at h
  rcases hreach : ensureCanReach db a b with e | ⟨⟩
  · rw [hreach] at h
    cases h
  · refine ⟨ensureCanReach_ok.1 hreach, ?_⟩
    rw [hreach] at h
    simp only [Prog.exec_read_bind] at h
    rcases hfind : findDirectRoom db a b with _ | found
    · rw [hfind] at h
      rcases exec_create id none a input db with ⟨candidate, db₁, hc, hcreate, hcore⟩ | ⟨-, e, hcreate⟩
      · rw [Prog.exec_bind_ok hcreate] at h
        cases h
        exact .inr ⟨rfl, candidate, hc, rfl, hcore⟩
      · rw [Prog.exec_bind_error hcreate] at h
        cases h
    · rw [hfind] at h
      cases h
      exact .inl ⟨rfl, rfl⟩

/-- A found conversation is returned as it is. -/
theorem openDirect_found (hreach : a = b ∨ blockedEitherWay db a b = false) (hfind : findDirectRoom db a b = some room) :
    (openDirect id a b name handle).exec db = (.ok (room, false), db) := by
  unfold openDirect
  rw [Prog.exec_query_bind, ensureCanReach_ok.2 hreach]
  simp only [Prog.exec_read_bind, hfind]
  rfl

/-- A new conversation is one of exactly the two. -/
theorem ofExactly_created {candidate : Room} (hf : NoStray db) (hb : db.userExists b = true)
    (hc : Created db id none a (directInput b name handle) candidate)
    (hcore : core db' = core (opened a (directInput b name handle) candidate db)) :
    OfExactly db' { candidate with createdAt := db.now, updatedAt := db.now } a b := by
  refine ⟨?_, hc.community, fun u => ?_⟩
  · change candidate.category = directCategory
    rw [hc.category]
    rfl
  · change db'.participates candidate.id u = true ↔ u = a ∨ u = b
    rw [participates_of_core hcore, participates_opened hc, hc.id_eq, nobody_of_fresh hf hc.fresh, guests_direct hb]
    simp

theorem opensTheirs_iff (hf : NoStray db) (req : Request) : OpensTheirs db req ↔ HoldsNobodyElse db req := by
  cases req with
  | openDirect id a b name handle =>
    constructor
    · intro h hb hreach row hrow u hu
      have hfound := findDirectRoom_eq_some.2 ⟨row, hrow, rfl⟩
      exact ((h hb _ _ _ (openDirect_found hreach hfound)).2.2 u).1 hu
    · intro h hb room isNew db' hopen
      obtain ⟨hreach, ⟨hfound, rfl⟩ | ⟨-, candidate, hc, rfl, hcore⟩⟩ := openDirect_ok hopen
      · obtain ⟨row, hrow, rfl⟩ := findDirectRoom_eq_some.1 hfound
        obtain ⟨⟨hcategory, hcommunity⟩, ha, hb'⟩ := shared_of_foremost hrow
        refine ⟨hcategory, hcommunity, fun u => ⟨h hb hreach row hrow u, ?_⟩⟩
        rintro (rfl | rfl)
        · exact ha
        · exact hb'
      · exact ofExactly_created hf hb (created_some hc) hcore
  | _ => exact Iff.rfl

end Opening

/-! ## Runs -/

/-- Over every run: what is opened is a conversation of exactly the two who open it, exactly when each time the one that is
found, if there is one, holds nobody else. -/
theorem opens_theirs_iff (now : Timestamp) (reqs : List Request) :
    Along step OpensTheirs (Db.empty now) reqs ↔ Along step HoldsNobodyElse (Db.empty now) reqs :=
  along_congr noStray_step (fun _ req hf => opensTheirs_iff hf req) (noStray_empty now)

/-- Two accounts with a conversation, one of which opens the one with itself, and is given theirs. -/
theorem own_conversation_shared :
    ¬ Along step OpensTheirs (Db.empty 0)
      [.register (account ⟨1⟩ "ana"), .register (account ⟨2⟩ "ben"), .openDirect ⟨10⟩ ⟨1⟩ ⟨2⟩ "Ben" "ben",
        .openDirect ⟨11⟩ ⟨1⟩ ⟨1⟩ "Ana" "ana"] := by
  rintro ⟨-, -, -, hopens, -⟩
  have hfound : (findDirectRoom (run step (Db.empty 0)
      [.register (account ⟨1⟩ "ana"), .register (account ⟨2⟩ "ben"), .openDirect ⟨10⟩ ⟨1⟩ ⟨2⟩ "Ben" "ben"]) ⟨1⟩ ⟨1⟩).any
      (fun room => (run step (Db.empty 0) [.register (account ⟨1⟩ "ana"), .register (account ⟨2⟩ "ben"),
        .openDirect ⟨10⟩ ⟨1⟩ ⟨2⟩ "Ben" "ben"]).participates room.id ⟨2⟩) = true := by decide +kernel
  obtain ⟨room, hroom, hben⟩ := (Option.any_eq_true _ _).1 hfound
  have htheirs := hopens (by decide +kernel) room false _ (openDirect_found (.inl rfl) hroom)
  have hone := (htheirs.2.2 ⟨2⟩).1 hben
  revert hone
  decide

end Genzh.Room
