/-
The identities of an anonymous room. A join commits the participant and then mints the identity, whose
alias is drawn from a finite space under a uniqueness constraint: where the draw falls on somebody else's
alias the join fails, and the participant it added stays.
-/
import Genzh.Room.Ended

namespace Genzh.Room

open Genzh.Lib Genzh.Domain Genzh.Infrastructure

/-- The constraint `room_anon_unique_alias`, for one room. -/
def UniqueAliases (db : Db) (r : RoomId) : Prop :=
  ∀ i ∈ db.roomAnonymousIdentities.rows, ∀ j ∈ db.roomAnonymousIdentities.rows, i.roomId = r → j.roomId = r →
    i.aliasName = j.aliasName → i = j

/-- The database after a join, whatever came of it. -/
def joined (r : RoomId) (db : Db) (u : UserId) : Db := ((join r u).exec db).2

/-- A join gives whom it adds an identity, keeps the aliases apart, and adds nobody if it fails. -/
structure JoinIdentifies (r : RoomId) (db : Db) (u : UserId) : Prop where
  identified : db.participates r u = false → (joined r db u).participates r u = true →
    ((joined r db u).roomAnonymousIdentities.find (r, u)).isSome = true
  distinct : UniqueAliases (joined r db u) r
  failed : ((join r u).exec db).1.isOk = false → ∀ v, (joined r db u).participates r v = db.participates r v

/-- The alias a newcomer draws is their own already, or nobody's. -/
def Uncontested (r : RoomId) (db : Db) (u : UserId) : Prop :=
  (visibleAccess db r u).isOk = true → seatable db r u = true → db.participates r u = false →
    (db.roomAnonymousIdentities.find (r, u)).isSome = true ∨
      ∀ i ∈ db.roomAnonymousIdentities.rows, i.roomId = r → i.aliasName ≠ (generateAnonymousIdentity r u).1

/-- A room whose joins mint identities. -/
def IsAnonymous (db : Db) (r : RoomId) : Prop := (db.room r).any (·.isAnonymous) = true

instance (db : Db) (r : RoomId) : Decidable (IsAnonymous db r) :=
  inferInstanceAs (Decidable ((db.room r).any (·.isAnonymous) = true))

instance (db : Db) (r : RoomId) : Decidable (UniqueAliases db r) :=
  inferInstanceAs (Decidable (∀ i ∈ db.roomAnonymousIdentities.rows, ∀ j ∈ db.roomAnonymousIdentities.rows,
    i.roomId = r → j.roomId = r → i.aliasName = j.aliasName → i = j))

instance (r : RoomId) (db : Db) (u : UserId) : Decidable (Uncontested r db u) :=
  inferInstanceAs (Decidable ((visibleAccess db r u).isOk = true → seatable db r u = true →
    db.participates r u = false → (db.roomAnonymousIdentities.find (r, u)).isSome = true ∨
      ∀ i ∈ db.roomAnonymousIdentities.rows, i.roomId = r → i.aliasName ≠ (generateAnonymousIdentity r u).1))

variable {db : Db} {r : RoomId} {u : UserId}

/-! ## Minting -/

/-- The identity that is minted for a user in a room. -/
def mintedIdentity (db : Db) (r : RoomId) (u : UserId) : RoomAnonymousIdentity where
  roomId := r
  userId := u
  aliasName := (generateAnonymousIdentity r u).1
  avatarSeed := (generateAnonymousIdentity r u).2.1
  accentColor := (generateAnonymousIdentity r u).2.2
  createdAt := db.now

/-- The identities with the user's own among them. -/
def identified (r : RoomId) (u : UserId) (db : Db) : Db :=
  if (db.roomAnonymousIdentities.find (r, u)).isSome then db
  else { db with roomAnonymousIdentities := db.roomAnonymousIdentities.insert (mintedIdentity db r u) }

theorem exec_getOrCreateAnonymousIdentity (r : RoomId) (u : UserId) (db : Db) :
    (identifiable db r u = true ∧
      ∃ identity, (getOrCreateAnonymousIdentity r u).exec db = (.ok identity, identified r u db)) ∨
    (identifiable db r u = false ∧ ∃ e, (getOrCreateAnonymousIdentity r u).exec db = (.error e, db)) := by
  unfold getOrCreateAnonymousIdentity identifiable identified
  rw [Prog.exec_read_bind]
  rcases db.roomAnonymousIdentities.find (r, u) with _ | identity
  · simp only [SqlM.exec_check_bind, Option.isSome_none, Bool.false_or, Bool.false_eq_true, if_false]
    rcases halias : db.roomAnonymousIdentities.rows.all fun i =>
      i.roomId ≠ r || i.aliasName ≠ (generateAnonymousIdentity r u).1
    · exact .inr ⟨rfl, _, rfl⟩
    rcases hrows : db.roomExists r && db.userExists u
    · exact .inr ⟨rfl, _, rfl⟩
    · exact .inl ⟨rfl, _, rfl⟩
  · exact .inl ⟨rfl, identity, rfl⟩

/-! ## The identities after a join -/

section Identified

theorem find_identified (r : RoomId) (u : UserId) (db : Db) :
    ((identified r u db).roomAnonymousIdentities.find (r, u)).isSome = true := by
  unfold identified
  rcases h : (db.roomAnonymousIdentities.find (r, u)).isSome
  · rw [if_neg Bool.false_ne_true]
    have hkey : key (mintedIdentity db r u) = (r, u) := rfl
    simp only [Table.find_insert]
    rw [if_pos hkey, Option.isSome_or]
    exact Bool.or_true _
  · rwa [if_pos rfl]

/-- A minted identity is the user's own already, or its alias was free. -/
theorem uniqueAliases_identified (h : UniqueAliases db r) (hid : identifiable db r u = true) :
    UniqueAliases (identified r u db) r := by
  unfold identified
  rcases hfind : (db.roomAnonymousIdentities.find (r, u)).isSome
  · rw [if_neg Bool.false_ne_true]
    unfold identifiable at hid
    rw [hfind, Bool.false_or, Bool.and_eq_true] at hid
    have hfree : ∀ i ∈ db.roomAnonymousIdentities.rows, i.roomId = r →
        i.aliasName ≠ (mintedIdentity db r u).aliasName := by
      intro i hi hr
      change i.aliasName ≠ (generateAnonymousIdentity r u).1
      simpa [hr] using List.all_eq_true.1 hid.1 i hi
    intro i hi j hj hir hjr hname
    rcases Table.mem_insert.1 hi with hi | ⟨rfl, -⟩
    · rcases Table.mem_insert.1 hj with hj | ⟨rfl, -⟩
      · exact h i hi j hj hir hjr hname
      · exact absurd hname (hfree i hi hir)
    · rcases Table.mem_insert.1 hj with hj | ⟨rfl, -⟩
      · exact absurd hname.symm (hfree j hj hjr)
      · rfl
  · rwa [if_pos rfl]

@[simp] theorem identities_seated (role : RoomParticipantRole) :
    (seated r u role db).roomAnonymousIdentities = db.roomAnonymousIdentities := by
  unfold seated
  split <;> rfl

@[simp] theorem participants_identified : (identified r u db).roomParticipants = db.roomParticipants := by
  unfold identified
  split <;> rfl

@[simp] theorem room_identified (r' : RoomId) : (identified r u db).room r' = db.room r' := by
  unfold identified
  split <;> rfl

theorem uniqueAliases_seated (role : RoomParticipantRole) : UniqueAliases (seated r u role db) r ↔ UniqueAliases db r := by
  unfold UniqueAliases
  rw [identities_seated]

theorem isAnonymous_seated (role : RoomParticipantRole) (h : IsAnonymous db r) : IsAnonymous (seated r u role db) r := by
  unfold IsAnonymous at h ⊢
  rw [room_seated]
  split
  · obtain ⟨row, hrow, hanonymous⟩ := (Option.any_eq_true _ _).1 h
    rw [hrow]
    exact hanonymous
  · exact h

end Identified

/-! ## One join -/

/-- What came of a join: it was refused, or its participant was committed, and then the identity was minted or not. -/
inductive JoinOutcome (r : RoomId) (db : Db) (u : UserId) : Prop where
  | refused (hrefused : (visibleAccess db r u).isOk = false ∨ seatable db r u = false)
      (hresult : ((join r u).exec db).1.isOk = false) (hstate : joined r db u = db)
  | joined (role : RoomParticipantRole) (hvisible : (visibleAccess db r u).isOk = true) (hseatable : seatable db r u = true)
      (hidentifiable : identifiable db r u = true) (hresult : ((join r u).exec db).1.isOk = true)
      (hstate : joined r db u = identified r u (seated r u role db))
  | stranded (role : RoomParticipantRole) (hvisible : (visibleAccess db r u).isOk = true) (hseatable : seatable db r u = true)
      (hidentifiable : identifiable db r u = false) (hresult : ((join r u).exec db).1.isOk = false)
      (hstate : joined r db u = seated r u role db)

theorem joinOutcome (hanonymous : IsAnonymous db r) (u : UserId) : JoinOutcome r db u := by
  unfold IsAnonymous at hanonymous
  obtain ⟨row, hrow, hrowAnonymous⟩ := (Option.any_eq_true _ _).1 hanonymous
  rcases hvisible : visibleAccess db r u with e | a
  · have hexec : (join r u).exec db = (.error e, db) := by
      unfold join
      rw [Prog.exec_query_bind, hvisible]
    exact .refused (.inl (by rw [hvisible]; rfl)) (by rw [hexec]; rfl) (by rw [joined, hexec])
  obtain ⟨row', hrow', hroom⟩ := access_room (visibleAccess_ok.1 hvisible).1
  obtain rfl := Option.some.inj (hrow.symm.trans hrow')
  have hanonymous : a.room.isAnonymous = true := by rw [hroom, hrowAnonymous]
  have hok : (visibleAccess db r u).isOk = true := by rw [hvisible]; rfl
  generalize hrole : (if a.room.ownerId = some u then RoomParticipantRole.owner else .participant) = role
  have hjoin : (join r u).exec db = ((do
      let _ ← joinRoom r u role
      let identity ← joinIdentity a.room r u
      let updated ← Prog.read fun db => db.room r
      pure ((updated.map (·.toRoom)).getD a.room, identity) : SqlM (Room × Option RoomAnonymousIdentity))).exec db := by
    unfold join
    rw [Prog.exec_query_bind, hvisible]
    simp only [hrole]
  have hplace := exec_joinRoom r u role db
  rcases hseatable : seatable db r u
  · rw [hseatable] at hplace
    have hexec : (join r u).exec db = (.error (.repository .foreignKey), seated r u role db) := by
      rw [hjoin, Prog.exec_bind_error hplace]
    have hsame : seated r u role db = db := if_neg (by rw [hseatable]; exact Bool.false_ne_true)
    exact .refused (.inr hseatable) (by rw [hexec]; rfl) (by rw [joined, hexec, hsame])
  · rw [hseatable] at hplace
    have hmint : joinIdentity a.room r u = (do
        let identity ← getOrCreateAnonymousIdentity r u
        pure (some identity)) := if_pos hanonymous
    rcases exec_getOrCreateAnonymousIdentity r u (seated r u role db) with
      ⟨hidentifiable, identity, hget⟩ | ⟨hidentifiable, e, hget⟩
    · rw [identifiable_seated] at hidentifiable
      have hidentity : (joinIdentity a.room r u).exec (seated r u role db) =
          (.ok (some identity), identified r u (seated r u role db)) := by
        rw [hmint, Prog.exec_bind_ok hget, Prog.exec_pure]
      have hexec := hjoin.trans ((Prog.exec_bind_ok hplace).trans (Prog.exec_bind_ok hidentity))
      exact .joined role hok hseatable hidentifiable (by rw [hexec]; rfl) (by rw [joined, hexec]; rfl)
    · rw [identifiable_seated] at hidentifiable
      have hidentity : (joinIdentity a.room r u).exec (seated r u role db) = (.error e, seated r u role db) := by
        rw [hmint, Prog.exec_bind_error hget]
      have hexec := hjoin.trans ((Prog.exec_bind_ok hplace).trans (Prog.exec_bind_error hidentity))
      exact .stranded role hok hseatable hidentifiable (by rw [hexec]; rfl) (by rw [joined, hexec])

/-! ## Every join -/

theorem isAnonymous_joined (h : IsAnonymous db r) (u : UserId) : IsAnonymous (joined r db u) r := by
  cases joinOutcome h u with
  | refused _ _ hstate => rwa [hstate]
  | joined role _ _ _ _ hstate =>
    rw [hstate]
    unfold IsAnonymous
    rw [room_identified]
    exact isAnonymous_seated role h
  | stranded role _ _ _ _ hstate =>
    rw [hstate]
    exact isAnonymous_seated role h

/-- The constraint holds after a join, whatever came of it. -/
theorem uniqueAliases_joined (h : IsAnonymous db r) (hunique : UniqueAliases db r) (u : UserId) :
    UniqueAliases (joined r db u) r := by
  cases joinOutcome h u with
  | refused _ _ hstate => rwa [hstate]
  | joined role _ _ hidentifiable _ hstate =>
    rw [hstate]
    refine uniqueAliases_identified ((uniqueAliases_seated role).2 hunique) ?_
    rw [identifiable_seated, hidentifiable]
  | stranded role _ _ _ _ hstate =>
    rw [hstate]
    exact (uniqueAliases_seated role).2 hunique

/-- A newcomer with a place to take is identified exactly if their alias is uncontested. -/
theorem identifiable_newcomer (hseatable : seatable db r u = true) (hnew : db.participates r u = false) :
    identifiable db r u = true ↔ (db.roomAnonymousIdentities.find (r, u)).isSome = true ∨
      ∀ i ∈ db.roomAnonymousIdentities.rows, i.roomId = r → i.aliasName ≠ (generateAnonymousIdentity r u).1 := by
  have hrows : (db.roomExists r && db.userExists u) = true := by
    unfold seatable at hseatable
    rwa [hnew, Bool.false_or] at hseatable
  unfold identifiable
  rw [hrows, Bool.and_true, Bool.or_eq_true, List.all_eq_true]
  refine or_congr_right (forall₂_congr fun i _ => ?_)
  rw [Bool.or_eq_true, decide_eq_true_eq, decide_eq_true_eq, ← imp_iff_not_or]

/-- In an anonymous room a join does what it should exactly if nobody else has the alias a newcomer draws. -/
theorem joinIdentifies_iff (hanonymous : IsAnonymous db r) (hunique : UniqueAliases db r) (u : UserId) :
    JoinIdentifies r db u ↔ Uncontested r db u := by
  have hadded : ∀ role, seatable db r u = true → (seated r u role db).participates r u = true := by
    intro role hseatable
    rw [participates_seated]
    simp [hseatable]
  constructor
  · intro h hvisible hseatable hnew
    cases joinOutcome hanonymous u with
    | refused hrefused _ _ =>
      rw [hvisible, hseatable] at hrefused
      simp at hrefused
    | joined _ _ _ hidentifiable _ _ => exact (identifiable_newcomer hseatable hnew).1 hidentifiable
    | stranded role _ _ _ hresult hstate =>
      have hkept := h.failed hresult u
      rw [hstate, hadded role hseatable, hnew] at hkept
      cases hkept
  · intro h
    cases joinOutcome hanonymous u with
    | refused _ _ hstate =>
      refine ⟨fun hnew hafter => ?_, uniqueAliases_joined hanonymous hunique u, fun _ v => by rw [hstate]⟩
      rw [hstate, hnew] at hafter
      cases hafter
    | joined role _ _ _ hresult hstate =>
      refine ⟨fun _ _ => ?_, uniqueAliases_joined hanonymous hunique u, fun hfailed => ?_⟩
      · rw [hstate]
        exact find_identified r u _
      · rw [hresult] at hfailed
        cases hfailed
    | stranded role hvisible hseatable hidentifiable _ hstate =>
      -- an alias that is contested is not drawn by a newcomer, so the user had a place before
      have hpresent : db.participates r u = true := by
        rcases hnew : db.participates r u
        · rw [(identifiable_newcomer hseatable hnew).2 (h hvisible hseatable hnew)] at hidentifiable
          cases hidentifiable
        · rfl
      refine ⟨fun hnew => ?_, uniqueAliases_joined hanonymous hunique u, fun _ v => ?_⟩
      · rw [hpresent] at hnew
        cases hnew
      · rw [hstate, participates_seated]
        by_cases hv : u = v
        · rw [← hv, hpresent, Bool.true_or]
        · simp [hv]

/-- In any order of joins, each does what it should exactly if each newcomer draws an alias that nobody else has. -/
theorem joins_identify_iff (hanonymous : IsAnonymous db r) (hunique : UniqueAliases db r) (us : List UserId) :
    Along (joined r) (JoinIdentifies r) db us ↔ Along (joined r) (Uncontested r) db us := by
  refine along_congr (J := fun db => IsAnonymous db r ∧ UniqueAliases db r) (fun db u hj => ?_) (fun db u hj => ?_)
    ⟨hanonymous, hunique⟩
  · exact ⟨isAnonymous_joined hj.1 u, uniqueAliases_joined hj.1 hj.2 u⟩
  · exact joinIdentifies_iff hj.1 hj.2 u

/-- An anonymous room, and three accounts to join it. -/
def masquerade : Db :=
  run step (Db.empty 0)
    [.register (account ⟨2⟩ "ana"), .register (account ⟨12⟩ "ben"), .register (account ⟨13⟩ "cai"),
      .register (account ⟨16⟩ "dee"), .create ⟨10⟩ none ⟨2⟩ { name := "masks", roomType := .text, isAnonymous := true }]

theorem two_joins_identify : Along (joined ⟨10⟩) (JoinIdentifies ⟨10⟩) masquerade [⟨12⟩, ⟨13⟩] :=
  (joins_identify_iff (by decide +kernel) (by decide +kernel) [⟨12⟩, ⟨13⟩]).2 (by decide +kernel)

/-- Two users draw one alias: the second is in the room without an identity, though the join failed. -/
theorem not_joins_identify :
    ¬∀ (db : Db) (r : RoomId) (us : List UserId), IsAnonymous db r → UniqueAliases db r → us.Nodup →
      Along (joined r) (JoinIdentifies r) db us := by
  intro h
  have hjoins := h masquerade ⟨10⟩ [⟨12⟩, ⟨16⟩] (by decide +kernel) (by decide +kernel) (by decide +kernel)
  have hkept := hjoins.2.1.failed (by decide +kernel) ⟨16⟩
  have hadded : (joined ⟨10⟩ (joined ⟨10⟩ masquerade ⟨12⟩) ⟨16⟩).participates ⟨10⟩ ⟨16⟩ = true := by decide +kernel
  have hbefore : (joined ⟨10⟩ masquerade ⟨12⟩).participates ⟨10⟩ ⟨16⟩ = false := by decide +kernel
  rw [hadded, hbefore] at hkept
  cases hkept

end Genzh.Room
