/-
Emoji that are added, renamed and removed at the same time, one statement of one call after the other. What an
emoji is checked against before it is added, how many its community holds, is a statement of its own; the names are
an index of the insertion itself.
-/
import Genzh.Community.Emoji
import Genzh.Community.Resolution
import Genzh.Lib.Interleaving

namespace Genzh.Community

open Genzh.Lib Genzh.Domain Genzh.Infrastructure

inductive EmojiRequest where
  /-- The id is the one that is drawn for the emoji. -/
  | create (id : EmojiId) (input : CreateEmoji)
  | rename (id : EmojiId) (name : String)
  | delete (id : EmojiId)
  deriving DecidableEq, Repr

/-- What an actor asks for in a community. -/
structure EmojiOperation where
  communityId : CommunityId
  actorId : UserId
  request : EmojiRequest
  deriving DecidableEq, Repr

/-- The operation of the service. A deletion returns nothing. -/
def EmojiOperation.perform (toLowercase : String → String) (op : EmojiOperation) : EmojiM (Option CustomEmoji) :=
  match op.request with
  | .create id input => do
    let e ← createEmoji toLowercase op.communityId op.actorId id input
    pure (some e)
  | .rename id name => do
    let e ← renameEmoji toLowercase op.communityId id op.actorId name
    pure (some e)
  | .delete id => do
    deleteEmoji op.communityId id op.actorId
    pure none

/-- How far a call has come. -/
inductive EmojiCall where
  /-- The standing of the actor is being resolved. -/
  | resolving (op : EmojiOperation) (r : Resolution)
  /-- The emoji of the community are counted next. -/
  | counting (c : CommunityId) (actor : UserId) (id : EmojiId) (name imageUrl : String) (isAnimated : Bool)
  | inserting (candidate : CustomEmoji)
  | naming (c : CommunityId) (id : EmojiId) (name : String)
  | deleting (c : CommunityId) (id : EmojiId)
  | finished (outcome : Except ServiceError (Option CustomEmoji))
  deriving DecidableEq, Repr

namespace EmojiCall

section Advance

variable (toLowercase : String → String)

/-- What follows once the standing of the actor is known. -/
def authorised (op : EmojiOperation) (context : MemberContext) : EmojiCall :=
  match context.require .manageCommunity with
  | .error e => .finished (.error e)
  | .ok _ =>
    match op.request with
    | .create id input =>
      match newEmoji toLowercase input with
      | .error e => .finished (.error e)
      | .ok (name, imageUrl) => .counting op.communityId op.actorId id name imageUrl input.isAnimated
    | .rename id name =>
      match liftDomain (Messaging.validateEmojiName toLowercase name) with
      | .error e => .finished (.error e)
      | .ok name => .naming op.communityId id name
    | .delete id => .deleting op.communityId id

/-- The next statement of a call, and what it computes up to the one after. -/
def advance : EmojiCall → EmojiDb → EmojiCall × EmojiDb
  | .resolving op r, db =>
    match r.read op.communityId op.actorId db.toDb with
    | .inl r' => (.resolving op r', db)
    | .inr (.error e) => (.finished (.error e), db)
    | .inr (.ok context) => (authorised toLowercase op context, db)
  | .counting c actor id name imageUrl isAnimated, db =>
    match emojiRoom (db.count c) with
    | .error e => (.finished (.error e), db)
    | .ok _ =>
      (.inserting { id, communityId := c, name, imageUrl, isAnimated, createdBy := some actor, createdAt := db.now }, db)
  | .inserting candidate, db =>
    match (insertEmojiRow candidate).exec db with
    | (.ok created, db') => (.finished (.ok (some created)), db')
    | (.error e, db') => (.finished (.error (conflict e)), db')
  | .naming c id name, db =>
    match (renameEmojiRow c id name).exec db with
    | (.ok (some renamed), db') => (.finished (.ok (some renamed)), db')
    | (.ok none, db') => (.finished (.error (.notFound "emoji")), db')
    | (.error e, db') => (.finished (.error (conflict e)), db')
  | .deleting c id, db =>
    match (deleteEmojiRow c id).exec db with
    | (.ok removed, db') => (.finished (if removed then .ok none else .error (.notFound "emoji")), db')
    | (.error e, db') => (.finished (.error (.repository e)), db')
  | .finished outcome, db => (.finished outcome, db)

variable {I : Type} [DecidableEq I]

abbrev EmojiCalls (I : Type) := System EmojiDb I EmojiCall

/-- One event of the calls on the database: the turn of one, or the rest of the database becomes another. -/
def step : EmojiCalls I → Event I Db → EmojiCalls I :=
  System.step (fun _ => advance toLowercase) fun rest db => db.become rest

/-- The calls of these operations, none of which has begun. -/
def begin (db : EmojiDb) (operations : I → EmojiOperation) : EmojiCalls I :=
  { store := db, calls := fun i => .resolving (operations i) .begun }

end Advance

/-! ## A call by itself -/

section Alone

variable {toLowercase : String → String} {I : Type} {i : I} {db : EmojiDb}

/-- By itself, the call comes to its end with this outcome and this database. -/
abbrev Ends (toLowercase : String → String) (i : I) (call : EmojiCall) (db : EmojiDb)
    (r : Except ServiceError (Option CustomEmoji) × EmojiDb) : Prop :=
  System.Reaches (fun _ : I => advance toLowercase) i call db (.finished r.1) r.2

/-- An operation from where the actor is known to manage the community. -/
def permitted (toLowercase : String → String) (op : EmojiOperation) : EmojiM (Option CustomEmoji) :=
  match op.request with
  | .create id input => do
    let (name, imageUrl) ← Prog.lift (newEmoji toLowercase input)
    Prog.query fun db => emojiRoom (db.count op.communityId)
    let now ← Prog.read fun db => db.now
    let e ← Prog.mapError conflict (insertEmojiRow {
      id, communityId := op.communityId, name, imageUrl, isAnimated := input.isAnimated, createdBy := some op.actorId,
      createdAt := now })
    pure (some e)
  | .rename id name => do
    let name ← Prog.lift (liftDomain (Messaging.validateEmojiName toLowercase name))
    let renamed ← Prog.mapError conflict (renameEmojiRow op.communityId id name)
    match renamed with
    | some e => pure (some e)
    | none => Prog.fail (.notFound "emoji")
  | .delete id => do
    let removed ← Prog.mapError .repository (deleteEmojiRow op.communityId id)
    Prog.ensure removed (.notFound "emoji")
    pure none

theorem perform_eq (op : EmojiOperation) : op.perform toLowercase =
    Prog.query (fun db => managesCommunity db op.communityId op.actorId) >>= fun _ => permitted toLowercase op := by
  obtain ⟨c, actor, request⟩ := op
  cases request with
  | create id input => simp only [EmojiOperation.perform, createEmoji, bind_assoc]; rfl
  | rename id name =>
    simp only [EmojiOperation.perform, renameEmoji, bind_assoc]
    refine bind_congr fun _ => bind_congr fun name => bind_congr fun renamed => ?_
    cases renamed <;> rfl
  | delete id => simp only [EmojiOperation.perform, deleteEmoji, bind_assoc]; rfl

theorem ends_permitted (op : EmojiOperation) (context : MemberContext) (h : context.require .manageCommunity = .ok ()) :
    Ends toLowercase i (authorised toLowercase op context) db ((permitted toLowercase op).exec db) := by
  obtain ⟨c, actor, request⟩ := op
  unfold authorised permitted
  simp only [h]
  cases request with
  | create id input =>
    simp only [Prog.exec_lift_bind]
    rcases newEmoji toLowercase input with e | ⟨name, imageUrl⟩
    · exact .refl
    simp only [Prog.exec_query_bind]
    rcases hroom : emojiRoom (db.count c) with e | _
    · exact .one (by simp only [advance, hroom])
    refine .head (.inserting _) db (by simp only [advance, hroom]; rfl) (.one ?_)
    simp only [advance, Prog.exec_read_bind]
    rw [Prog.exec_bind, Prog.exec_mapError]
    rcases (insertEmojiRow _).exec db with ⟨_ | created, db'⟩ <;> rfl
  | rename id name =>
    simp only [Prog.exec_lift_bind]
    rcases liftDomain (Messaging.validateEmojiName toLowercase name) with e | name
    · exact .refl
    refine .one ?_
    simp only [advance]
    rw [Prog.exec_bind, Prog.exec_mapError]
    rcases (renameEmojiRow c id name).exec db with ⟨_ | _ | renamed, db'⟩ <;> rfl
  | delete id =>
    refine .one ?_
    simp only [advance]
    rw [Prog.exec_bind, Prog.exec_mapError]
    rcases (deleteEmojiRow c id).exec db with ⟨_ | _ | _, db'⟩ <;> rfl

/-- By itself, a call ends with the outcome and the database of the service. -/
theorem ends_perform (op : EmojiOperation) :
    Ends toLowercase i (.resolving op .begun) db ((op.perform toLowercase).exec db) := by
  rw [perform_eq, Prog.exec_query_bind]
  refine Resolution.resolves op.communityId op.actorId db.toDb
    (P := fun r => Ends toLowercase i (.resolving op r) db _) ?_ ?_
  · intro r r' hr h
    exact .head _ _ (by simp only [advance, hr]) h
  intro r hr
  unfold managesCommunity
  rcases hc : memberContext db.toDb op.communityId op.actorId with e | context
  · rw [hc] at hr
    exact .one (by simp only [advance, hr]; rfl)
  · rw [hc] at hr
    refine .head _ _ (by simp only [advance, hr]; rfl) ?_
    rcases hrequire : context.require .manageCommunity with e | _
    · have hend : authorised toLowercase op context = .finished (.error e) := by
        unfold authorised
        rw [hrequire]
      rw [hend]
      simp only [bind, Except.bind, hrequire]
      exact .refl
    · simp only [bind, Except.bind, hrequire]
      exact ends_permitted op context hrequire

end Alone

/-! ## A turn -/

section Turns

variable {toLowercase : String → String} {I : Type} [DecidableEq I] {σ : EmojiCalls I} {c : CommunityId}

/-- The emoji a call inserts next. -/
def candidate : EmojiCall → Option CustomEmoji
  | .inserting candidate => some candidate
  | _ => none

variable (toLowercase) in
/-- A turn leaves the emoji as they are, or ends the call well with one row added, renamed or removed. -/
theorem advance_cases (l : EmojiCall) (db : EmojiDb) :
    ((advance toLowercase l db).2 = db ∧ ∀ e ∈ l.candidate, db.insertable e = false) ∨
    (∃ candidate, l = .inserting candidate ∧ db.insertable candidate = true ∧ advance toLowercase l db =
      (.finished (.ok (some candidate)), { db with communityEmojis := db.communityEmojis.insert candidate })) ∨
    (∃ c id name e, l = .naming c id name ∧ db.find c id = some e ∧ db.nameTaken c id name = false ∧
      advance toLowercase l db = (.finished (.ok (some (e.renamed name))),
        { db with communityEmojis := db.communityEmojis.update id (CustomEmoji.renamed name) fun _ => rfl })) ∨
    ∃ c id, l = .deleting c id ∧ advance toLowercase l db = (.finished (.ok none),
      { db with communityEmojis := db.communityEmojis.deleteWhere fun e => e.communityId = c && e.id = id }) := by
  cases l with
  | resolving op r =>
    refine .inl ⟨?_, fun _ h => (by cases h)⟩
    rcases hr : r.read op.communityId op.actorId db.toDb with _ | _ | _ <;> simp only [advance, hr]
  | counting c actor id name imageUrl isAnimated =>
    refine .inl ⟨?_, fun _ h => (by cases h)⟩
    rcases hroom : emojiRoom (db.count c) with _ | _ <;> simp only [advance, hroom]
  | inserting candidate =>
    rcases insertEmojiRow_cases candidate db with ⟨hfree, hexec⟩ | ⟨hfull, err, hexec⟩
    · exact .inr (.inl ⟨candidate, rfl, hfree, by simp only [advance, hexec]⟩)
    · refine .inl ⟨by simp only [advance, hexec], ?_⟩
      rintro _ ⟨⟩
      exact hfull
  | naming c id name =>
    rcases renameEmojiRow_cases c id name db with ⟨e, hfind, hname, hexec⟩ | ⟨-, hexec⟩ | ⟨err, hexec⟩
    · exact .inr (.inr (.inl ⟨c, id, name, e, rfl, hfind, hname, by simp only [advance, hexec]⟩))
    · exact .inl ⟨by simp only [advance, hexec], fun _ h => (by cases h)⟩
    · exact .inl ⟨by simp only [advance, hexec], fun _ h => (by cases h)⟩
  | deleting c id =>
    rcases hfind : db.find c id with _ | e
    · refine .inl ⟨?_, fun _ h => (by cases h)⟩
      exact deleteEmojiRow_of_none hfind
    · refine .inr (.inr (.inr ⟨c, id, rfl, ?_⟩))
      change ((finished (if (db.find c id).isSome then .ok none else .error (.notFound "emoji"))), _) = _
      rw [hfind]
      rfl
  | finished outcome => exact .inl ⟨rfl, fun _ h => (by cases h)⟩

/-- An emoji the database takes into the community finds fewer there than it may hold. -/
def RoomFor (c : CommunityId) (σ : EmojiCalls I) : Event I Db → Prop
  | .turn i => ∀ e ∈ (σ.calls i).candidate, e.communityId = c → σ.store.insertable e = true →
    σ.store.count c < emojiPerCommunityMax
  | .outside _ => True

instance (σ : EmojiCalls I) : ∀ e, Decidable (RoomFor c σ e)
  | .turn i => inferInstanceAs (Decidable (∀ e ∈ (σ.calls i).candidate, e.communityId = c → σ.store.insertable e = true →
      σ.store.count c < emojiPerCommunityMax))
  | .outside _ => .isTrue trivial

theorem namesUnique_step (e : Event I Db) (h : σ.store.NamesUnique) : (step toLowercase σ e).store.NamesUnique := by
  cases e with
  | outside rest => exact h.become rest
  | turn i =>
    change (advance toLowercase (σ.calls i) σ.store).2.NamesUnique
    rcases advance_cases toLowercase (σ.calls i) σ.store with
      ⟨hsame, -⟩ | ⟨candidate, -, hfree, hadv⟩ | ⟨c, id, name, e, -, hfind, hname, hadv⟩ | ⟨c, id, -, hadv⟩
    · rwa [hsame]
    · rw [hadv]
      unfold EmojiDb.insertable at hfree
      rw [Bool.and_eq_true, Bool.and_eq_true, Bool.not_eq_true', Bool.not_eq_true'] at hfree
      exact h.insert hfree.1.2
    · rw [hadv]
      exact h.rename hfind hname
    · rw [hadv]
      exact h.deleteWhere _

/-- From a community within its bound, an event leads out of it exactly where an insertion finds it full. -/
theorem count_step_le_iff (e : Event I Db) (h : σ.store.count c ≤ emojiPerCommunityMax) :
    (step toLowercase σ e).store.count c ≤ emojiPerCommunityMax ↔ RoomFor c σ e := by
  cases e with
  | outside rest => exact iff_of_true ((σ.store.count_become_le rest).trans h) trivial
  | turn i =>
    change (advance toLowercase (σ.calls i) σ.store).2.count c ≤ _ ↔ ∀ e ∈ (σ.calls i).candidate, _
    rcases advance_cases toLowercase (σ.calls i) σ.store with
      ⟨hsame, hfull⟩ | ⟨candidate, hl, hfree, hadv⟩ | ⟨c', id, name, e, hl, -, -, hadv⟩ | ⟨c', id, hl, hadv⟩
    · rw [hsame]
      refine iff_of_true h ?_
      intro candidate hl _ hfree
      rw [hfull candidate hl] at hfree
      cases hfree
    · rw [hadv, EmojiDb.count_insert hfree, hl]
      constructor
      · rintro hle _ ⟨⟩ hc -
        rw [if_pos hc] at hle
        omega
      · intro hroom
        by_cases hc : candidate.communityId = c
        · have := hroom candidate rfl hc hfree
          rw [if_pos hc]
          omega
        · rw [if_neg hc]
          omega
    · rw [hadv, EmojiDb.count_rename, hl]
      refine iff_of_true h ?_
      rintro _ ⟨⟩
    · rw [hadv, hl]
      refine iff_of_true ((EmojiDb.count_deleteWhere_le _).trans h) ?_
      rintro _ ⟨⟩

/-- An event that changes the emoji at the turn of a call ends the call well. -/
theorem finished_ok_of_change {i : I} (h : (step toLowercase σ (.turn i)).store ≠ σ.store) :
    ∃ r, (step toLowercase σ (.turn i)).calls i = .finished (.ok r) := by
  change (advance toLowercase (σ.calls i) σ.store).2 ≠ σ.store at h
  change ∃ r, Function.update σ.calls i (advance toLowercase (σ.calls i) σ.store).1 i = .finished (.ok r)
  rw [Function.update_self]
  rcases advance_cases toLowercase (σ.calls i) σ.store with
    ⟨hsame, -⟩ | ⟨candidate, -, -, hadv⟩ | ⟨c, id, name, e, -, -, -, hadv⟩ | ⟨c, id, -, hadv⟩
  · exact absurd hsame h
  all_goals exact ⟨_, by rw [hadv]⟩

/-- A call that is finished stays as it finished. -/
theorem finished_step (e : Event I Db) {i : I} {r : Except ServiceError (Option CustomEmoji)} (h : σ.calls i = .finished r) :
    (step toLowercase σ e).calls i = .finished r := by
  cases e with
  | outside rest => exact h
  | turn j =>
    change Function.update σ.calls j (advance toLowercase (σ.calls j) σ.store).1 i = _
    by_cases hij : i = j
    · subst hij
      rw [Function.update_self, h]
      rfl
    · rwa [Function.update_of_ne hij]

end Turns

/-! ## Any interleaving -/

section Interleavings

variable {toLowercase : String → String} {I : Type} [DecidableEq I]

/-- The turns of a call leave the database as it is. -/
def Idle (toLowercase : String → String) (i : I) (σ : EmojiCalls I) (e : Event I Db) : Prop :=
  e = .turn i → (step toLowercase σ e).store = σ.store

/-- A call that was refused has changed nothing. -/
theorem idle_of_refused {i : I} {err : ServiceError} (es : List (Event I Db)) (σ : EmojiCalls I)
    (h : (run (step toLowercase) σ es).calls i = .finished (.error err)) : Along (step toLowercase) (Idle toLowercase i) σ es := by
  induction es generalizing σ with
  | nil => trivial
  | cons e es ih =>
    refine ⟨?_, ih _ h⟩
    rintro rfl
    by_contra hchange
    obtain ⟨r, hr⟩ := finished_ok_of_change hchange
    -- the call has ended well, and is as it ended when the run is over
    have hlast : (run (step toLowercase) (step toLowercase σ (.turn i)) es).calls i = .finished (.ok r) :=
      run_of_step (I := fun σ : EmojiCalls I => σ.calls i = .finished (.ok r)) (fun σ e hσ => finished_step e hσ) hr
    rw [run_cons, hlast] at h
    cases h

/-- Names stay unique and a refused operation changes nothing, and a community holds no more emoji than it may
exactly as long as no insertion finds it full. -/
theorem capped_iff (c : CommunityId) {db : EmojiDb} (hnames : db.NamesUnique) (hcount : db.count c ≤ emojiPerCommunityMax)
    (operations : I → EmojiOperation) (es : List (Event I Db)) :
    (Always (step toLowercase) (fun σ => σ.store.count c ≤ emojiPerCommunityMax ∧ σ.store.NamesUnique) (begin db operations) es ∧
      ∀ i err, (run (step toLowercase) (begin db operations) es).calls i = .finished (.error err) →
        Along (step toLowercase) (Idle toLowercase i) (begin db operations) es) ↔
      Along (step toLowercase) (RoomFor c) (begin db operations) es := by
  have hiff : Always (step toLowercase) (fun σ => σ.store.count c ≤ emojiPerCommunityMax ∧ σ.store.NamesUnique)
      (begin db operations) es ↔ Along (step toLowercase) (RoomFor c) (begin db operations) es := by
    refine always_iff_along (J := fun σ => σ.store.NamesUnique) (fun σ e h => namesUnique_step e h) ?_ hnames ⟨hcount, hnames⟩
    intro σ e hunique hbound
    rw [count_step_le_iff e hbound.1]
    exact and_iff_left (namesUnique_step e hunique)
  refine ⟨fun h => hiff.1 h.1, fun h => ⟨hiff.2 h, ?_⟩⟩
  intro i err hrefused
  exact idle_of_refused es _ hrefused

/-- A community with one emoji less than it may hold, whose owner is user 0. -/
def almostFull : EmojiDb where
  toDb :=
    { Db.empty 0 with
      users := Table.empty.insert { id := ⟨0⟩, handle := "owner", email := "owner@example.com", isActive := true }
      communities := Table.empty.insert { id := ⟨0⟩, ownerId := ⟨0⟩ } }
  communityEmojis :=
    { rows := (List.range 199).map fun n : Nat =>
        { id := ⟨BitVec.ofNat 128 n⟩, communityId := ⟨0⟩, name := "e" ++ toString n, imageUrl := "https://e.org/" ++ toString n
          isAnimated := false, createdBy := some ⟨0⟩, createdAt := 0 }
      nodup := by
        rw [List.map_map]
        refine List.Nodup.map_on ?_ List.nodup_range
        intro n hn m hm h
        have huuid : BitVec.ofNat 128 n = BitVec.ofNat 128 m := congrArg EmojiId.uuid h
        have hnat := congrArg BitVec.toNat huuid
        rw [List.mem_range] at hn hm
        rw [BitVec.toNat_ofNat, BitVec.toNat_ofNat] at hnat
        omega }

/-- The number in a name of `almostFull`. -/
def emojiNumber (name : String) : Nat := (name.toList.drop 1).foldl (fun n digit => n * 10 + (digit.toNat - '0'.toNat)) 0

theorem almostFull_namesUnique : almostFull.NamesUnique := by
  have hid : ∀ e ∈ almostFull.communityEmojis.rows, e.id = ⟨BitVec.ofNat 128 (emojiNumber e.name)⟩ := by decide +kernel
  intro a ha b hb _ hn
  have hab : a.id = b.id := by rw [hid a ha, hid b hb, hn]
  exact List.inj_on_of_nodup_map almostFull.communityEmojis.nodup ha hb hab

/-- The owner adds an emoji from two tabs. -/
def twoTabs (second : Bool) : EmojiOperation where
  communityId := ⟨0⟩
  actorId := ⟨0⟩
  request := .create (if second then ⟨1000⟩ else ⟨999⟩)
    { name := if second then ":blob:" else "Party", imageUrl := "https://e.org/new", isAnimated := false }

/-- The second tab counts after the first has inserted. -/
def oneAfterTheOther : List (Event Bool Db) := [.turn false, .turn false, .turn false, .turn true, .turn true]

/-- The second is then refused, and the community is full. -/
theorem capped_in_turn :
    (Always (step fun s => s.map Char.toLower) (fun σ => σ.store.count ⟨0⟩ ≤ emojiPerCommunityMax ∧ σ.store.NamesUnique)
        (begin almostFull twoTabs) oneAfterTheOther ∧
      ∀ i err, (run (step fun s => s.map Char.toLower) (begin almostFull twoTabs) oneAfterTheOther).calls i =
          .finished (.error err) →
        Along (step fun s => s.map Char.toLower) (Idle (fun s => s.map Char.toLower) i) (begin almostFull twoTabs)
          oneAfterTheOther) ∧
    (run (step fun s => s.map Char.toLower) (begin almostFull twoTabs) oneAfterTheOther).calls true =
      .finished (.error (.invalid "name" "a community may hold at most 200 emoji")) :=
  ⟨(capped_iff ⟨0⟩ almostFull_namesUnique (by decide +kernel) twoTabs oneAfterTheOther).2 (by decide +kernel),
    by decide +kernel⟩

/-- Both count before either inserts. -/
def bothCount : List (Event Bool Db) := [.turn false, .turn false, .turn true, .turn true, .turn false, .turn true]

/-- The community then holds one emoji more than it may. -/
theorem capped_overrun : almostFull.NamesUnique ∧ almostFull.count ⟨0⟩ ≤ emojiPerCommunityMax ∧
    emojiPerCommunityMax <
      (run (step fun s => s.map Char.toLower) (begin almostFull twoTabs) bothCount).store.count ⟨0⟩ :=
  ⟨almostFull_namesUnique, by decide +kernel, by decide +kernel⟩

end Interleavings

end EmojiCall

end Genzh.Community
