/-
A community's custom emoji. Adding one, renaming one and removing one take `manage_community`; the names are
unique in a community by an index, and how many there may be is counted before one is added.

Lowering a string is a table of Unicode's, and an argument.
-/
import Genzh.Community.Authorization
import Genzh.Messaging.Reactions

namespace Genzh.Community

open Genzh.Lib Genzh.Domain Genzh.Infrastructure

/-! ## Names and artwork -/

def emojiUrlMaxLen : Nat := 512
def emojiPerCommunityMax : Nat := 200

/-- The part of a URL a host and a credential stand in: what comes before the first `/`, `?` or `#`. -/
def urlAuthority (rest : List Char) : List Char := rest.takeWhile fun c => c != '/' && c != '?' && c != '#'

/-- Validate an emoji artwork URL. -/
def validateEmojiUrl (raw : String) : Except DomainError String :=
  let url := trim raw
  if emojiUrlMaxLen < url.length then
    .error (.invalid "image_url" s!"must be at most {emojiUrlMaxLen} characters")
  else if "https://".toList.isPrefixOf url.toList then
    let authority := urlAuthority (url.toList.drop "https://".length)
    -- a credential would leak wherever the artwork is drawn
    if authority.isEmpty || authority.contains '@' then .error (.invalid "image_url" "is not a usable URL") else .ok url
  else .error (.invalid "image_url" "must be an https:// URL")

/-! ## The table -/

structure EmojiId where
  uuid : Uuid
  deriving DecidableEq, Repr

/-- One community-defined emoji, with all its columns. -/
structure CustomEmoji where
  id : EmojiId
  communityId : CommunityId
  name : String
  imageUrl : String
  isAnimated : Bool
  /-- `none` once that account is gone. -/
  createdBy : Option UserId
  createdAt : Timestamp
  deriving DecidableEq, Repr

instance : HasKey CustomEmoji EmojiId := ⟨CustomEmoji.id⟩

namespace CustomEmoji

/-- The same artwork under another name. -/
def renamed (name : String) (e : CustomEmoji) : CustomEmoji := { e with name }

/-- Whoever added it is gone. -/
def orphaned (e : CustomEmoji) : CustomEmoji := { e with createdBy := none }

end CustomEmoji

structure EmojiDb extends Db where
  communityEmojis : Table CustomEmoji

namespace EmojiDb

variable (db : EmojiDb)

/-- `SELECT COUNT(*)` of a community's emoji. -/
def count (c : CommunityId) : Nat := db.communityEmojis.count fun e => e.communityId = c

/-- One emoji by id, within a community. -/
def find (c : CommunityId) (id : EmojiId) : Option CustomEmoji :=
  (db.communityEmojis.find id).filter fun e => e.communityId = c

/-- Does another emoji of the community have this name? -/
def nameTaken (c : CommunityId) (id : EmojiId) (name : String) : Bool :=
  db.communityEmojis.rows.any fun e => e.communityId = c && e.id ≠ id && e.name = name

/-- The foreign keys of an emoji. -/
def owned (e : CustomEmoji) : Bool := db.communityExists e.communityId && e.createdBy.all db.userExists

/-- Does the database take this row? -/
def insertable (e : CustomEmoji) : Bool :=
  !db.communityEmojis.contains e.id && !db.nameTaken e.communityId e.id e.name && db.owned e

/-- The rest of the database becomes another. The emoji of a community that is gone go with it, and those of
an account that is gone stay. -/
def become (rest : Db) : EmojiDb :=
  { rest with
    communityEmojis := (db.communityEmojis.deleteWhere fun e => !rest.communityExists e.communityId).updateWhere
      (fun e => !e.createdBy.all rest.userExists) CustomEmoji.orphaned fun _ => rfl }

/-- No two emoji of a community have one name. -/
def NamesUnique : Prop :=
  ∀ a ∈ db.communityEmojis.rows, ∀ b ∈ db.communityEmojis.rows, a.communityId = b.communityId → a.name = b.name → a = b

end EmojiDb

abbrev EmojiRepoM := Prog EmojiDb RepositoryError

/-- Check a constraint of the statement. -/
def checkEmoji (c : EmojiDb → Bool) (e : RepositoryError) : EmojiRepoM Unit := do
  let holds ← Prog.read c
  Prog.ensure holds e

/-- Insert one. -/
def insertEmojiRow (e : CustomEmoji) : EmojiRepoM CustomEmoji := do
  checkEmoji (fun db => !db.communityEmojis.contains e.id) (.conflict "community_emojis_pkey")
  checkEmoji (fun db => !db.nameTaken e.communityId e.id e.name) (.conflict "community_emojis_community_id_name_key")
  checkEmoji (fun db => db.owned e) .foreignKey
  Prog.modify fun db => { db with communityEmojis := db.communityEmojis.insert e }
  pure e

/-- Rename one, within its community. -/
def renameEmojiRow (c : CommunityId) (id : EmojiId) (name : String) : EmojiRepoM (Option CustomEmoji) := do
  let row ← Prog.read fun db => db.find c id
  match row with
  | none => pure none
  | some e => do
    checkEmoji (fun db => !db.nameTaken c id name) (.conflict "community_emojis_community_id_name_key")
    Prog.modify fun db => { db with communityEmojis := db.communityEmojis.update id (CustomEmoji.renamed name) fun _ => rfl }
    pure (some (e.renamed name))

/-- Remove one. Reports whether a row was removed. -/
def deleteEmojiRow (c : CommunityId) (id : EmojiId) : EmojiRepoM Bool := do
  let row ← Prog.read fun db => db.find c id
  Prog.modify fun db =>
    { db with communityEmojis := db.communityEmojis.deleteWhere fun e => e.communityId = c && e.id = id }
  pure row.isSome

/-! ## The service -/

abbrev EmojiM := Prog EmojiDb ServiceError

/-- The conflict a name index reports. -/
def conflict : RepositoryError → ServiceError
  | .conflict _ => .domain (.conflict "emoji")
  | e => .repository e

/-- Input for registering an emoji. -/
structure CreateEmoji where
  name : String
  imageUrl : String
  isAnimated : Bool
  deriving DecidableEq, Repr

/-- Assert `manage_community`. -/
def managesCommunity (db : EmojiDb) (c : CommunityId) (actor : UserId) : Except ServiceError Unit := do
  let context ← memberContext db.toDb c actor
  context.require .manageCommunity

/-- The name and the artwork of an emoji to register. -/
def newEmoji (toLowercase : String → String) (input : CreateEmoji) : Except ServiceError (String × String) := do
  let name ← liftDomain (Messaging.validateEmojiName toLowercase input.name)
  let imageUrl ← liftDomain (validateEmojiUrl input.imageUrl)
  pure (name, imageUrl)

/-- Is there room for one more? -/
def emojiRoom (count : Nat) : Except ServiceError Unit :=
  if emojiPerCommunityMax ≤ count then
    .error (.invalid "name" s!"a community may hold at most {emojiPerCommunityMax} emoji")
  else .ok ()

/-- Register an emoji, under an id that was drawn for it. -/
def createEmoji (toLowercase : String → String) (c : CommunityId) (actor : UserId) (id : EmojiId) (input : CreateEmoji) :
    EmojiM CustomEmoji := do
  Prog.query fun db => managesCommunity db c actor
  let (name, imageUrl) ← Prog.lift (newEmoji toLowercase input)
  Prog.query fun db => emojiRoom (db.count c)
  let now ← Prog.read fun db => db.now
  Prog.mapError conflict (insertEmojiRow
    { id, communityId := c, name, imageUrl, isAnimated := input.isAnimated, createdBy := some actor, createdAt := now })

/-- Rename an emoji. -/
def renameEmoji (toLowercase : String → String) (c : CommunityId) (id : EmojiId) (actor : UserId) (name : String) :
    EmojiM CustomEmoji := do
  Prog.query fun db => managesCommunity db c actor
  let name ← Prog.lift (liftDomain (Messaging.validateEmojiName toLowercase name))
  let renamed ← Prog.mapError conflict (renameEmojiRow c id name)
  match renamed with
  | some e => pure e
  | none => Prog.fail (.notFound "emoji")

/-- Remove an emoji. -/
def deleteEmoji (c : CommunityId) (id : EmojiId) (actor : UserId) : EmojiM Unit := do
  Prog.query fun db => managesCommunity db c actor
  let removed ← Prog.mapError .repository (deleteEmojiRow c id)
  Prog.ensure removed (.notFound "emoji")

/-! ## What a statement does -/

section Statements

variable {db : EmojiDb} {c : CommunityId} {e : CustomEmoji} {id : EmojiId} {name : String}

theorem exec_checkEmoji_bind {α : Type} (p : EmojiDb → Bool) (e : RepositoryError) (m : EmojiRepoM α) (db : EmojiDb) :
    (checkEmoji p e >>= fun _ => m).exec db = if p db then m.exec db else (.error e, db) := by
  rw [Prog.exec_bind]
  unfold checkEmoji
  rw [Prog.exec_read_bind, Prog.exec_ensure]
  by_cases h : p db <;> simp [h]

/-- The database takes a row, or refuses it and stays as it is. -/
theorem insertEmojiRow_cases (e : CustomEmoji) (db : EmojiDb) :
    (db.insertable e = true ∧
      (insertEmojiRow e).exec db = (.ok e, { db with communityEmojis := db.communityEmojis.insert e })) ∨
    (db.insertable e = false ∧ ∃ err, (insertEmojiRow e).exec db = (.error err, db)) := by
  unfold insertEmojiRow EmojiDb.insertable
  simp only [exec_checkEmoji_bind]
  rcases db.communityEmojis.contains e.id
  · rcases db.nameTaken e.communityId e.id e.name
    · rcases db.owned e
      · exact .inr ⟨rfl, _, rfl⟩
      · exact .inl ⟨rfl, rfl⟩
    · exact .inr ⟨rfl, _, rfl⟩
  · exact .inr ⟨rfl, _, rfl⟩

/-- A row is renamed, or is not there, or its new name is taken. -/
theorem renameEmojiRow_cases (c : CommunityId) (id : EmojiId) (name : String) (db : EmojiDb) :
    (∃ e, db.find c id = some e ∧ db.nameTaken c id name = false ∧ (renameEmojiRow c id name).exec db =
      (.ok (some (e.renamed name)),
        { db with communityEmojis := db.communityEmojis.update id (CustomEmoji.renamed name) fun _ => rfl })) ∨
    (db.find c id = none ∧ (renameEmojiRow c id name).exec db = (.ok none, db)) ∨
    (∃ err, (renameEmojiRow c id name).exec db = (.error err, db)) := by
  unfold renameEmojiRow
  rw [Prog.exec_read_bind]
  rcases db.find c id with _ | e
  · exact .inr (.inl ⟨rfl, rfl⟩)
  · simp only [exec_checkEmoji_bind]
    rcases db.nameTaken c id name
    · exact .inl ⟨e, rfl, rfl, rfl⟩
    · exact .inr (.inr ⟨_, rfl⟩)

/-- No row is deleted where none is found. -/
theorem deleteEmojiRow_of_none (h : db.find c id = none) : ((deleteEmojiRow c id).exec db).2 = db := by
  have hrows : (db.communityEmojis.deleteWhere fun e => e.communityId = c && e.id = id) = db.communityEmojis := by
    apply Table.ext
    refine List.filter_eq_self.2 fun e he => ?_
    by_contra hgone
    have hboth : e.communityId = c ∧ e.id = id := by simpa using hgone
    obtain ⟨hc, rfl⟩ := hboth
    have hfind : db.communityEmojis.find e.id = some e := Table.mem_iff_find.1 he
    rw [EmojiDb.find, hfind] at h
    simp [hc] at h
  change { db with communityEmojis := _ } = db
  rw [hrows]

end Statements

/-! ## Unique names -/

namespace EmojiDb.NamesUnique

variable {db : EmojiDb} {c : CommunityId} {id : EmojiId} {name : String}

theorem insert {e : CustomEmoji} (h : db.NamesUnique) (hname : db.nameTaken e.communityId e.id e.name = false) :
    NamesUnique { db with communityEmojis := db.communityEmojis.insert e } := by
  have hother : ∀ a ∈ db.communityEmojis.rows, db.communityEmojis.contains e.id = false →
      a.communityId = e.communityId → a.name ≠ e.name := by
    intro a ha hnew hc hn
    have hid : a.id ≠ e.id := by
      intro hid
      have := Table.find_eq_none.1 (Table.contains_eq_false.1 hnew) a ha
      exact this hid
    simp only [nameTaken, List.any_eq_false] at hname
    exact hname a ha (by simp [hc, hn, hid])
  intro a ha b hb hc hn
  rcases Table.mem_insert.1 ha with hao | ⟨rfl, hnew⟩
  · rcases Table.mem_insert.1 hb with hbo | ⟨rfl, hnew⟩
    · exact h a hao b hbo hc hn
    · exact absurd hn (hother a hao hnew hc)
  · rcases Table.mem_insert.1 hb with hbo | ⟨rfl, -⟩
    · exact absurd hn.symm (hother b hbo hnew hc.symm)
    · rfl

theorem rename (h : db.NamesUnique) {e : CustomEmoji} (hfind : db.find c id = some e)
    (hname : db.nameTaken c id name = false) :
    NamesUnique { db with communityEmojis := db.communityEmojis.update id (CustomEmoji.renamed name) fun _ => rfl } := by
  obtain ⟨hrow, hc⟩ := Option.filter_eq_some_iff.1 hfind
  have hc : e.communityId = c := by simpa using hc
  obtain ⟨hmem, rfl⟩ := Table.find_eq_some.1 hrow
  -- the row that was renamed is the only one with its id, and no other has the name it takes
  have hself : ∀ a ∈ db.communityEmojis.rows, a.id = e.id → a = e := fun a ha hid =>
    List.inj_on_of_nodup_map db.communityEmojis.nodup ha hmem hid
  have hother : ∀ a ∈ db.communityEmojis.rows, a.id ≠ e.id → a.communityId = c → a.name ≠ name := by
    intro a ha hid hac hn
    simp only [nameTaken, List.any_eq_false] at hname
    exact hname a ha (by simp [hac, hn, key, hid])
  intro a' ha' b' hb' hcab hnab
  rcases (Table.mem_update _ _ (CustomEmoji.renamed name) fun _ => rfl).1 ha' with ⟨a, ha, hai, rfl⟩ | ⟨ha, hai⟩
  · obtain rfl := hself a ha hai
    rcases (Table.mem_update _ _ (CustomEmoji.renamed name) fun _ => rfl).1 hb' with ⟨b, hb, hbi, rfl⟩ | ⟨hb, hbi⟩
    · rw [hself b hb hbi]
    · exact absurd hnab.symm (hother b' hb hbi (hcab.symm.trans hc))
  · rcases (Table.mem_update _ _ (CustomEmoji.renamed name) fun _ => rfl).1 hb' with ⟨b, hb, hbi, rfl⟩ | ⟨hb, hbi⟩
    · obtain rfl := hself b hb hbi
      exact absurd hnab (hother a' ha hai (hcab.trans hc))
    · exact h a' ha b' hb hcab hnab

theorem deleteWhere (h : db.NamesUnique) (p : CustomEmoji → Bool) :
    NamesUnique { db with communityEmojis := db.communityEmojis.deleteWhere p } := by
  intro a ha b hb
  exact h a (Table.mem_deleteWhere.1 ha).1 b (Table.mem_deleteWhere.1 hb).1

theorem become (h : db.NamesUnique) (rest : Db) : (db.become rest).NamesUnique := by
  -- a row that stays is one that was there, and only who created it may be forgotten
  have hkept : ∀ e' ∈ (db.become rest).communityEmojis.rows, ∃ e ∈ db.communityEmojis.rows,
      e' = if !e.createdBy.all rest.userExists then e.orphaned else e := by
    intro e' he'
    obtain ⟨e, he, rfl⟩ := List.mem_map.1 he'
    exact ⟨e, (Table.mem_deleteWhere.1 he).1, rfl⟩
  have hsame : ∀ e : CustomEmoji, ∀ p : Bool, (if p then e.orphaned else e).communityId = e.communityId ∧
      (if p then e.orphaned else e).name = e.name := by
    intro e p
    cases p <;> exact ⟨rfl, rfl⟩
  intro a' ha' b' hb' hc hn
  obtain ⟨a, ha, rfl⟩ := hkept a' ha'
  obtain ⟨b, hb, rfl⟩ := hkept b' hb'
  rw [(hsame a _).1, (hsame b _).1] at hc
  rw [(hsame a _).2, (hsame b _).2] at hn
  rw [h a ha b hb hc hn]

end EmojiDb.NamesUnique

/-! ## How many -/

namespace EmojiDb

variable {db : EmojiDb} {c : CommunityId}

/-- One more in its community, and no more elsewhere. -/
theorem count_insert {e : CustomEmoji} (h : db.insertable e = true) :
    count { db with communityEmojis := db.communityEmojis.insert e } c =
      db.count c + if e.communityId = c then 1 else 0 := by
  unfold count
  rw [Table.count_insert]
  have hnew : db.communityEmojis.contains (key e) = false := by
    unfold insertable at h
    rw [Bool.and_eq_true, Bool.and_eq_true, Bool.not_eq_true'] at h
    exact h.1.1
  by_cases hc : e.communityId = c <;> simp [hc, hnew]

theorem count_rename (id : EmojiId) (name : String) :
    count { db with communityEmojis := db.communityEmojis.update id (CustomEmoji.renamed name) fun _ => rfl } c = db.count c :=
  Table.count_updateWhere db.communityEmojis (fun e => key e = id) (fun e => e.communityId = c) (CustomEmoji.renamed name)
    (fun _ => rfl) fun _ => rfl

theorem count_deleteWhere_le (p : CustomEmoji → Bool) :
    count { db with communityEmojis := db.communityEmojis.deleteWhere p } c ≤ db.count c :=
  List.filter_sublist.countP_le

theorem count_become_le (rest : Db) : (db.become rest).count c ≤ db.count c := by
  unfold become count
  rw [Table.count_updateWhere _ _ (fun e => e.communityId = c) CustomEmoji.orphaned (fun _ => rfl) fun _ => rfl]
  exact List.filter_sublist.countP_le

end EmojiDb

end Genzh.Community
