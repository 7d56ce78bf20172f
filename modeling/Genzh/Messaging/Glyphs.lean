/-
Reactions by the emoji they name. What is stored is the text that was sent, trimmed; the emoji it names is read off a
normal form of it, in lower case. So an emoji has as many keys as there are spellings of its name that somebody reacted
with, and each of them has its own row, its own tally and its own removal.
-/
import Genzh.Messaging.Reactions
import Genzh.Domain.Mentions
import Genzh.Room.Request

namespace Genzh.Messaging

open Genzh.Lib Genzh.Domain Genzh.Infrastructure Genzh.Room

/-! ## Glyphs -/

/-- The reaction key an emoji is used under. -/
def shortcode (name : String) : String := ":" ++ name ++ ":"

/-- What a reaction key shows: an emoji of the community by its name, or the text itself. -/
inductive Glyph where
  | custom (name : String)
  | plain (key : String)
  deriving DecidableEq, Repr

def glyph (toLowercase : String → String) (key : String) : Glyph := (shortcodeName toLowercase key).elim (.plain key) .custom

/-- A key that names an emoji is the one the emoji is used under. -/
def Canonical (toLowercase : String → String) (key : String) : Prop :=
  ∀ name, shortcodeName toLowercase key = some name → key = shortcode name

variable {toLowercase : String → String}

theorem Canonical.eq {k k' : String} (h : Canonical toLowercase k) (h' : Canonical toLowercase k')
    (hglyph : glyph toLowercase k = glyph toLowercase k') : k = k' := by
  unfold glyph at hglyph
  rcases hk : shortcodeName toLowercase k with _ | name <;> rcases hk' : shortcodeName toLowercase k' with _ | name' <;>
    rw [hk, hk'] at hglyph
  · exact Glyph.plain.inj hglyph
  · cases hglyph
  · cases hglyph
  · rw [h name hk, h' name' hk', Glyph.custom.inj hglyph]

/-! ## Calls -/

/-- What happens to the reactions of a database. Elsewhere anything may change; a message that goes takes its reactions
with it. -/
inductive ReactionCall where
  | react (messageId : MessageId) (userId : UserId) (reaction : String) (verdict : Option FloodVerdict)
  | unreact (messageId : MessageId) (userId : UserId) (reaction : String)
  | elsewhere (rest : Db) (emojis : Table CustomEmoji)

/-- The rest of the database is another one. -/
def elsewhere (rest : Db) (emojis : Table CustomEmoji) (db : ReactionDb) : ReactionDb where
  toDb := rest
  messageReactions := db.messageReactions.deleteWhere fun r => !rest.messages.contains r.messageId
  communityEmojis := emojis

/-- The database a call leaves. -/
def after (toLowercase : String → String) (db : ReactionDb) : ReactionCall → ReactionDb
  | .react messageId userId reaction verdict => ((react toLowercase messageId userId reaction verdict).exec db).2
  | .unreact messageId userId reaction => ((unreact messageId userId reaction).exec db).2
  | .elsewhere rest emojis => elsewhere rest emojis db

/-- What a reaction is refused for, and the key it is stored under otherwise. -/
def checkReact (toLowercase : String → String) (db : ReactionDb) (messageId : MessageId) (userId : UserId) (reaction : String)
    (verdict : Option FloodVerdict) : Except ServiceError String := do
  let existing ← findMessage db.toDb messageId
  let a ← visibleAccess db.toDb existing.roomId userId
  a.require .addReaction
  let reaction ← liftDomain (validateReaction reaction)
  ensureEmoji toLowercase db a.room reaction
  reactionGuard verdict
  if db.messages.contains messageId && db.userExists userId then .ok reaction else .error (.repository .foreignKey)

/-- What a removal is refused for, before it is known whether there is anything to remove. -/
def checkUnreact (db : ReactionDb) (messageId : MessageId) (userId : UserId) (reaction : String) : Except ServiceError String := do
  let existing ← findMessage db.toDb messageId
  let _ ← visibleAccess db.toDb existing.roomId userId
  liftDomain (validateReaction reaction)

/-- A reaction is there. -/
def withReaction (messageId : MessageId) (userId : UserId) (db : ReactionDb) (key : String) : ReactionDb :=
  { db with messageReactions := db.messageReactions.insert { messageId, userId, reaction := key, createdAt := db.now } }

/-- A reaction is gone. -/
def withoutReaction (messageId : MessageId) (userId : UserId) (db : ReactionDb) (key : String) : ReactionDb :=
  { db with messageReactions := db.messageReactions.delete (messageId, userId, key) }

section Calls

variable {db : ReactionDb} {messageId : MessageId} {userId : UserId} {reaction : String} {verdict : Option FloodVerdict}

theorem validateReaction_ok {key : String} (h : liftDomain (validateReaction reaction) = .ok key) : key = trim reaction := by
  unfold validateReaction at h
  simp only at h
  split at h
  · cases h
  · cases h
    rfl

theorem after_react : after toLowercase db (.react messageId userId reaction verdict) =
    (checkReact toLowercase db messageId userId reaction verdict).toOption.elim db (withReaction messageId userId db) := by
  change ((react toLowercase messageId userId reaction verdict).exec db).2 = _
  unfold react checkReact
  -- nothing is written before the last check
  apply Prog.checked_query
  intro existing
  apply Prog.checked_query
  intro a
  apply Prog.checked_lift
  intro _
  apply Prog.checked_lift
  intro key
  apply Prog.checked_query
  intro _
  apply Prog.checked_lift
  intro _
  rw [Prog.exec_bind]
  unfold addReaction
  rw [Prog.exec_read_bind, Prog.exec_ensure_bind]
  cases db.messages.contains messageId && db.userExists userId <;> rfl

theorem after_unreact : after toLowercase db (.unreact messageId userId reaction) =
    (checkUnreact db messageId userId reaction).toOption.elim db (withoutReaction messageId userId db) := by
  change ((unreact messageId userId reaction).exec db).2 = _
  unfold unreact checkUnreact
  refine Prog.checked_query fun existing => Prog.checked_query fun a => ?_
  rw [Prog.exec_lift_bind]
  rcases liftDomain (validateReaction reaction) with e | key
  · rfl
  have hremove : (removeReaction messageId userId key).exec db =
      (.ok (db.messageReactions.contains (messageId, userId, key)), withoutReaction messageId userId db key) := rfl
  simp only
  rw [Prog.exec_bind_ok hremove, Prog.exec_ensure_bind]
  split <;> rfl

theorem checkReact_key {key : String} (h : checkReact toLowercase db messageId userId reaction verdict = .ok key) :
    key = trim reaction := by
  obtain ⟨_, -, h⟩ := Prog.bind_eq_ok h
  obtain ⟨_, -, h⟩ := Prog.bind_eq_ok h
  obtain ⟨_, -, h⟩ := Prog.bind_eq_ok h
  obtain ⟨key', hkey, h⟩ := Prog.bind_eq_ok h
  obtain ⟨_, -, h⟩ := Prog.bind_eq_ok h
  obtain ⟨_, -, h⟩ := Prog.bind_eq_ok h
  split at h
  · cases h
    exact validateReaction_ok hkey
  · cases h

theorem checkUnreact_key {key : String} (h : checkUnreact db messageId userId reaction = .ok key) : key = trim reaction := by
  obtain ⟨_, -, h⟩ := Prog.bind_eq_ok h
  obtain ⟨_, -, h⟩ := Prog.bind_eq_ok h
  exact validateReaction_ok h

end Calls

/-! ## One key for every emoji -/

/-- Who reacted to a message with a glyph, each of them once. -/
def reactors (toLowercase : String → String) (db : ReactionDb) (messageId : MessageId) (g : Glyph) : List UserId :=
  ((db.messageReactions.select fun r => r.messageId = messageId && glyph toLowercase r.reaction = g).map (·.userId)).dedup

/-- Every emoji has one key: no user has reacted with it twice to a message, and it has one tally there, of all who
reacted with it. -/
structure OneKey (toLowercase : String → String) (db : ReactionDb) : Prop where
  canonical : ∀ r ∈ db.messageReactions.rows, Canonical toLowercase r.reaction
  once : ∀ r ∈ db.messageReactions.rows, ∀ r' ∈ db.messageReactions.rows, r.messageId = r'.messageId → r.userId = r'.userId →
    glyph toLowercase r.reaction = glyph toLowercase r'.reaction → r = r'
  tally : ∀ messageId viewer, ∀ s ∈ reactionSummaries db messageId viewer,
    s.count = (reactors toLowercase db messageId (glyph toLowercase s.reaction)).length ∧
    ∀ s' ∈ reactionSummaries db messageId viewer, glyph toLowercase s'.reaction = glyph toLowercase s.reaction → s' = s

/-- The user has reacted to the message with what the reaction shows. -/
def Reacted (toLowercase : String → String) (db : ReactionDb) (messageId : MessageId) (userId : UserId) (g : Glyph) : Prop :=
  ∃ r ∈ db.messageReactions.rows, r.messageId = messageId ∧ r.userId = userId ∧ glyph toLowercase r.reaction = g

/-- A removal that is not refused takes the user's reaction with that glyph away, however it is spelled. -/
def Removes (toLowercase : String → String) (db : ReactionDb) : ReactionCall → Prop
  | .unreact messageId userId reaction =>
    (checkUnreact db messageId userId reaction).isOk = true →
      ¬ Reacted toLowercase (after toLowercase db (.unreact messageId userId reaction)) messageId userId
        (glyph toLowercase (trim reaction))
  | _ => True

/-- What a call must be for the law to hold: a reaction that is taken, and a removal of a reaction that is there, spell
the emoji they name the way it is used. -/
def SpelledOut (toLowercase : String → String) (db : ReactionDb) : ReactionCall → Prop
  | .react messageId userId reaction verdict =>
    (checkReact toLowercase db messageId userId reaction verdict).isOk = true → Canonical toLowercase (trim reaction)
  | .unreact messageId userId reaction =>
    (checkUnreact db messageId userId reaction).isOk = true →
      Reacted toLowercase db messageId userId (glyph toLowercase (trim reaction)) → Canonical toLowercase (trim reaction)
  | .elsewhere .. => True

section Keys

variable {db : ReactionDb}

theorem mem_reactionSummaries {messageId : MessageId} {viewer : UserId} {s : ReactionSummary}
    (h : s ∈ reactionSummaries db messageId viewer) :
    (∃ r ∈ db.messageReactions.rows, r.messageId = messageId ∧ r.reaction = s.reaction) ∧
    s.count = (db.messageReactions.select fun r => r.messageId = messageId).countP (fun r => r.reaction = s.reaction) ∧
    s.me = (db.messageReactions.select fun r => r.messageId = messageId).any fun r => r.reaction = s.reaction && r.userId = viewer := by
  unfold reactionSummaries at h
  rw [(List.perm_insertionSort _ _).mem_iff] at h
  obtain ⟨reaction, hreaction, rfl⟩ := List.mem_map.1 h
  obtain ⟨r, hr, rfl⟩ := List.mem_map.1 (List.mem_dedup.1 hreaction)
  obtain ⟨hr, hmessage⟩ := Table.mem_select.1 hr
  exact ⟨⟨r, hr, of_decide_eq_true hmessage, rfl⟩, rfl, rfl⟩

theorem nodup_reactions (db : ReactionDb) : db.messageReactions.rows.Nodup := db.messageReactions.nodup.of_map key

/-- All of it follows from the keys: two reactions with one glyph have one key. -/
theorem oneKey_iff : OneKey toLowercase db ↔ ∀ r ∈ db.messageReactions.rows, Canonical toLowercase r.reaction := by
  refine ⟨OneKey.canonical, fun h => ?_⟩
  have honce : ∀ r ∈ db.messageReactions.rows, ∀ r' ∈ db.messageReactions.rows, r.messageId = r'.messageId →
      r.userId = r'.userId → glyph toLowercase r.reaction = glyph toLowercase r'.reaction → r = r' := by
    intro r hr r' hr' hmessage huser hglyph
    refine List.inj_on_of_nodup_map db.messageReactions.nodup hr hr' ?_
    change (r.messageId, r.userId, r.reaction) = (r'.messageId, r'.userId, r'.reaction)
    rw [hmessage, huser, (h r hr).eq (h r' hr') hglyph]
  refine ⟨h, honce, fun messageId viewer s hs => ?_⟩
  obtain ⟨⟨r₀, hr₀, -, hkey₀⟩, hcount, hme⟩ := mem_reactionSummaries hs
  refine ⟨?_, fun s' hs' hglyph => ?_⟩
  · -- the rows under the key are the rows with the glyph, and no two are of one user
    have hrows : (db.messageReactions.select fun r => r.messageId = messageId && glyph toLowercase r.reaction =
        glyph toLowercase s.reaction) =
        (db.messageReactions.select fun r => r.messageId = messageId).filter fun r => r.reaction = s.reaction := by
      unfold Table.select
      rw [List.filter_filter]
      refine List.filter_congr fun r hr => ?_
      have hkey : glyph toLowercase r.reaction = glyph toLowercase s.reaction ↔ r.reaction = s.reaction := by
        rw [← hkey₀]
        exact ⟨(h r hr).eq (h r₀ hr₀), congrArg _⟩
      rw [Bool.and_comm, decide_eq_decide.2 hkey]
    have hnodup : ((db.messageReactions.select fun r => r.messageId = messageId && glyph toLowercase r.reaction =
        glyph toLowercase s.reaction).map (·.userId)).Nodup := by
      refine List.Nodup.map_on ?_ ((nodup_reactions db).filter _)
      intro r hr r' hr' huser
      obtain ⟨hr, hm⟩ := Table.mem_select.1 hr
      obtain ⟨hr', hm'⟩ := Table.mem_select.1 hr'
      simp only [Bool.and_eq_true, decide_eq_true_eq] at hm hm'
      exact honce r hr r' hr' (hm.1.trans hm'.1.symm) huser (hm.2.trans hm'.2.symm)
    unfold reactors
    rw [hnodup.dedup, List.length_map, hrows, hcount, List.countP_eq_length_filter]
  · obtain ⟨⟨r₁, hr₁, -, hkey₁⟩, hcount', hme'⟩ := mem_reactionSummaries hs'
    -- two tallies of one glyph are of one key, and a tally is given by its key
    have hsame : s'.reaction = s.reaction := by
      rw [← hkey₀, ← hkey₁] at hglyph ⊢
      exact (h r₁ hr₁).eq (h r₀ hr₀) hglyph
    rw [hsame] at hcount' hme'
    rcases s with ⟨reaction, count, me⟩
    rcases s' with ⟨reaction', count', me'⟩
    simp only at hsame hcount hme hcount' hme'
    rw [hsame, hcount, hme, hcount', hme']

/-- A reaction that is taken is there under its text, trimmed, and with the others. -/
theorem mem_withReaction {messageId : MessageId} {userId : UserId} {key : String} :
    (∃ r ∈ (withReaction messageId userId db key).messageReactions.rows, r.reaction = key) ∧
    (∀ r ∈ db.messageReactions.rows, r ∈ (withReaction messageId userId db key).messageReactions.rows) ∧
    ∀ r ∈ (withReaction messageId userId db key).messageReactions.rows, r ∈ db.messageReactions.rows ∨ r.reaction = key := by
  unfold withReaction
  refine ⟨?_, fun r hr => Table.mem_insert.2 (.inl hr), fun r hr => ?_⟩
  · -- the insertion does nothing where the row is there already
    rcases hc : db.messageReactions.contains (messageId, userId, key) with _ | _
    · exact ⟨_, Table.mem_insert.2 (.inr ⟨rfl, hc⟩), rfl⟩
    · obtain ⟨r, hr⟩ := Table.contains_iff.1 hc
      obtain ⟨hmem, hkey⟩ := Table.find_eq_some.1 hr
      exact ⟨r, Table.mem_insert.2 (.inl hmem), congrArg (·.2.2) hkey⟩
  · rcases Table.mem_insert.1 hr with h | ⟨rfl, -⟩
    · exact .inl h
    · exact .inr rfl

theorem oneKey_react_iff (h : OneKey toLowercase db) {messageId : MessageId} {userId : UserId} {reaction : String}
    {verdict : Option FloodVerdict} : OneKey toLowercase (after toLowercase db (.react messageId userId reaction verdict)) ↔
      SpelledOut toLowercase db (.react messageId userId reaction verdict) := by
  change _ ↔ ((checkReact toLowercase db messageId userId reaction verdict).isOk = true → Canonical toLowercase (trim reaction))
  rw [after_react]
  rcases hcheck : checkReact toLowercase db messageId userId reaction verdict with e | key
  · exact iff_of_true h fun hok => (by cases hok)
  obtain rfl := checkReact_key hcheck
  obtain ⟨⟨r₀, hr₀, hkey₀⟩, hold, hnew⟩ := @mem_withReaction db messageId userId (trim reaction)
  constructor
  · intro hafter _
    rw [← hkey₀]
    exact hafter.canonical r₀ hr₀
  · intro hspelled
    refine oneKey_iff.2 fun r hr => ?_
    rcases hnew r hr with hr | hkey
    · exact h.canonical r hr
    · rw [hkey]
      exact hspelled rfl

theorem OneKey.subset {db' : ReactionDb} (h : OneKey toLowercase db)
    (hsub : ∀ r ∈ db'.messageReactions.rows, r ∈ db.messageReactions.rows) : OneKey toLowercase db' :=
  oneKey_iff.2 fun r hr => h.canonical r (hsub r hr)

theorem mem_withoutReaction {messageId : MessageId} {userId : UserId} {key : String} {r : MessageReaction} :
    r ∈ (withoutReaction messageId userId db key).messageReactions.rows ↔
      r ∈ db.messageReactions.rows ∧ (r.messageId = messageId → r.userId = userId → r.reaction ≠ key) := by
  unfold withoutReaction Table.delete
  rw [Table.mem_deleteWhere, decide_eq_false_iff_not]
  refine and_congr_right fun _ => ?_
  constructor
  · rintro hne rfl rfl rfl
    exact hne rfl
  · rintro hne hkey
    obtain ⟨hm, hkey⟩ := Prod.mk.inj hkey
    obtain ⟨hu, hr⟩ := Prod.mk.inj hkey
    exact hne hm hu hr

theorem removes_iff (h : OneKey toLowercase db) {messageId : MessageId} {userId : UserId} {reaction : String} :
    Removes toLowercase db (.unreact messageId userId reaction) ↔
      SpelledOut toLowercase db (.unreact messageId userId reaction) := by
  change ((checkUnreact db messageId userId reaction).isOk = true →
      ¬ Reacted toLowercase (after toLowercase db (.unreact messageId userId reaction)) messageId userId
        (glyph toLowercase (trim reaction))) ↔
    ((checkUnreact db messageId userId reaction).isOk = true →
      Reacted toLowercase db messageId userId (glyph toLowercase (trim reaction)) → Canonical toLowercase (trim reaction))
  rw [after_unreact]
  rcases hcheck : checkUnreact db messageId userId reaction with e | key
  · exact iff_of_true (fun hok => (by cases hok)) fun hok => (by cases hok)
  obtain rfl := checkUnreact_key hcheck
  constructor
  · -- what is there under another spelling would be left behind
    rintro hremoves - ⟨r, hr, hm, hu, hglyph⟩
    by_cases hkey : r.reaction = trim reaction
    · rw [← hkey]
      exact h.canonical r hr
    · exact absurd ⟨r, mem_withoutReaction.2 ⟨hr, fun _ _ => hkey⟩, hm, hu, hglyph⟩ (hremoves rfl)
  · rintro hspelled - ⟨r, hr, hm, hu, hglyph⟩
    obtain ⟨hr, hne⟩ := mem_withoutReaction.1 hr
    exact hne hm hu ((h.canonical r hr).eq (hspelled rfl ⟨r, hr, hm, hu, hglyph⟩) hglyph)

theorem oneKey_unreact (h : OneKey toLowercase db) {messageId : MessageId} {userId : UserId} {reaction : String} :
    OneKey toLowercase (after toLowercase db (.unreact messageId userId reaction)) := by
  rw [after_unreact]
  rcases checkUnreact db messageId userId reaction with e | key
  · exact h
  · exact h.subset fun r hr => (mem_withoutReaction.1 hr).1

theorem oneKey_step (h : OneKey toLowercase db) (call : ReactionCall) :
    Removes toLowercase db call ∧ OneKey toLowercase (after toLowercase db call) ↔ SpelledOut toLowercase db call := by
  cases call with
  | react messageId userId reaction verdict => exact (and_iff_right trivial).trans (oneKey_react_iff h)
  | unreact messageId userId reaction => exact (and_iff_left (oneKey_unreact h)).trans (removes_iff h)
  | elsewhere rest emojis =>
    exact iff_of_true ⟨trivial, h.subset fun r hr => (Table.mem_deleteWhere.1 hr).1⟩ trivial

end Keys

/-! ## Runs -/

/-- A database nobody has reacted in. -/
def unreacted (rest : Db) (emojis : Table CustomEmoji) : ReactionDb :=
  { rest with messageReactions := .empty, communityEmojis := emojis }

/-- Over every run: every emoji has one key in every state, and every removal removes it, exactly when every reaction that
is taken, and every removal of one that is there, spells the emoji it names with no capital and no space. -/
theorem one_key_iff (toLowercase : String → String) (rest : Db) (emojis : Table CustomEmoji) (calls : List ReactionCall) :
    Always (after toLowercase) (OneKey toLowercase) (unreacted rest emojis) calls ∧
      Along (after toLowercase) (Removes toLowercase) (unreacted rest emojis) calls ↔
    Along (after toLowercase) (SpelledOut toLowercase) (unreacted rest emojis) calls := by
  have hstart : OneKey toLowercase (unreacted rest emojis) := oneKey_iff.2 fun r hr => (by cases hr)
  exact always_along_iff (J := fun _ => True) (fun _ _ _ => trivial) (fun _ call _ h => oneKey_step h call) trivial hstart

/-- ana's community has a glyph for blobs, and she has written something there. -/
def blobs : ReactionDb :=
  unreacted (run Room.step (Db.empty 0) [
      .register (account ⟨1⟩ "ana"), .createCommunity ⟨5⟩ ⟨1⟩ [] [],
      .create ⟨10⟩ (some ⟨5⟩) ⟨1⟩ { name := "lounge", roomType := .text }, .post ⟨20⟩ ⟨10⟩ ⟨1⟩ "hello" false none none])
    (Table.empty.insert { communityId := ⟨5⟩, name := "blob" })

def twoBlobs : List ReactionCall :=
  [.react ⟨20⟩ ⟨1⟩ ":blob:" none, .react ⟨20⟩ ⟨1⟩ ":Blob:" none]

/-- She reacts with it twice, and it is counted twice; taking it back once in some spelling leaves it where it was. -/
theorem blob_counted_twice :
    ¬ (Always (after lowerAscii) (OneKey lowerAscii) blobs twoBlobs ∧ Along (after lowerAscii) (Removes lowerAscii) blobs twoBlobs) ∧
    reactionSummaries (run (after lowerAscii) blobs twoBlobs) ⟨20⟩ ⟨1⟩ =
      [{ reaction := ":Blob:", count := 1, me := true }, { reaction := ":blob:", count := 1, me := true }] ∧
    glyph lowerAscii ":Blob:" = glyph lowerAscii ":blob:" ∧
    ((unreact ⟨20⟩ ⟨1⟩ ":BLOB:").exec (run (after lowerAscii) blobs twoBlobs)).1 = .error (.notFound "reaction") := by
  have htally : reactionSummaries (run (after lowerAscii) blobs twoBlobs) ⟨20⟩ ⟨1⟩ =
      [{ reaction := ":Blob:", count := 1, me := true }, { reaction := ":blob:", count := 1, me := true }] := by decide +kernel
  have hglyph : glyph lowerAscii ":Blob:" = glyph lowerAscii ":blob:" := by decide +kernel
  refine ⟨fun h => ?_, htally, hglyph, by decide +kernel⟩
  have hone := (h.1.last.tally ⟨20⟩ ⟨1⟩ { reaction := ":blob:", count := 1, me := true } (by rw [htally]; exact .tail _ (.head _))).2
    { reaction := ":Blob:", count := 1, me := true } (by rw [htally]; exact .head _) hglyph
  exact absurd hone (by decide)

end Genzh.Messaging
