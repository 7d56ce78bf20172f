/-
The badge of a room against the mentions of its messages. The overview counts the unread messages whose text
matches a pattern with the reader's handle in it; who is notified of a message is read off its text by
`parseMentions`. Whatever the parser finds matches, and a pattern finds more: an address, a longer handle, another
character for an underscore.
-/
import Genzh.Room.ReadState

namespace Genzh.Room

open Genzh.Lib Genzh.Domain Genzh.Infrastructure Genzh.Messaging

/-- What is used of how a database folds case: the letters of ASCII. -/
def FoldsAscii (engine : TextSearch) : Prop := ∀ c : Char, c.toNat < 128 → engine.lower c = c.toLower

/-- Does the text, as the parser reads it, name this handle or everyone? -/
def namesReader (handle content : String) : Bool := mentionsEveryone content || (mentionedHandles content).contains handle

/-- Is there an `@` that begins a word, and after it, up to full stops and in either case, exactly the handle or `everyone`? -/
def Addresses (handle content : String) : Prop :=
  ∃ run, IsRun content.toList run ∧ handleIn run ≠ [] ∧ (handleIn run = "everyone".toList ∨ handleIn run = handle.toList)

/-- How many unread messages of others name the reader. -/
def mentionsNaming (db : ReadStateDb) (u : UserId) (handle : String) (r : RoomId) : Nat :=
  db.messages.count fun m => unreadFrom db u r m && namesReader handle m.content

/-- No unread message of somebody else has the pattern in it and addresses nobody the badge is for. -/
def NothingMistaken (engine : TextSearch) (db : ReadStateDb) (u : UserId) (handle : String) (r : RoomId) : Prop :=
  ∀ m ∈ db.messages.rows, unreadFrom db u r m = true → matchesMention engine handle m.content = true →
    Addresses handle m.content

/-! ## What the parser names -/

theorem namesReader_iff {handle content : String} : namesReader handle content = true ↔ Addresses handle content := by
  have hhandles : handle ∈ mentionedHandles content ↔ .user handle ∈ parseMentions content := by
    unfold mentionedHandles
    rw [List.mem_filterMap]
    constructor
    · rintro ⟨m, hm, hhandle⟩
      rcases m with _ | name
      · cases hhandle
      · cases hhandle
        exact hm
    · exact fun hm => ⟨_, hm, rfl⟩
  unfold namesReader mentionsEveryone
  rw [Bool.or_eq_true, List.contains_iff_mem, List.contains_iff_mem, hhandles, mem_parseMentions_iff, mem_parseMentions_iff]
  constructor
  · rintro (⟨run, hrun, hmention⟩ | ⟨run, hrun, hmention⟩)
    · rw [mentionOf_everyone] at hmention
      exact ⟨run, hrun, by rw [hmention]; decide, .inl hmention⟩
    · obtain ⟨hhandle, hne, -⟩ := mentionOf_user.1 hmention
      exact ⟨run, hrun, hhandle ▸ hne, .inr hhandle⟩
  · rintro ⟨run, hrun, hne, hwrites⟩
    by_cases heveryone : handleIn run = "everyone".toList
    · exact .inl ⟨run, hrun, mentionOf_everyone.2 heveryone⟩
    · have hhandle := hwrites.resolve_left heveryone
      exact .inr ⟨run, hrun, mentionOf_user.2 ⟨hhandle, hhandle ▸ hne, hhandle ▸ heveryone⟩⟩

/-! ## What a pattern matches -/

section Fold

variable {engine : TextSearch}

theorem FoldsAscii.map_letters (hascii : FoldsAscii engine) {w : List Char} (h : ∀ c ∈ w, isHandleLetter c = true) :
    w.map engine.lower = asciiLowercase w :=
  List.map_congr_left fun c hc => hascii c (isHandleLetter_ascii (h c hc))

/-- What a run writes matches the pattern made of it. -/
theorem ilike_of_run (hascii : FoldsAscii engine) {content run : List Char} (hrun : IsRun content run) :
    ilike engine content ('%' :: '@' :: (handleIn run ++ ['%'])) = true := by
  obtain ⟨before, after, rfl, -, hchars, -⟩ := hrun
  have hat : engine.lower '@' = '@' := hascii '@' (by decide)
  have hpercent : engine.lower '%' = '%' := engine.lower_of_special '%' (by decide)
  obtain ⟨hletters, hlower, -⟩ := handleIn_letters hchars
  have hpattern : (handleIn run).map engine.lower = handleIn run := by rw [hascii.map_letters hletters, hlower]
  have htext : run.map engine.lower = handleIn run ++ (run.rtakeWhile (· == '.')).map engine.lower := by
    have hfront : ∀ c ∈ run.rdropWhile (· == '.'), isHandleLetter c = true := fun c hc =>
      hchars c ((List.rdropWhile_prefix _ _).mem hc)
    conv_lhs => rw [← List.rdropWhile_append_rtakeWhile (p := (· == '.')) (l := run), List.map_append]
    rw [hascii.map_letters hfront, handleIn]
  have hescape : ∀ c ∈ '@' :: handleIn run, c ≠ '\\' := by
    rintro c hc rfl
    rcases List.mem_cons.1 hc with h | h
    · cases h
    · exact absurd (hletters _ h) (by decide)
  unfold ilike
  rw [List.map_append, List.map_cons, List.map_append, List.map_cons, List.map_cons, List.map_append, List.map_singleton,
    hat, hpercent, hpattern, htext, List.append_assoc, ← List.cons_append, ← List.cons_append, Like.like_iff]
  have hnil : Like.Matches [] [] := ⟨[], rfl, rfl⟩
  have hrest : ∀ rest, Like.Matches ['%'] rest := fun rest => by
    have hany := hnil.any_append rest
    rwa [List.append_nil] at hany
  exact ((hrest _).self hescape).any_append _

theorem matchesMention_of_addresses (hascii : FoldsAscii engine) {handle content : String} (h : Addresses handle content) :
    matchesMention engine handle content = true := by
  obtain ⟨run, hrun, -, heveryone | hhandle⟩ := h
  · have hmatch := ilike_of_run hascii hrun
    rw [heveryone] at hmatch
    exact Bool.or_eq_true_iff.2 (.inl hmatch)
  · have hmatch := ilike_of_run hascii hrun
    rw [hhandle] at hmatch
    exact Bool.or_eq_true_iff.2 (.inr hmatch)

end Fold

/-! ## The badge -/

theorem mem_overview {engine : TextSearch} {db : ReadStateDb} {u : UserId} {user : User} (huser : db.users.find u = some user)
    {row : RoomUnread} (hrow : row ∈ overview engine db u) : row = unreadRow engine db u user.handle row.roomId := by
  unfold overview at hrow
  rw [huser] at hrow
  obtain ⟨p, -, rfl⟩ := List.mem_map.1 hrow
  rfl

/-- A badge counts the unread messages that name its reader exactly if none of them matches by mistake. -/
theorem mentions_eq_iff (engine : TextSearch) (hascii : FoldsAscii engine) (db : ReadStateDb) (u : UserId) (user : User)
    (huser : db.users.find u = some user) (row : RoomUnread) (hrow : row ∈ overview engine db u) :
    row.mentions = mentionsNaming db u user.handle row.roomId ↔ NothingMistaken engine db u user.handle row.roomId := by
  have hmentions : row.mentions = db.messages.count fun m =>
      unreadFrom db u row.roomId m && matchesMention engine user.handle m.content := by
    rw [mem_overview huser hrow]
    rfl
  have hnarrow : ∀ m ∈ db.messages.rows, (unreadFrom db u row.roomId m && namesReader user.handle m.content) = true →
      (unreadFrom db u row.roomId m && matchesMention engine user.handle m.content) = true := by
    intro m _ h
    rw [Bool.and_eq_true, namesReader_iff] at h
    exact Bool.and_eq_true_iff.2 ⟨h.1, matchesMention_of_addresses hascii h.2⟩
  rw [hmentions, mentionsNaming, eq_comm, Table.count_eq_iff hnarrow]
  refine forall₂_congr fun m _ => ?_
  rw [Bool.and_eq_true, Bool.and_eq_true, namesReader_iff]
  constructor
  · exact fun h hunread hmatch => (h ⟨hunread, hmatch⟩).2
  · exact fun h hboth => ⟨hboth.1, h hboth.1 hboth.2⟩

theorem foldsAscii_asciiSearch : FoldsAscii asciiSearch := fun _ _ => rfl

/-- `ben` writes to `ana` by her handle, and her badge shows it. -/
theorem mention_counted : ∃ row ∈ overview asciiSearch (unopened "hi @Ana.") ⟨2⟩,
    row.mentions = mentionsNaming (unopened "hi @Ana.") ⟨2⟩ "ana" row.roomId := by
  have hsome : overview asciiSearch (unopened "hi @Ana.") ⟨2⟩ ≠ [] := by decide +kernel
  obtain ⟨row, hrow⟩ := List.exists_mem_of_ne_nil _ hsome
  refine ⟨row, hrow, ?_⟩
  have huser : (unopened "hi @Ana.").users.find ⟨2⟩ = some (account ⟨2⟩ "ana") := by decide +kernel
  refine (mentions_eq_iff asciiSearch foldsAscii_asciiSearch _ ⟨2⟩ _ huser row hrow).2 fun m hm _ _ => namesReader_iff.1 ?_
  have hall : ∀ m ∈ (unopened "hi @Ana.").messages.rows, namesReader "ana" m.content = true := by decide +kernel
  exact hall m hm

/-- He sends her an address, and the badge shows a mention. -/
theorem mention_mistaken : ¬∀ row ∈ overview asciiSearch (unopened "write to me@anabel.org") ⟨2⟩,
    row.mentions = mentionsNaming (unopened "write to me@anabel.org") ⟨2⟩ "ana" row.roomId := by
  decide +kernel

end Genzh.Room
