/-
The merge of two lists of messages, by what stands of each message: the copy delivered last, with the tally last given.
The list shown has these and no others, however they were divided; it is in the server's order unless one of them was
written at an instant that another one's, cut off, is written as.
-/
import Genzh.Client.Cache
import Genzh.Client.Instants
import Genzh.Messaging.History

namespace Genzh.Client.Cache

open Genzh.Lib Genzh.Domain Genzh.Room Genzh.Messaging Genzh.Api
open Genzh.Api.Messages (uuidText)

/-! ## What stands of a message -/

/-- The last copy of a message in a list. -/
def lastOf (l : List Message) (id : MessageId) : Option Message := (l.filter fun m => m.id = id).getLast?

/-- The tally last given: by a copy that came in, or else by the copy that was there. -/
def tallyOf (existing incoming : List Message) (id : MessageId) : List ReactionSummary :=
  (((incoming.filter fun m => m.id = id).filterMap (·.reactions)).getLast?.or
    ((lastOf existing id).bind (·.reactions))).getD []

/-- What stands of a message: the incoming version, where there is one. -/
def standing (existing incoming : List Message) (id : MessageId) : Option Message :=
  ((lastOf incoming id).map fun m => { m with reactions := some (tallyOf existing incoming id) }).or (lastOf existing id)

/-! ## Instants as they are kept -/

/-- How finely instants are kept: PostgreSQL keeps microseconds, chrono nanoseconds. -/
inductive Resolution where
  | micros
  | nanos
  deriving DecidableEq, Repr

/-- In nanoseconds. -/
def Resolution.unit : Resolution → Int
  | .micros => 1000
  | .nanos => 1

def Resolution.text (r : Resolution) (t : Timestamp) : String := rfc3339 (t * r.unit)

/-- A client in a locale with the root collation, of an API whose instants are kept so. -/
structure Reads (c : Collation) (r : Resolution) : Prop where
  collation : RootCollation c.localeCompare
  text : c.timestampText = r.text

/-- Can RFC 3339 write when a message was created? -/
def Writable (r : Resolution) (m : Message) : Prop := HasYear (m.createdAt * r.unit / 1000000000)

/-- A merge in which each message stands once, in the server's order, whatever the lists it was divided into. -/
structure MergesRight (c : Collation) (existing incoming : List Message) : Prop where
  once : ((mergeMessages c existing incoming).map (·.id)).Nodup
  all : ∀ id, id ∈ (mergeMessages c existing incoming).map (·.id) ↔ ∃ m ∈ existing ++ incoming, m.id = id
  wins : ∀ m, m ∈ mergeMessages c existing incoming ↔ standing existing incoming m.id = some m
  ordered : (mergeMessages c existing incoming).Pairwise fun a b => newestFirst b.toMessage a.toMessage = true
  idempotent : mergeMessages c (mergeMessages c existing incoming) incoming = mergeMessages c existing incoming
  undivided : ∀ existing' incoming', (∀ id, standing existing' incoming' id = standing existing incoming id) →
    mergeMessages c existing' incoming' = mergeMessages c existing incoming

/-- No message that stands was created at an instant that is another one's, cut off after the digits it has. -/
def NoneCut (r : Resolution) (existing incoming : List Message) : Prop :=
  ∀ a b : Message, standing existing incoming a.id = some a → standing existing incoming b.id = some b →
    ¬CutFrom (a.createdAt * r.unit) (b.createdAt * r.unit)

variable {c : Collation} {r : Resolution} {existing incoming : List Message} {id : MessageId} {m a b : Message}

/-! ## What the merge has of a message -/

/-- Copies absorbed one after the other: the last one, with the last tally. -/
theorem foldl_absorb (copies : List Message) (known : Option Message) :
    copies.foldl (fun previous m => some (absorb previous m)) known =
      (copies.getLast?.map fun m => { m with
        reactions := some (((copies.filterMap (·.reactions)).getLast?.or (known.bind (·.reactions))).getD []) }).or known := by
  induction copies using List.reverseRecOn with
  | nil => rfl
  | append_singleton copies m ih =>
    rw [List.foldl_append, ih, List.getLast?_concat, List.filterMap_append]
    refine congrArg some ?_
    unfold absorb
    rcases hm : m.reactions with _ | tally
    · -- a copy without a tally leaves the one before it
      have hnone : [m].filterMap (·.reactions) = [] := List.filterMap_cons_none hm
      rw [hnone, List.append_nil]
      rcases hlast : copies.getLast? with _ | last
      · rw [List.getLast?_eq_none_iff.1 hlast]
        rfl
      · rfl
    · have hsome : [m].filterMap (·.reactions) = [tally] := List.filterMap_cons_some hm
      rw [hsome, List.getLast?_concat]
      rfl

theorem foldl_last (copies : List Message) : copies.foldl (fun _ m => some m) none = copies.getLast? := by
  induction copies using List.reverseRecOn with
  | nil => rfl
  | append_singleton copies m ih =>
    rw [List.foldl_append, List.getLast?_concat]
    rfl

theorem get_byId_eq (existing incoming : List Message) (id : MessageId) :
    (byId existing incoming).get id = standing existing incoming id := by
  rw [get_byId, foldl_last, foldl_absorb]
  rfl

theorem mem_merge_iff : m ∈ mergeMessages c existing incoming ↔ standing existing incoming m.id = some m := by
  rw [mem_merge, get_byId_eq]

theorem standing_id (h : standing existing incoming id = some m) : m.id = id :=
  (of_byId ((get_byId_eq existing incoming id).trans h)).1

/-- What stands was created when one of the copies says. -/
theorem standing_createdAt (h : standing existing incoming id = some m) :
    ∃ x ∈ existing ++ incoming, x.createdAt = m.createdAt := by
  obtain ⟨-, x, hx, heq⟩ := of_byId ((get_byId_eq existing incoming id).trans h)
  exact ⟨x, hx, congrArg Genzh.Domain.Message.createdAt heq⟩

theorem lastOf_some {l : List Message} (h : lastOf l id = some m) : m ∈ l ∧ m.id = id := by
  obtain ⟨hmem, hid⟩ := List.mem_filter.1 (List.mem_of_getLast? h)
  exact ⟨hmem, of_decide_eq_true hid⟩

theorem lastOf_none {l : List Message} (h : lastOf l id = none) : ∀ m ∈ l, m.id ≠ id := by
  intro m hm hid
  have hmem : m ∈ l.filter fun m => m.id = id := List.mem_filter.2 ⟨hm, decide_eq_true hid⟩
  rw [List.getLast?_eq_none_iff.1 h] at hmem
  cases hmem

theorem lastOf_merge (c : Collation) (existing incoming : List Message) (id : MessageId) :
    lastOf (mergeMessages c existing incoming) id = standing existing incoming id := by
  rcases hlast : lastOf (mergeMessages c existing incoming) id with _ | m
  · rcases hstanding : standing existing incoming id with _ | m
    · rfl
    · obtain rfl := standing_id hstanding
      exact absurd rfl (lastOf_none hlast m (mem_merge_iff.2 hstanding))
  · obtain ⟨hmem, rfl⟩ := lastOf_some hlast
    exact (mem_merge_iff.1 hmem).symm

theorem or_some_getD {α : Type} (o p : Option (List α)) : (o.or (some ((o.or p).getD []))).getD [] = (o.or p).getD [] := by
  cases o <;> rfl

/-- A list absorbed once more gives what it has given. -/
theorem standing_again (c : Collation) (existing incoming : List Message) (id : MessageId) :
    standing (mergeMessages c existing incoming) incoming id = standing existing incoming id := by
  have htally : lastOf incoming id ≠ none →
      tallyOf (mergeMessages c existing incoming) incoming id = tallyOf existing incoming id := by
    intro hsome
    obtain ⟨m, hm⟩ := Option.ne_none_iff_exists'.1 hsome
    unfold tallyOf
    rw [lastOf_merge]
    unfold standing
    rw [hm]
    exact or_some_getD _ _
  rcases hlast : lastOf incoming id with _ | m
  · conv_lhs => rw [standing, hlast]
    exact lastOf_merge c existing incoming id
  · conv_lhs => rw [standing, hlast, htally (by rw [hlast]; exact Option.some_ne_none m)]
    conv_rhs => rw [standing, hlast]
    rfl

/-! ## The order -/

/-- What a client compares messages by. -/
def textKey (r : Resolution) (m : Message) : List Nat ×ₗ List Nat :=
  toLex (collationKey (r.text m.createdAt), collationKey (uuidText m.id.uuid))

theorem compare_le_iff (hreads : Reads c r) (ha : Writable r a) (hb : Writable r b) :
    c.compare a b ≤ 0 ↔ textKey r a ≤ textKey r b := by
  have htime := hreads.collation.neg_iff (rfc3339_spelled ha) (rfc3339_spelled hb)
  have hsame := hreads.collation.zero_iff (rfc3339_spelled ha) (rfc3339_spelled hb)
  have hid := hreads.collation.nonpos_iff (uuidText_spelled a.id.uuid) (uuidText_spelled b.id.uuid)
  unfold Collation.compare textKey
  rw [hreads.text, Prod.Lex.toLex_le_toLex]
  dsimp only
  unfold Resolution.text
  rw [← htime, ← hsame, ← hid]
  split <;> omega

/-- The identifiers tell apart what the instants do not. -/
theorem textKey_injective (h : textKey r a = textKey r b) : a.id = b.id := by
  unfold textKey at h
  obtain ⟨-, hid⟩ := Prod.mk.inj (toLex_inj.1 h)
  exact congrArg MessageId.mk ((collationKey_uuidText_eq_iff a.id.uuid b.id.uuid).1 hid)

/-- A merge of writable messages is in the order in which their texts compare. -/
theorem pairwise_merge (hreads : Reads c r) (h : ∀ m : Message, standing existing incoming m.id = some m → Writable r m) :
    (mergeMessages c existing incoming).Pairwise fun a b => textKey r a < textKey r b := by
  have hmem : ∀ m ∈ (byId existing incoming).values, Writable r m := by
    intro m hm
    exact h m (mem_merge_iff.1 ((List.mergeSort_perm _ fun a b => decide (c.compare a b ≤ 0)).mem_iff.2 hm))
  have hsort : mergeMessages c existing incoming =
      (byId existing incoming).values.mergeSort fun a b => decide (textKey r a ≤ textKey r b) := by
    have hsame := List.map_mergeSort (f := id) (r := fun a b => decide (c.compare a b ≤ 0))
      (s := fun a b => decide (textKey r a ≤ textKey r b)) (l := (byId existing incoming).values)
      fun a ha b hb => decide_eq_decide.2 (compare_le_iff hreads (hmem a ha) (hmem b hb))
    rwa [List.map_id, List.map_id] at hsame
  have hle : (mergeMessages c existing incoming).Pairwise fun a b => textKey r a ≤ textKey r b := by
    rw [hsort]
    refine (List.pairwise_mergeSort ?_ ?_ _).imp of_decide_eq_true
    · intro a b d hab hbd
      exact decide_eq_true ((of_decide_eq_true hab).trans (of_decide_eq_true hbd))
    · intro a b
      rw [Bool.or_eq_true, decide_eq_true_eq, decide_eq_true_eq]
      exact le_total _ _
  have hne := List.pairwise_map.1 (nodup_merge c existing incoming)
  exact hle.imp₂ (fun a b hle hne => hle.lt_of_ne fun heq => hne (textKey_injective heq)) hne

/-- The list shown is the same of all lists in which the same stands of each message. -/
theorem merge_eq_of_standing (hreads : Reads c r) (h : ∀ m : Message, standing existing incoming m.id = some m → Writable r m)
    {existing' incoming' : List Message} (hsame : ∀ id, standing existing' incoming' id = standing existing incoming id) :
    mergeMessages c existing' incoming' = mergeMessages c existing incoming := by
  have hirrefl : Std.Irrefl fun a b : Message => textKey r a < textKey r b := ⟨fun _ => lt_irrefl _⟩
  have hantisymm : Std.Antisymm fun a b : Message => textKey r a < textKey r b := ⟨fun _ _ hab hba => absurd hba hab.not_gt⟩
  refine List.Pairwise.eq_of_mem_iff (pairwise_merge hreads fun m hm => h m (hsame m.id ▸ hm)) (pairwise_merge hreads h) ?_
  intro m
  rw [mem_merge_iff, mem_merge_iff, hsame]

theorem Resolution.unit_pos (r : Resolution) : 0 < r.unit := by
  cases r <;> decide

/-- Where neither instant is the other cut off, the texts are in the server's order. -/
theorem newestFirst_of_textKey (ha : Writable r a) (hb : Writable r b)
    (hab : ¬CutFrom (a.createdAt * r.unit) (b.createdAt * r.unit))
    (hba : ¬CutFrom (b.createdAt * r.unit) (a.createdAt * r.unit)) (h : textKey r a < textKey r b) :
    newestFirst b.toMessage a.toMessage = true := by
  have hlt := collationKey_rfc3339_lt_iff ha hb
  have hgt := collationKey_rfc3339_lt_iff hb ha
  rw [or_iff_left hba, and_iff_left hab, mul_lt_mul_iff_of_pos_right r.unit_pos] at hlt
  rw [or_iff_left hab, and_iff_left hba, mul_lt_mul_iff_of_pos_right r.unit_pos] at hgt
  rw [newestFirst_iff]
  refine (keyOf_lt.2 ?_).le
  unfold textKey at h
  rw [Prod.Lex.toLex_lt_toLex] at h
  dsimp only at h
  rcases h with htime | ⟨htime, hid⟩
  · exact .inl (hlt.1 htime)
  · refine .inr ⟨?_, (collationKey_uuidText_lt_iff a.id.uuid b.id.uuid).1 hid⟩
    rcases lt_trichotomy a.createdAt b.createdAt with hless | hsame | hless
    · exact absurd (hlt.2 hless) htime.not_lt
    · exact hsame
    · exact absurd (hgt.2 hless) htime.not_gt

/-- Of two messages that stand, the earlier one's instant cut from the later one's, the later comes first. -/
theorem not_ordered_of_cut (hreads : Reads c r) (h : ∀ m : Message, standing existing incoming m.id = some m → Writable r m)
    (ha : standing existing incoming a.id = some a) (hb : standing existing incoming b.id = some b)
    (hcut : CutFrom (a.createdAt * r.unit) (b.createdAt * r.unit)) : ¬MergesRight c existing incoming := by
  intro hright
  have hboth : (mergeMessages c existing incoming).Pairwise fun a b =>
      (newestFirst b.toMessage a.toMessage = true ∧ textKey r a < textKey r b) ∨
        newestFirst a.toMessage b.toMessage = true ∧ textKey r b < textKey r a :=
    hright.ordered.imp₂ (fun a b hab hkey => .inl ⟨hab, hkey⟩) (pairwise_merge hreads h)
  have hsymm : Std.Symm fun a b : Message =>
      (newestFirst b.toMessage a.toMessage = true ∧ textKey r a < textKey r b) ∨
        newestFirst a.toMessage b.toMessage = true ∧ textKey r b < textKey r a := ⟨fun _ _ => Or.symm⟩
  have htime : a.createdAt < b.createdAt := (mul_lt_mul_iff_of_pos_right r.unit_pos).1 hcut.1
  have hkey : textKey r b < textKey r a := by
    have hwritten := (collationKey_rfc3339_lt_iff (h b hb) (h a ha)).2 (.inr hcut)
    unfold textKey
    rw [Prod.Lex.toLex_lt_toLex]
    dsimp only
    exact .inl hwritten
  have hne : a ≠ b := by
    rintro rfl
    exact lt_irrefl _ htime
  -- in the list they are in one order, which is not both the server's and that of the texts
  rcases hboth.forall (mem_merge_iff.2 ha) (mem_merge_iff.2 hb) hne with ⟨-, hab⟩ | ⟨hab, -⟩
  · exact hab.not_gt hkey
  · rw [newestFirst_iff] at hab
    exact absurd (keyOf_lt.2 (.inl htime)) hab.not_gt

theorem writable_of_standing (h : ∀ m ∈ existing ++ incoming, Writable r m) (hm : standing existing incoming m.id = some m) :
    Writable r m := by
  obtain ⟨x, hx, htime⟩ := standing_createdAt hm
  have hwritable := h x hx
  unfold Writable at hwritable ⊢
  rwa [← htime]

/-- The merge has each message once, and what stands of it, whatever the lists it was divided into. The order is the
server's exactly where no instant is another one's, cut off. -/
theorem mergeMessages_right_iff (hreads : Reads c r) (h : ∀ m ∈ existing ++ incoming, Writable r m) :
    MergesRight c existing incoming ↔ NoneCut r existing incoming := by
  have hstanding : ∀ m : Message, standing existing incoming m.id = some m → Writable r m :=
    fun m => writable_of_standing h
  constructor
  · intro hright a b ha hb hcut
    exact not_ordered_of_cut hreads hstanding ha hb hcut hright
  · intro hnone
    have hkeys := pairwise_merge hreads hstanding
    exact {
      once := nodup_merge c existing incoming
      all := fun _ => mem_ids_merge
      wins := fun _ => mem_merge_iff
      ordered := hkeys.imp_of_mem fun {a b} ha hb hkey =>
        have ha := mem_merge_iff.1 ha
        have hb := mem_merge_iff.1 hb
        newestFirst_of_textKey (hstanding a ha) (hstanding b hb) (hnone a b ha hb) (hnone b a hb ha) hkey
      idempotent := merge_eq_of_standing hreads hstanding (standing_again c existing incoming)
      undivided := fun _ _ => merge_eq_of_standing hreads hstanding }

/-! ## A client in the root collation -/

def rootCompare (a b : String) : Int :=
  if collationKey a < collationKey b then -1 else if collationKey a = collationKey b then 0 else 1

def rootCollation (r : Resolution) : Collation := ⟨rootCompare, r.text⟩

theorem reads_rootCollation (r : Resolution) : Reads (rootCollation r) r where
  collation := {
    neg_iff := fun {a b} _ _ => by
      change rootCompare a b < 0 ↔ _
      unfold rootCompare
      split_ifs with hlt heq <;> simp [hlt]
    zero_iff := fun {a b} _ _ => by
      change rootCompare a b = 0 ↔ _
      unfold rootCompare
      split_ifs with hlt heq
      · exact iff_of_false (by decide) hlt.ne
      · exact iff_of_true rfl heq
      · exact iff_of_false (by decide) heq }
  text := rfl

/-- A message of a room, so many microseconds after the beginning of the year 2026. -/
def messageAt (id : Uuid) (micros : Int) : Message where
  id := ⟨id⟩
  roomId := ⟨1⟩
  authorId := ⟨1⟩
  content := "hello"
  isAnonymous := false
  replyToId := none
  editedAt := none
  createdAt := 1767225600000000 + micros
  reactions := some []
  anonymousAuthor := none

/-- Within the first minute of the year. -/
theorem writable_messageAt {id : Uuid} {micros : Int} (h : 0 ≤ micros ∧ micros < 60000000) :
    Writable .micros (messageAt id micros) := by
  have hday : dayOf ((1767225600000000 + micros) * 1000 / 1000000000) = 739982 := by
    unfold dayOf
    omega
  change 0 ≤ (Genzh.Lib.Calendar.date (dayOf ((1767225600000000 + micros) * 1000 / 1000000000))).year ∧
    (Genzh.Lib.Calendar.date (dayOf ((1767225600000000 + micros) * 1000 / 1000000000))).year ≤ 9999
  rw [hday]
  decide +kernel

/-- A message on the second, and one half a second later: `…00Z` and `…00.500Z`. -/
theorem mergeMessages_half_second : Reads (rootCollation .micros) .micros ∧
    (∀ m ∈ [] ++ [messageAt 1 0, messageAt 2 500000], Writable .micros m) ∧
      ¬MergesRight (rootCollation .micros) [] [messageAt 1 0, messageAt 2 500000] := by
  have hwritable : ∀ m ∈ [] ++ [messageAt 1 0, messageAt 2 500000], Writable .micros m :=
    List.forall_mem_cons.2 ⟨writable_messageAt (by decide), List.forall_mem_singleton.2 (writable_messageAt (by decide))⟩
  have ha : standing [] [messageAt 1 0, messageAt 2 500000] ⟨1⟩ = some (messageAt 1 0) := by decide
  have hb : standing [] [messageAt 1 0, messageAt 2 500000] ⟨2⟩ = some (messageAt 2 500000) := by decide
  have hcut : CutFrom ((messageAt 1 0).createdAt * Resolution.micros.unit)
      ((messageAt 2 500000).createdAt * Resolution.micros.unit) := ⟨by decide, by decide⟩
  refine ⟨reads_rootCollation _, hwritable, ?_⟩
  exact not_ordered_of_cut (reads_rootCollation _) (fun m => writable_of_standing hwritable) ha hb hcut

/-- Two messages a second apart. -/
theorem mergeMessages_right_second : MergesRight (rootCollation .micros) [] [messageAt 1 0, messageAt 2 1000000] := by
  refine (mergeMessages_right_iff (reads_rootCollation .micros) ?_).2 ?_
  · exact List.forall_mem_cons.2 ⟨writable_messageAt (by decide), List.forall_mem_singleton.2 (writable_messageAt (by decide))⟩
  · intro a b ha hb hcut
    obtain ⟨x, hx, hax⟩ := standing_createdAt ha
    obtain ⟨y, hy, hby⟩ := standing_createdAt hb
    have hsecond := hcut.second_eq
    have hless := hcut.1
    rw [← hax, ← hby] at hsecond hless
    rw [List.nil_append, List.mem_cons, List.mem_singleton] at hx hy
    -- they are in one second only if they are one and the same
    rcases hx with rfl | rfl <;> rcases hy with rfl | rfl <;> revert hsecond hless <;> decide

end Genzh.Client.Cache
