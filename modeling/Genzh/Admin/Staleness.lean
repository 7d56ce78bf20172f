/-
The job that closes resolved tickets, against the whole history of a ticket: every reply to it, every status change and
every assignment, each with its time. The job sees the column `updated_at` alone, which a status change and an assignment
move; a reply moves it only through the status, and the status of an ended ticket stays.
-/
import Genzh.Admin.Support

namespace Genzh.Admin

open Genzh.Lib Genzh.Domain Genzh.Infrastructure

/-! ## What happens to a ticket -/

section Desk

variable {I : Type} [DecidableEq I]

/-- The queue, with all that has happened to its tickets. -/
structure Desk (I : Type) where
  queue : SupportSystem I
  history : List Activity

def Desk.start (db : Db) (requests : I → SupportRequest) : Desk I := ⟨SupportSystem.start db requests, []⟩

def Desk.step (toLowercase : String → String) (d : Desk I) (e : Event I Db) : Desk I where
  queue := supportStep toLowercase d.queue e
  history := match e with
    | .turn i => ((d.queue.calls i).activity d.queue.store).toList ++ d.history
    | .outside _ => d.history

end Desk

/-! ## What the job is to close -/

def StdDuration.inNanos (d : StdDuration) : Int := d.secs * 1000000000 + d.nanos

/-- Is the time no further back than this? -/
def Within (staleAfter : StdDuration) (now time : Timestamp) : Prop := (now - time) * 1000 ≤ staleAfter.inNanos

section Job

variable {I : Type}

/-- Has nothing happened to the ticket for so long? -/
def Quiet (staleAfter : StdDuration) (d : Desk I) (id : Uuid) : Prop :=
  ∀ a ∈ d.history, a.ticket = id → ¬Within staleAfter d.queue.store.now a.time

/-- Does the job take the ticket in? -/
def takenIn (now : Timestamp) (staleAfter : StdDuration) (t : Ticket) : Bool :=
  (staleInterval now staleAfter).any fun after => stale now after t

/-- A run of the job closes the tickets that are resolved and have been quiet for so long, and no others. -/
def ClosesQuiet (toLowercase : String → String) (d : Desk I) : Event I Db → Prop
  | .turn i => ∀ staleAfter, d.queue.calls i = .asked (.autoCloseStale staleAfter) →
      ∀ t ∈ d.queue.store.supportTickets.rows, t.status ≠ .closed →
        ((((d.queue.calls i).advance toLowercase d.queue.store).2.supportTickets.find t.id).any (·.status = .closed) = true ↔
          t.status = .resolved ∧ Quiet staleAfter d t.id)
  | .outside _ => True

/-- No ticket that a run of the job takes in was replied to within the time, and what moved the column last is not within
it either. -/
def SeesActivity (d : Desk I) : Event I Db → Prop
  | .turn i => ∀ staleAfter, d.queue.calls i = .asked (.autoCloseStale staleAfter) →
      ∀ t ∈ d.queue.store.supportTickets.rows, takenIn d.queue.store.now staleAfter t = true →
        (∀ a ∈ d.history, a.ticket = t.id → a.kind = .reply → ¬Within staleAfter d.queue.store.now a.time) ∧
          ¬Within staleAfter d.queue.store.now t.updatedAt
  | .outside _ => True

/-- The clock of the database is not set back, and shows what chrono can read. -/
def Ticks (d : Desk I) : Event I Db → Prop
  | .outside db => d.queue.store.now ≤ db.now ∧ db.now < Timestamp.endUtc
  | .turn _ => True

instance decidableTicks : ∀ (d : Desk I) (e : Event I Db), Decidable (Ticks d e)
  | _, .outside _ => inferInstanceAs (Decidable (_ ∧ _))
  | _, .turn _ => .isTrue trivial

instance (staleAfter : StdDuration) (now time : Timestamp) : Decidable (Within staleAfter now time) :=
  inferInstanceAs (Decidable (_ ≤ _))

end Job

/-! ## The column and the history -/

section History

variable {toLowercase : String → String} {db : SupportDb} {call : SupportCall} {history : List Activity} {now time : Timestamp}
  {staleAfter : StdDuration} {t : Ticket}

/-- The column is no earlier than what has moved it, and for a resolved ticket it is the last time that something did. -/
structure Recorded (history : List Activity) (t : Ticket) : Prop where
  least : Timestamp.minColumn ≤ t.updatedAt
  latest : ∀ a ∈ history, a.ticket = t.id → a.kind = .change → a.time ≤ t.updatedAt
  moved : t.status = .resolved → ⟨t.id, .change, t.updatedAt⟩ ∈ history

/-- What a statement adds to the history. -/
def SupportCall.addsTo (call : SupportCall) (db : SupportDb) (history : List Activity) : List Activity :=
  (call.activity db).toList ++ history

theorem mem_addsTo {a : Activity} : a ∈ call.addsTo db history ↔ call.activity db = some a ∨ a ∈ history := by
  unfold SupportCall.addsTo
  rw [List.mem_append, Option.mem_toList]

theorem activity_cases {a : Activity} (h : call.activity db = some a) : a.time = db.now := by
  rcases tickets_advance id call db with ⟨-, hreply⟩ | ⟨_, _, _, _, _, _, -, hnone, -⟩ | ⟨_, _, hsome, -⟩ | ⟨_, hnone, -⟩ |
    ⟨_, _, hcall | ⟨_, _, hcall, -⟩, -⟩
  · exact (hreply a h).2
  · rw [hnone] at h
    cases h
  · rw [hsome] at h
    exact Option.some.inj h ▸ rfl
  · rw [hnone] at h
    cases h
  · subst hcall
    exact Option.some.inj h ▸ rfl
  · subst hcall
    exact Option.some.inj h ▸ rfl

/-- A ticket that a statement has just moved. -/
theorem recorded_of_updatedAt (hleast : Timestamp.minColumn ≤ db.now) (hpast : ∀ a ∈ history, a.time ≤ db.now)
    (htime : t.updatedAt = db.now) (hmoved : t.status = .resolved → call.activity db = some ⟨t.id, .change, db.now⟩) :
    Recorded (call.addsTo db history) t where
  least := htime ▸ hleast
  latest a ha _ _ := by
    rw [htime]
    rcases mem_addsTo.1 ha with ha | ha
    · exact (activity_cases ha).le
    · exact hpast a ha
  moved hresolved := by
    rw [htime]
    exact mem_addsTo.2 (.inl (hmoved hresolved))

/-- A ticket that a statement does not touch. -/
theorem recorded_of_same (h : Recorded history t) (hother : ∀ a, call.activity db = some a → a.ticket = t.id → a.kind ≠ .change) :
    Recorded (call.addsTo db history) t where
  least := h.least
  latest a ha hticket hkind := by
    rcases mem_addsTo.1 ha with ha | ha
    · exact absurd hkind (hother a ha hticket)
    · exact h.latest a ha hticket hkind
  moved hresolved := mem_addsTo.2 (.inr (h.moved hresolved))

/-- The column keeps up with the history. -/
theorem recorded_advance (toLowercase : String → String) (call : SupportCall) (hleast : Timestamp.minColumn ≤ db.now)
    (hpast : ∀ a ∈ history, a.time ≤ db.now) (h : ∀ t ∈ db.supportTickets.rows, Recorded history t) :
    ∀ t ∈ (call.advance toLowercase db).2.supportTickets.rows, Recorded (call.addsTo db history) t := by
  -- a row that a statement writes over, and the others
  have hupdate : ∀ (id : Uuid) (f : Ticket → Ticket) (hf : ∀ t, key (f t) = key t), (∀ t, (f t).updatedAt = db.now) →
      call.activity db = some ⟨id, .change, db.now⟩ →
      ∀ t ∈ (db.supportTickets.update id f hf).rows, Recorded (call.addsTo db history) t := by
    intro id f hf htime hactivity t ht
    rcases (Table.mem_update db.supportTickets id f hf).1 ht with ⟨t, -, hid, rfl⟩ | ⟨ht, hid⟩
    · refine recorded_of_updatedAt hleast hpast (htime t) fun _ => ?_
      rw [hactivity, ← hid, ← hf t]
      rfl
    · refine recorded_of_same (h t ht) fun a ha hticket => ?_
      rw [hactivity] at ha
      obtain rfl := Option.some.inj ha
      exact absurd hticket.symm hid
  rcases tickets_advance toLowercase call db with ⟨hsame, hreply⟩ | ⟨id, reporter, input, category, subject, details, -, hnone, hins⟩ |
    ⟨id, assignee, hactivity, hass⟩ | ⟨after, hnone, hclosed⟩ | ⟨id, status, hcall, hwrite⟩
  · rw [hsame]
    intro t ht
    refine recorded_of_same (h t ht) fun a ha _ => ?_
    rw [(hreply a ha).1]
    decide
  · rw [hins]
    intro t ht
    rcases Table.mem_insert.1 ht with ht | ⟨rfl, -⟩
    · refine recorded_of_same (h t ht) fun a ha => ?_
      rw [hnone] at ha
      cases ha
    · exact recorded_of_updatedAt hleast hpast rfl fun hresolved => (by cases hresolved)
  · rw [hass]
    exact hupdate id _ _ (fun _ => rfl) hactivity
  · rw [hclosed]
    intro t ht
    obtain ⟨r, hr, rfl⟩ := List.mem_map.1 ht
    split
    · exact recorded_of_updatedAt hleast hpast rfl fun hresolved => (by cases hresolved)
    · refine recorded_of_same (h r hr) fun a ha => ?_
      rw [hnone] at ha
      cases ha
  · rw [hwrite]
    refine hupdate id (withStatus db.now status) (fun _ => rfl) (fun _ => rfl) ?_
    rcases hcall with rfl | ⟨role, message, rfl, -⟩ <;> rfl

/-! ## The cutoff -/

theorem asSecs_of_lt (h : staleAfter.secs < 2 ^ 63) : staleAfter.asSecs = staleAfter.secs := by
  unfold StdDuration.asSecs
  rw [BitVec.toInt_ofNat']
  exact Int.bmod_eq_of_le (by omega) (by omega)

/-- What a clock shows leaves room for the cutoff of every duration that has passed since a time it showed. -/
theorem cutoff_bounds {now time : Int} {secs nanos : Nat} (hleast : -210866803200 * 1000000 ≤ time)
    (hnow : now < 8210266876800 * 1000000) (h : secs * 1000000000 + nanos < (now - time) * 1000) :
    secs < 2 ^ 63 ∧ ((secs : Int) * 1000000).natAbs < 2 ^ 63 ∧ -210866803200 * 1000000 ≤ now - secs * 1000000 ∧
      now - secs * 1000000 < 9224318016000 * 1000000 ∧ time < now - secs * 1000000 := by
  omega

theorem not_within_of_before {now time : Int} {secs : Nat} (h : time < now - secs * 1000000) :
    ¬(now - time) * 1000 ≤ secs * 1000000000 + (0 : Nat) := by
  omega

/-- A resolved ticket that was moved last before the time is taken in. -/
theorem takenIn_of_not_within (hresolved : t.status = .resolved) (hleast : Timestamp.minColumn ≤ t.updatedAt)
    (hnow : now < Timestamp.endUtc) (h : ¬Within staleAfter now t.updatedAt) : takenIn now staleAfter t = true := by
  unfold Within StdDuration.inNanos at h
  obtain ⟨hsecs, hinterval, hlow, hhigh, hbefore⟩ := cutoff_bounds hleast hnow (not_le.1 h)
  have hseconds : Duration.seconds staleAfter.asSecs = staleAfter.secs * 1000000 := by
    unfold Duration.seconds
    rw [asSecs_of_lt hsecs]
  have habs : |((staleAfter.secs : Int) * 1000000)| < 2 ^ 63 := by
    rw [Int.abs_eq_natAbs]
    exact_mod_cast hinterval
  unfold takenIn staleInterval
  simp only [hseconds]
  rw [if_pos ⟨habs, hlow, hhigh⟩, Option.any_some]
  unfold stale
  rw [Bool.and_eq_true, decide_eq_true_eq, decide_eq_true_eq]
  exact ⟨hresolved, hbefore⟩

theorem resolved_of_takenIn (h : takenIn now staleAfter t = true) : t.status = .resolved := by
  unfold takenIn at h
  rw [Option.any_eq_true] at h
  obtain ⟨after, -, hstale⟩ := h
  exact resolved_of_stale hstale

/-- Of a duration of whole seconds that fits an `i64`, nothing is cut off. -/
theorem not_within_of_takenIn (hnanos : staleAfter.nanos = 0) (hsecs : staleAfter.secs < 2 ^ 63)
    (h : takenIn now staleAfter t = true) : ¬Within staleAfter now t.updatedAt := by
  unfold takenIn at h
  rw [Option.any_eq_true] at h
  obtain ⟨after, hafter, hstale⟩ := h
  unfold staleInterval at hafter
  simp only [Option.ite_none_right_eq_some, Option.some_inj] at hafter
  obtain ⟨-, rfl⟩ := hafter
  unfold stale Duration.seconds at hstale
  rw [asSecs_of_lt hsecs, Bool.and_eq_true, decide_eq_true_eq, decide_eq_true_eq] at hstale
  unfold Within StdDuration.inNanos
  rw [hnanos]
  exact not_within_of_before hstale.2

end History

/-! ## Runs -/

section Runs

variable {I : Type} [DecidableEq I] {toLowercase : String → String} {d : Desk I} {e : Event I Db}

/-- The clock shows what the database can keep, nothing has happened after it, and the columns keep up. -/
structure Kept (d : Desk I) : Prop where
  least : Timestamp.minColumn ≤ d.queue.store.now
  most : d.queue.store.now < Timestamp.endUtc
  past : ∀ a ∈ d.history, a.time ≤ d.queue.store.now
  rows : ∀ t ∈ d.queue.store.supportTickets.rows, Recorded d.history t

theorem now_advance (call : SupportCall) (db : SupportDb) : (call.advance toLowercase db).2.now = db.now := by
  cases call with
  | asked r =>
    cases r <;> simp only [SupportCall.advance]
    case «open» => split <;> [rfl; (split <;> [rfl; split <;> rfl])]
    case reply => split <;> [rfl; split <;> rfl]
    case assign => split <;> rfl
    case setStatus => split <;> rfl
    case autoCloseStale => split <;> rfl
  | found ticket id caller role body staffOnly =>
    simp only [SupportCall.advance]
    split <;> [rfl; split <;> rfl]
  | posted ticketId role message => rfl
  | moving ticketId status => rfl
  | reloading ticketId => rfl
  | answered result => rfl

theorem kept_step (h : Kept d) (he : Ticks d e) : Kept (d.step toLowercase e) := by
  cases e with
  | outside db =>
    exact ⟨h.least.trans he.1, he.2, fun a ha => (h.past a ha).trans he.1, h.rows⟩
  | turn i =>
    have hnow : ((d.queue.calls i).advance toLowercase d.queue.store).2.now = d.queue.store.now :=
      now_advance (d.queue.calls i) d.queue.store
    refine ⟨?_, ?_, fun a ha => ?_, recorded_advance toLowercase (d.queue.calls i) h.least h.past h.rows⟩
    · exact hnow ▸ h.least
    · exact hnow ▸ h.most
    · change a.time ≤ ((d.queue.calls i).advance toLowercase d.queue.store).2.now
      rw [hnow]
      rcases mem_addsTo.1 ha with ha | ha
      · exact (activity_cases ha).le
      · exact h.past a ha

/-- What the job leaves of a ticket that has not been closed. -/
theorem closed_iff_takenIn {db : SupportDb} {staleAfter : StdDuration} {t : Ticket} (ht : t ∈ db.supportTickets.rows)
    (hopen : t.status ≠ .closed) :
    ((((SupportCall.asked (.autoCloseStale staleAfter)).advance toLowercase db).2.supportTickets.find t.id).any
      (·.status = .closed) = true ↔ takenIn db.now staleAfter t = true) := by
  have hfind : db.supportTickets.find t.id = some t := Table.mem_iff_find.1 ht
  unfold takenIn
  simp only [SupportCall.advance]
  rcases staleInterval db.now staleAfter with _ | after
  · change (db.supportTickets.find t.id).any _ = true ↔ _
    rw [hfind]
    simpa using hopen
  · change ((autoClosed after db).supportTickets.find t.id).any _ = true ↔ _
    unfold autoClosed
    rw [Table.find_updateWhere, hfind, Option.map_some, Option.any_some, Option.any_some]
    split
    · rename_i hstale
      simp [hstale]
    · rename_i hstale
      simpa [hstale] using hopen

omit [DecidableEq I] in
/-- A run of the job is right exactly where the column has seen what the tickets it takes in have been through. -/
theorem closesQuiet_iff (h : Kept d) : ClosesQuiet toLowercase d e ↔ SeesActivity d e := by
  cases e with
  | outside db => exact Iff.rfl
  | turn i =>
    unfold ClosesQuiet SeesActivity
    refine forall_congr' fun staleAfter => forall_congr' fun hcall => forall₂_congr fun t ht => ?_
    have hrow := h.rows t ht
    rw [hcall]
    constructor
    · intro hright htaken
      have hresolved := resolved_of_takenIn htaken
      have hopen : t.status ≠ .closed := by
        rw [hresolved]
        decide
      obtain ⟨-, hquiet⟩ := (hright hopen).1 ((closed_iff_takenIn ht hopen).2 htaken)
      exact ⟨fun a ha hticket _ => hquiet a ha hticket, hquiet _ (hrow.moved hresolved) rfl⟩
    · intro hsees hopen
      rw [closed_iff_takenIn ht hopen]
      constructor
      · intro htaken
        obtain ⟨hreplies, hmoved⟩ := hsees htaken
        refine ⟨resolved_of_takenIn htaken, fun a ha hticket => ?_⟩
        rcases hkind : a.kind with _ | _
        · exact hreplies a ha hticket hkind
        · -- what has moved the column is no later than the column
          intro hwithin
          refine hmoved (le_trans ?_ hwithin)
          have hle := hrow.latest a ha hticket hkind
          change ((d.queue.store.now : Int) - t.updatedAt) * 1000 ≤ ((d.queue.store.now : Int) - a.time) * 1000
          exact Int.mul_le_mul_of_nonneg_right (Int.sub_le_sub_left hle _) (by decide)
      · rintro ⟨hresolved, hquiet⟩
        exact takenIn_of_not_within hresolved hrow.least h.most (hquiet _ (hrow.moved hresolved) rfl)

/-- Every run of the job closes the resolved tickets to which nothing has happened for the time, and no others, exactly if
no ticket that it takes in was replied to within the time, or moved in what the duration has beyond whole seconds of an
`i64`. -/
theorem autoClose_quiet_iff (toLowercase : String → String) (db : Db) (requests : I → SupportRequest) (es : List (Event I Db))
    (hclock : Timestamp.minColumn ≤ db.now ∧ db.now < Timestamp.endUtc)
    (hticks : Along (Desk.step toLowercase) Ticks (Desk.start db requests) es) :
    Along (Desk.step toLowercase) (ClosesQuiet toLowercase) (Desk.start db requests) es ↔
      Along (Desk.step toLowercase) SeesActivity (Desk.start db requests) es :=
  along_congr_of_along (J := Kept) (fun _ _ => kept_step) (fun _ _ h _ => closesQuiet_iff h)
    ⟨hclock.1, hclock.2, List.forall_mem_nil _, fun t ht => (by cases ht)⟩ hticks

end Runs

/-! ## A reply to a resolved ticket -/

def daysLater (n : Int) : Db := { reporterOnly with now := n * 86400 * 1000000 }

def fortnight : StdDuration := ⟨14 * 86400, 0, by decide, by decide⟩

/-- `ana` raises a ticket, it is resolved, she replies to it, and the job runs. -/
def repliedTicket : Nat → SupportRequest
  | 0 => .open 7 ⟨2⟩ { kind := .help, category := "billing", subject := "a refund", details := "please" }
  | 1 => .setStatus 7 .resolved
  | 2 => .reply 8 ⟨2⟩ .user 7 "it is not there yet" false
  | _ => .autoCloseStale fortnight

/-- The ticket is resolved on the first day, she replies on the fourteenth, and the job runs on the sixteenth. -/
def repliedRun : List (Event Nat Db) :=
  [.turn 0, .turn 1, .turn 1, .turn 1, .outside (daysLater 13), .turn 2, .turn 2, .outside (daysLater 15), .turn 3]

/-- The ticket as it was resolved. -/
def resolvedTicket : Ticket :=
  { raised 0 7 ⟨2⟩ { kind := .help, category := "billing", subject := "a refund", details := "please" } "billing" "a refund"
      "please" with status := .resolved, resolvedAt := some 0 }

/-- The ticket is closed, two days after the reply. -/
theorem autoClose_after_reply :
    Along (Desk.step id) Ticks (Desk.start reporterOnly repliedTicket) repliedRun ∧
      ¬Along (Desk.step id) (ClosesQuiet id) (Desk.start reporterOnly repliedTicket) repliedRun := by
  refine ⟨by decide +kernel, fun h => ?_⟩
  have hsplit : repliedRun = repliedRun.take 8 ++ [.turn 3] := rfl
  rw [hsplit, along_append] at h
  have hclosed := (h.2.1 fortnight rfl resolvedTicket (by decide +kernel) (by decide)).1 (by decide +kernel)
  have hquiet := hclosed.2 ⟨7, .reply, 13 * 86400 * 1000000⟩ (by decide +kernel) rfl
  exact hquiet (by decide +kernel)

/-- The same run, by what the column has seen. -/
theorem autoClose_quiet_reply : Along (Desk.step id) (ClosesQuiet id) (Desk.start reporterOnly repliedTicket) repliedRun ↔
    Along (Desk.step id) SeesActivity (Desk.start reporterOnly repliedTicket) repliedRun :=
  autoClose_quiet_iff id reporterOnly repliedTicket repliedRun ⟨by decide, by decide⟩ (by decide +kernel)

end Genzh.Admin
