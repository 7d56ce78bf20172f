/-
Messages, the mentions in their text, and the rules on what one message may carry. Mentions are read
from the stored text: an `@` that begins a word, followed by the characters of a handle.
-/
import Genzh.Domain.Text
import Mathlib.Data.List.Sort

namespace Genzh.Domain

def messageMaxLen : Nat := 4000
def messagePageMax : Int := 100
def messagePageDefault : Int := 50

/-- A message posted in a room. -/
structure Message where
  id : MessageId
  roomId : RoomId
  authorId : UserId
  content : String
  replyToId : Option MessageId
  isAnonymous : Bool
  editedAt : Option Timestamp
  createdAt : Timestamp
  deriving DecidableEq, Repr

/-- Validate and trim a message body. -/
def validateMessageContent (raw : String) : Except DomainError String :=
  let content := trim raw
  if content.isEmpty then .error (.invalid "content" "must not be empty")
  else if messageMaxLen < content.length then
    .error (.invalid "content" s!"must be at most {messageMaxLen} characters")
  else .ok content

/-- Clamp a client-supplied page size into the allowed range. -/
def clampPageSize (requested : Option Int) : Int := max 1 (min (requested.getD messagePageDefault) messagePageMax)

/-! ## Mentions -/

/-- What a single `@…` refers to. -/
inductive Mention where
  | everyone
  | user (handle : String)
  deriving DecidableEq, Repr

/-- The characters of a handle, which are also those that keep a following `@` from starting a word. -/
def isHandleChar (c : Char) : Bool := c.isAlphanum || c == '_' || c == '.'

/-- The mention an `@` opens, given the text after it. A handle cannot end with a full stop. -/
def mentionAt (rest : List Char) : Option Mention :=
  let handle := asciiLowercase ((rest.takeWhile isHandleChar).rdropWhile (· == '.'))
  if handle.isEmpty then none
  else if handle = "everyone".toList then some .everyone
  else some (.user (String.ofList handle))

/-- Every mention of a text, in the order of the text, given the character before it. -/
def mentionsFrom (previous : Option Char) : List Char → List Mention
  | [] => []
  | c :: rest =>
    let here := if c = '@' ∧ ¬ previous.any isHandleChar then (mentionAt rest).toList else []
    here ++ mentionsFrom (some c) rest

/-- `Ord` of mentions: `@everyone` first, then handles by their bytes. -/
def Mention.le : Mention → Mention → Bool
  | .everyone, _ => true
  | .user _, .everyone => false
  | .user a, .user b => decide (a ≤ b)

/-- Every distinct mention in the text, in a stable order. -/
def parseMentions (content : String) : List Mention :=
  (mentionsFrom none content.toList).dedup.insertionSort fun a b => Mention.le a b

/-- Just the handles, dropping any `@everyone`. -/
def mentionedHandles (content : String) : List String :=
  (parseMentions content).filterMap fun
    | .user handle => some handle
    | .everyone => none

/-- Does this message address the whole room? -/
def mentionsEveryone (content : String) : Bool := (parseMentions content).contains .everyone

/-! ## What a single message may carry -/

def maxMentionsPerMessage : Nat := 10
def maxLinksPerMessage : Nat := 5

/-- How many `http://` or `https://` URLs the text contains. -/
def countLinks (content : String) : Nat :=
  let lower := asciiLowercase content.toList
  countMatches "http://".toList lower + countMatches "https://".toList lower

/-- Check what a single message contains. -/
def checkContent (content : String) : Except DomainError Unit :=
  if maxMentionsPerMessage < (parseMentions content).length then
    .error (.invalid "content" s!"mentions at most {maxMentionsPerMessage} people at a time")
  else if maxLinksPerMessage < countLinks content then
    .error (.invalid "content" s!"contains at most {maxLinksPerMessage} links")
  else .ok ()

/-- What is stored is trimmed, not empty and within the limit. -/
theorem validateMessageContent_ok {raw content : String} (h : validateMessageContent raw = .ok content) :
    content = trim raw ∧ content.isEmpty = false ∧ content.length ≤ messageMaxLen := by
  unfold validateMessageContent at h
  simp only [refuse_eq_ok] at h
  obtain ⟨hempty, hlength, hok⟩ := h
  cases hok
  exact ⟨rfl, Bool.eq_false_iff.2 hempty, Nat.le_of_not_lt hlength⟩

example : parseMentions "write to ana@example.com" = [] := by decide

end Genzh.Domain
