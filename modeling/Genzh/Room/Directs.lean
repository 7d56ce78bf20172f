/-
Two-person conversations. A direct room is an ordinary room of category `dm`; it is found by who is in
it rather than by name.
-/
import Genzh.Room.Service

namespace Genzh.Room

open Genzh.Lib Genzh.Domain Genzh.Infrastructure Genzh.Social

/-- The room a first message to somebody creates. -/
def directInput (userB : UserId) (targetName targetHandle : String) : CreateRoom where
  name := if targetHandle.isEmpty then s!"DM: @{targetName}" else s!"DM: @{targetHandle}"
  topic := some s!"Direct message with {targetName}"
  category := some directCategory
  roomType := .text
  visibility := some .private
  participantIds := some [userB]

/-- Find or create a direct message room between two users. The flag says whether this call created
it; `id` is the identifier it draws if it does. -/
def openDirect (id : RoomId) (userA userB : UserId) (targetName targetHandle : String) : SqlM (Room × Bool) := do
  Prog.query fun db => ensureCanReach db userA userB
  let existing ← Prog.read fun db => findDirectRoom db userA userB
  match existing with
  | some room => pure (room, false)
  | none => do
    let room ← create id none userA (directInput userB targetName targetHandle)
    pure (room, true)

end Genzh.Room
