/-
Staff termination of a live room. The audit record that follows is best effort and writes nothing the
room services read.
-/
import Genzh.Room.Repository

namespace Genzh.Admin

open Genzh.Lib Genzh.Domain Genzh.Infrastructure

/-- `UPDATE rooms SET status = 'ended', ended_at = now()` of one room. -/
def closeRoom (roomId : RoomId) (db : Db) : Db :=
  let close := fun r : RoomRow => { r with status := .ended, endedAt := some db.now }
  { db with rooms := db.rooms.update roomId close fun _ => rfl }

/-- `DELETE FROM room_participants` of one room. -/
def removeParticipants (roomId : RoomId) (db : Db) : Db :=
  { db with roomParticipants := db.roomParticipants.deleteWhere fun p => p.roomId = roomId }

/-- Forcefully terminate a live media session / room. -/
def terminateSession (roomId : RoomId) : SqlM Unit := do
  let row ← Prog.read fun db => db.room roomId
  let _ ← SqlM.found "room" row
  Prog.modify (closeRoom roomId)
  Prog.modify (removeParticipants roomId)

end Genzh.Admin
