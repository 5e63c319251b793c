import RecordStore.Backend.Basic
import RecordStore.Proofs.Moves

/-!
# What calls leave alone

Whatever the driver does, a call through a connection changes nothing of a backend but that
connection and the world that it shares with others. A part that depends on neither (`Untouched`)
is the same after every call, whether it succeeds or fails.

The named locks are such a part, and so is who has which identity (`Backend.ids`). A call that takes
or releases a named lock does not go through the driver.
-/

namespace RecordStore.Backend

variable {d : Driver} {α ω : Type} {view : Backend d → ω} {id : ConnectionId}

/-- A part of a backend that no call through a connection touches. -/
structure Untouched (view : Backend d → ω) : Prop where
  world : ∀ (b : Backend d) world, view { b with world } = view b
  setConn : ∀ (b : Backend d) id conn, view (b.setConn id conn) = view b

@[simp]
theorem ids_setConn (b : Backend d) (conn : d.Conn) : (b.setConn id conn).ids = b.ids := by
  simp only [ids, setConn, List.map_map]
  refine List.map_congr_left fun c _ => ?_
  rw [Function.comp_apply]
  split <;> rfl

namespace Untouched

variable (h : Untouched view)
include h

theorem through {tell : String → StoreError} {work : Work d.Conn d.World α} :
    (through id tell work).Moves Eq view := by
  intro b
  simp only [Backend.through, Act.perform_make]
  split
  · exact ((h.setConn ..).trans (h.world b _)).symm
  · rfl

theorem runControl {command : String} : (runControl id command).Moves Eq view := h.through

/-- Locking tables begins an exclusive transaction, or is refused. -/
theorem lockTables {names : List String} : (lockTables id names).Moves Eq view :=
  (Act.moves_read _).bind fun isOpen => by
    split
    · exact Act.moves_fail _
    · exact h.runControl

/-- Unlocking them commits it. -/
theorem unlockTables : (unlockTables id).Moves Eq view :=
  (Act.moves_read _).bind fun isOpen => by
    split
    · exact h.runControl
    · exact Act.moves_pure _

/-- Nor does a query touch it, if that does not which goes on with its rows. -/
theorem selecting {sql : String} {params : List Param} {next : List Row → Act (Backend d) α}
    (hnext : ∀ rows, (next rows).Moves Eq view) :
    (selecting id sql params next).Moves Eq view := by
  refine h.through.bind fun answer => (hnext _).attempt.bind fun r => ?_
  refine Act.Moves.bestEffort h.through |>.bind fun _ => (Act.moves_ofExcept r).bind fun a => ?_
  split
  · exact Act.moves_fail _
  · exact Act.moves_pure _

theorem select {sql : String} {params : List Param} : (select id sql params).Moves Eq view :=
  h.selecting fun _ => Act.moves_pure _

end Untouched

end RecordStore.Backend
