import Playback.Program.Basic
import Playback.Table

/-! The programs at hand, by identity. Identities count from one and are never given again. -/

set_option autoImplicit false

namespace Playback

structure Shelf where
  programs : Table ProgramId Program := {}
  issued : Nat := 0

namespace Shelf

/-- The program with this identity. An identity that was not given names a program
without content. -/
def get (shelf : Shelf) (id : ProgramId) : Program :=
  (shelf.programs.get? id).getD { id }

def put (shelf : Shelf) (id : ProgramId) (program : Program) : Shelf :=
  { shelf with programs := shelf.programs.insert id program }

def modify (shelf : Shelf) (id : ProgramId) (f : Program → Program) : Shelf :=
  shelf.put id (f (shelf.get id))

def add (shelf : Shelf) (builder : Builder) : ProgramId × Shelf :=
  let id := shelf.issued + 1
  (id, { programs := shelf.programs.insert id (.ofBuilder id builder), issued := id })

theorem get_put (shelf : Shelf) (id other : ProgramId) (program : Program) :
    (shelf.put id program).get other = if other = id then program else shelf.get other := by
  simp only [get, put, Table.get?_insert]
  split <;> rfl

theorem get_modify (shelf : Shelf) (id other : ProgramId) (f : Program → Program) :
    (shelf.modify id f).get other = if other = id then f (shelf.get id) else shelf.get other :=
  shelf.get_put id other _

def slot? (shelf : Shelf) (ticket : TicketId) : Option Slot :=
  shelf.programs.entries.findSome? fun (_, program) =>
    program.slots.find? fun slot => slot.ticket == ticket

end Shelf

end Playback
