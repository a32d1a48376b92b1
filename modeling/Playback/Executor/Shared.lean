import Playback.Executor.Basic

/-! An executor that several handles share. Every handle works on the one executor; it is given back
through the last handle only. -/

set_option autoImplicit false

namespace Playback

structure SharedExecutor (T : Type) where
  executor : Executor T
  handles : Nat := 1
  handles_pos : 0 < handles := by decide

namespace SharedExecutor

variable {T : Type}

def clone (shared : SharedExecutor T) : SharedExecutor T :=
  { shared with handles := shared.handles + 1, handles_pos := Nat.succ_pos _ }

def drop? (shared : SharedExecutor T) : Option (SharedExecutor T) :=
  if h : 1 < shared.handles then
    some { shared with
      handles := shared.handles - 1
      handles_pos := Nat.sub_pos_of_lt h }
  else none

def release? (shared : SharedExecutor T) : Option (Executor T) :=
  if shared.handles = 1 then some shared.executor else none

def run [Transport T] (id : ProgramId) (options : ExecuteOptions) (shelf : Shelf)
    (shared : SharedExecutor T) : Except ExecutorError Unit × SharedExecutor T × Shelf :=
  let (outcome, executor, shelf) := shared.executor.run id options shelf
  (outcome, { shared with executor }, shelf)

def text (shared : SharedExecutor T) : String :=
  s!"ExecutorHandle \x7b handles: {shared.handles}, .. \x7d"

end SharedExecutor

end Playback
