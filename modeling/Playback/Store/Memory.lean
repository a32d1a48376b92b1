import Playback.Store.Basic
import Playback.Table

/-! A store in memory that counts its calls and can be told to fail. -/

set_option autoImplicit false

namespace Playback

structure MemoryStore where
  data : Table String Bytes := {}
  /-- Loads so far, failed ones included. -/
  loads : Nat := 0
  saves : Nat := 0
  failLoads : Bool := false
  failSaves : Bool := false
  deriving Repr

namespace MemoryStore

def load (key : String) (store : MemoryStore) : Except StoreError Bytes × MemoryStore :=
  let result :=
    if store.failLoads then .error (.other "simulated load failure")
    else
      match store.data.get? key with
      | some bytes => .ok bytes
      | none => .error .notFound
  (result, { store with loads := store.loads + 1 })

def save (key : String) (bytes : Bytes) (store : MemoryStore) :
    Except StoreError Unit × MemoryStore :=
  let store := { store with saves := store.saves + 1 }
  if store.failSaves then (.error (.other "simulated save failure"), store)
  else (.ok (), { store with data := store.data.insert key bytes })

def keys (store : MemoryStore) : List String :=
  store.data.keys.mergeSort fun a b => a ≤ b

end MemoryStore

instance : Store MemoryStore := ⟨MemoryStore.load, MemoryStore.save⟩

end Playback
