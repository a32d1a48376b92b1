import Playback.Proofs.Settings.Documents
import Playback.Store.Memory

/-! Settings in a store that is saved to, loaded from and made to fail in any order.

What a store holds after a history depends on two things alone: what it held at first, and the last
save that was not made to fail (`data_after`).
-/

set_option autoImplicit false

namespace Playback

namespace Settings

inductive Request where
  | save (settings : Settings)
  | load
  | failLoads (on : Bool)
  | failSaves (on : Bool)

namespace Request

def isSave : Request → Bool
  | save _ => true
  | _ => false

def isLoad : Request → Bool
  | load => true
  | _ => false

def perform : Request → MemoryStore → MemoryStore
  | save settings, store => (settings.save store).2
  | load, store => (Settings.load store).2
  | failLoads on, store => { store with failLoads := on }
  | failSaves on, store => { store with failSaves := on }

end Request

def after (requests : List Request) (store : MemoryStore) : MemoryStore :=
  requests.foldl (fun store request => request.perform store) store

/-- The settings of the last save of a history that is not made to fail; `failing` says whether
saves fail at its beginning. -/
def lastSaved (failing : Bool) : List Request → Option Settings
  | [] => none
  | .save settings :: rest =>
    match lastSaved failing rest with
    | some later => some later
    | none => if failing then none else some settings
  | .load :: rest | .failLoads _ :: rest => lastSaved failing rest
  | .failSaves on :: rest => lastSaved on rest

def initially (store : MemoryStore) : Except StoreError Settings :=
  match store.data.get? key with
  | none | some [] => .ok {}
  | some bytes => Store.decodeDocument bytes

section Step

variable (store : MemoryStore)

theorem load_memory : load store =
    (if store.failLoads then .error (.other "simulated load failure") else initially store,
      { store with loads := store.loads + 1 }) := by
  rw [load_eq]
  simp only [Store.load, MemoryStore.load, initially]
  by_cases failing : store.failLoads
  · simp [failing, ofAnswer]
  · rcases store.data.get? key with _ | _ | ⟨b, rest⟩ <;> simp [failing, ofAnswer]

theorem save_memory (settings : Settings) (working : store.failSaves = false) :
    settings.save store = (.ok (), { store with
      saves := store.saves + 1
      data := store.data.insert key (Store.document settings) }) := by
  simp [save, Store.saveValue, Store.save, MemoryStore.save, Store.document, working]

theorem save_memory_failing (settings : Settings) (failing : store.failSaves = true) :
    settings.save store =
      (.error (.other "simulated save failure"), { store with saves := store.saves + 1 }) := by
  simp [save, Store.saveValue, Store.save, MemoryStore.save, failing]

theorem counters_perform (request : Request) :
    (request.perform store).loads = store.loads + (if request.isLoad then 1 else 0) ∧
      (request.perform store).saves = store.saves + (if request.isSave then 1 else 0) := by
  cases request with
  | save settings =>
    cases failing : store.failSaves with
    | true => rw [Request.perform, save_memory_failing store settings failing]; exact ⟨rfl, rfl⟩
    | false => rw [Request.perform, save_memory store settings failing]; exact ⟨rfl, rfl⟩
  | load => rw [Request.perform, load_memory]; exact ⟨rfl, rfl⟩
  | failLoads on => exact ⟨rfl, rfl⟩
  | failSaves on => exact ⟨rfl, rfl⟩

end Step

def holding (data : Table String Bytes) : Option Settings → Table String Bytes
  | none => data
  | some settings => data.insert key (Store.document settings)

theorem data_after (requests : List Request) (store : MemoryStore) :
    (after requests store).data = holding store.data (lastSaved store.failSaves requests) := by
  induction requests generalizing store with
  | nil => rfl
  | cons request rest ih =>
    refine (ih (request.perform store)).trans ?_
    cases request with
    | save settings =>
      cases failing : store.failSaves with
      | true =>
        simp only [Request.perform, save_memory_failing store settings failing, lastSaved, failing]
        cases lastSaved true rest <;> rfl
      | false =>
        simp only [Request.perform, save_memory store settings failing, lastSaved, failing]
        cases lastSaved false rest with
        | none => rfl
        | some later => exact Table.insert_insert store.data key _ _
    | load => rw [Request.perform, load_memory]; rfl
    | failLoads on => rfl
    | failSaves on => rfl

theorem counters_after (requests : List Request) (store : MemoryStore) :
    (after requests store).loads = store.loads + requests.countP Request.isLoad ∧
      (after requests store).saves = store.saves + requests.countP Request.isSave := by
  induction requests generalizing store with
  | nil => exact ⟨rfl, rfl⟩
  | cons request rest ih =>
    have first := counters_perform store request
    have later := ih (request.perform store)
    simp only [List.countP_cons]
    exact ⟨by rw [after, List.foldl_cons, ← after]; omega,
      by rw [after, List.foldl_cons, ← after]; omega⟩

/-- What a store answers after a history of requests, and what the next request does to it. -/
structure Remembered (store now : MemoryStore) (requests : List Request) : Prop where
  /-- A load that is not made to fail gives the settings that were saved last, or else what the
  store held at first. -/
  load : now.failLoads = false → (Settings.load now).1 =
    match lastSaved store.failSaves requests with
    | some settings => .ok settings
    | none => initially store
  load_failing : now.failLoads = true →
    (Settings.load now).1 = .error (.other "simulated load failure")
  load_keeps : (Settings.load now).2 = { now with loads := now.loads + 1 }
  save (settings : Settings) : now.failSaves = false → (settings.save now).1 = .ok ()
  save_failing (settings : Settings) : now.failSaves = true → settings.save now =
    (.error (.other "simulated save failure"), { now with saves := now.saves + 1 })
  /-- No byte has changed but by the save that did not fail last. -/
  data : now.data =
    match lastSaved store.failSaves requests with
    | some settings => store.data.insert key (Json.pretty (Codec.encode settings))
    | none => store.data
  /-- What is loaded after a save is saved as the bytes that are there. -/
  save_again (saved loaded : Settings) : lastSaved store.failSaves requests = some saved →
    (Settings.load now).1 = .ok loaded →
      now.data.get? key = some (Json.pretty (Codec.encode loaded)) ∧
        (loaded.save (Settings.load now).2).2.data = now.data
  loads : now.loads = store.loads + requests.countP Request.isLoad
  saves : now.saves = store.saves + requests.countP Request.isSave

theorem initially_of_stored {store : MemoryStore} {settings : Settings}
    (stored : store.data.get? key = some (Store.document settings)) :
    initially store = .ok settings := by
  have nonempty := Store.document_ne_nil settings
  simp only [initially, stored]
  exact Store.decodeDocument_document settings

theorem get?_after {requests : List Request} {store : MemoryStore} {saved : Settings}
    (last : lastSaved store.failSaves requests = some saved) :
    (after requests store).data.get? key = some (Store.document saved) := by
  rw [data_after, last, holding, Table.get?_insert, if_pos rfl]

theorem data_save_of_stored {store : MemoryStore} {settings : Settings}
    (stored : store.data.get? key = some (Store.document settings)) :
    (settings.save store).2.data = store.data := by
  cases failing : store.failSaves with
  | true => rw [save_memory_failing store settings failing]
  | false =>
    rw [save_memory store settings failing]
    exact Table.insert_of_get? stored

theorem initially_after (requests : List Request) (store : MemoryStore) :
    initially (after requests store) =
      match lastSaved store.failSaves requests with
      | some settings => .ok settings
      | none => initially store := by
  cases last : lastSaved store.failSaves requests with
  | some saved => exact initially_of_stored (get?_after last)
  | none => simp only [initially, data_after, last, holding]

-- Settings survive any history of requests to any store.
theorem remembered (requests : List Request) (store : MemoryStore) :
    Remembered store (after requests store) requests where
  load working := by
    rw [load_memory, working, ← initially_after]
    rfl
  load_failing failing := by
    rw [load_memory, failing]
    rfl
  load_keeps := by rw [load_memory]
  save settings working := by rw [save_memory _ settings working]
  save_failing settings failing := save_memory_failing _ settings failing
  data := by
    rw [data_after]
    cases lastSaved store.failSaves requests <;> rfl
  save_again saved loaded last read := by
    have stored := get?_after last
    rw [load_memory] at read ⊢
    split at read
    next => cases read
    next =>
      rw [initially_of_stored stored] at read
      cases read
      exact ⟨stored, data_save_of_stored stored⟩
  loads := (counters_after requests store).1
  saves := (counters_after requests store).2

end Settings

end Playback
