import Playback.Store.Directory
import Playback.Store.Memory

/-! The store in a directory against the store in memory.

A valid key has a file of its own directly inside the directory, so the files are a map from valid
keys, and the two stores answer alike for as long as they hold the same under every valid key. Keys
that name no file are refused by the directory alone.
-/

set_option autoImplicit false

namespace Playback

inductive StoreCall where
  | load (key : String)
  | save (key : String) (bytes : Bytes)

namespace StoreCall

def key : StoreCall → String
  | load key => key
  | save key _ => key

variable {σ : Type} [Store σ]

def perform : StoreCall → σ → Except StoreError (Option Bytes) × σ
  | load key, store =>
    let (answer, store) := Store.load key store
    (answer.map some, store)
  | save key bytes, store =>
    let (answer, store) := Store.save key bytes store
    (answer.map fun _ => none, store)

def answers : List StoreCall → σ → List (Except StoreError (Option Bytes))
  | [], _ => []
  | call :: rest, store => (call.perform store).1 :: answers rest (call.perform store).2

end StoreCall

theorem cutAt_of_not_mem {α : Type} [DecidableEq α] {separator : α} {items : List α}
    (whole : separator ∉ items) : cutAt separator items = [items] := by
  induction items with
  | nil => rfl
  | cons item rest ih =>
    rw [List.mem_cons, not_or] at whole
    rw [cutAt, if_neg (Ne.symm whole.1), ih whole.2]

theorem Path.names_ofNames_pair {directory name : String} (single : '/' ∉ name.toList) :
    names (ofNames [directory, name]) = names directory ++ [name] := by
  have path : (ofNames [directory, name]).toList = directory.toList ++ '/' :: name.toList := by
    rw [show ofNames [directory, name] = directory ++ "/" ++ name from rfl]
    simp
  simp [names, path, cutAt_append, cutAt_of_not_mem single]

namespace DirectoryStore

theorem not_isValidKey_iff {key : String} : isValidKey key = false ↔
    key = "" ∨ '/' ∈ key.toList ∨ '\\' ∈ key.toList ∨ key = "." ∨ key = ".." := by
  simp only [isValidKey, Bool.and_eq_false_iff, Bool.not_eq_false', List.contains_iff_mem,
    decide_eq_false_iff_not, ne_eq, Decidable.not_not, or_assoc]

theorem slash_not_mem_fileName {key : String} (valid : isValidKey key = true) :
    '/' ∉ (fileName key).toList := by
  intro slash
  rw [fileName, String.toList_append, List.mem_append] at slash
  rcases slash with inKey | inSuffix
  · rw [not_isValidKey_iff.2 (.inr (.inl inKey))] at valid
    cases valid
  · revert inSuffix
    decide

-- A name with the suffix of a file is longer than the names that lead elsewhere.
theorem fileName_ne_of_length {key name : String} (short : name.length < 5) :
    fileName key ≠ name := by
  rintro rfl
  rw [fileName, String.length_append] at short
  exact absurd short (Nat.not_lt.2 (Nat.le_add_left 5 key.length))

def found : Option Bytes → Except StoreError Bytes
  | some bytes => .ok bytes
  | none => .error .notFound

section Call

variable {directory : DirectoryStore} {memory : MemoryStore} {key : String}

theorem load_invalid (invalid : isValidKey key = false) :
    load key directory = (.error (.invalidKey key), directory) := by
  simp [load, invalid]

theorem save_invalid (invalid : isValidKey key = false) (bytes : Bytes) :
    save key bytes directory = (.error (.invalidKey key), directory) := by
  simp [save, invalid]

theorem load_valid (valid : isValidKey key = true)
    (sound : (load key directory).1 ≠ .error .io) :
    load key directory = (found ((directory.files.getD {}).get? (fileName key)), directory) := by
  simp only [load, valid, Bool.not_true, Bool.false_eq_true, if_false] at sound ⊢
  split
  next refused => rw [if_pos refused] at sound; exact absurd rfl sound
  next taken =>
    rw [if_neg taken] at sound
    cases files : directory.files with
    | none => simp [found]
    | some table =>
      simp only [files] at sound ⊢
      split
      next refused => rw [if_pos refused] at sound; exact absurd rfl sound
      next => cases held : table.get? (fileName key) <;> simp [held, found]

theorem save_valid (valid : isValidKey key = true) {bytes : Bytes}
    (sound : (save key bytes directory).1 ≠ .error .io) :
    save key bytes directory = (.ok (), { directory with
      files := some ((directory.files.getD {}).insert (fileName key) bytes) }) := by
  simp only [save, valid, Bool.not_true, Bool.false_eq_true, if_false] at sound ⊢
  split
  next => rfl
  next refused => rw [if_neg refused] at sound; exact absurd rfl sound

end Call

/-- The stores hold the same under every valid key, and the one in memory does not fail. -/
structure Agrees (directory : DirectoryStore) (memory : MemoryStore) : Prop where
  loads : memory.failLoads = false
  saves : memory.failSaves = false
  same : ∀ key, isValidKey key = true →
    (directory.files.getD {}).get? (fileName key) = memory.data.get? key

section Step

variable {directory : DirectoryStore} {memory : MemoryStore}

theorem load_memory (working : memory.failLoads = false) (key : String) :
    memory.load key =
      (found (memory.data.get? key), { memory with loads := memory.loads + 1 }) := by
  simp only [MemoryStore.load, working, Bool.false_eq_true, if_false]
  cases memory.data.get? key <;> rfl

theorem save_memory (working : memory.failSaves = false) (key : String) (bytes : Bytes) :
    memory.save key bytes = (.ok (), { memory with
      saves := memory.saves + 1
      data := memory.data.insert key bytes }) := by
  simp [MemoryStore.save, working]

theorem Agrees.load (agree : Agrees directory memory) {key : String}
    (sound : (load key directory).1 ≠ .error .io) :
    (load key directory).1 =
        (if isValidKey key then (memory.load key).1 else .error (.invalidKey key)) ∧
      Agrees (load key directory).2 (memory.load key).2 := by
  rw [load_memory agree.loads]
  cases valid : isValidKey key with
  | false =>
    rw [load_invalid valid]
    exact ⟨rfl, agree.loads, agree.saves, agree.same⟩
  | true =>
    rw [load_valid valid sound, agree.same key valid]
    exact ⟨rfl, agree.loads, agree.saves, agree.same⟩

theorem Agrees.save (agree : Agrees directory memory) {key : String} {bytes : Bytes}
    (sound : (save key bytes directory).1 ≠ .error .io) :
    (save key bytes directory).1 =
        (if isValidKey key then (memory.save key bytes).1 else .error (.invalidKey key)) ∧
      Agrees (save key bytes directory).2 (memory.save key bytes).2 := by
  rw [save_memory agree.saves]
  cases valid : isValidKey key with
  | false =>
    rw [save_invalid valid]
    -- The store in memory keeps the bytes, but under a key that the directory never reads.
    refine ⟨rfl, agree.loads, agree.saves, fun other validOther => ?_⟩
    have different : other ≠ key := by
      rintro rfl
      rw [valid] at validOther
      cases validOther
    rw [Table.get?_insert, if_neg different, agree.same other validOther]
  | true =>
    rw [save_valid valid sound]
    refine ⟨rfl, agree.loads, agree.saves, fun other validOther => ?_⟩
    simp [Table.get?_insert, fileName_inj, agree.same other validOther]

-- A call with a valid key is answered alike, any other is refused; the stores stay alike.
theorem Agrees.perform (agree : Agrees directory memory) {call : StoreCall}
    (sound : (call.perform directory).1 ≠ .error .io) :
    (call.perform directory).1 =
        (if isValidKey call.key then (call.perform memory).1 else .error (.invalidKey call.key)) ∧
      Agrees (call.perform directory).2 (call.perform memory).2 := by
  cases call with
  | load key =>
    obtain ⟨same, agrees⟩ := agree.load fun fails =>
      sound (congrArg (Except.map some) fails)
    refine ⟨(congrArg (Except.map some) same).trans ?_, agrees⟩
    rw [apply_ite (Except.map some)]
    rfl
  | save key bytes =>
    obtain ⟨same, agrees⟩ := agree.save fun fails =>
      sound (congrArg (Except.map fun _ => none) fails)
    refine ⟨(congrArg (Except.map fun _ => none) same).trans ?_, agrees⟩
    rw [apply_ite (Except.map fun _ => none)]
    rfl

end Step

theorem agrees_new (base : String) : Agrees { base } {} :=
  ⟨rfl, rfl, fun _ _ => rfl⟩

theorem answers_eq {directory : DirectoryStore} {memory : MemoryStore}
    (agree : Agrees directory memory) {calls : List StoreCall}
    (sound : ∀ answer ∈ StoreCall.answers calls directory, answer ≠ .error .io) :
    StoreCall.answers calls directory =
      List.zipWith (fun call answer =>
        if isValidKey call.key then answer else .error (.invalidKey call.key))
        calls (StoreCall.answers calls memory) := by
  induction calls generalizing directory memory with
  | nil => rfl
  | cons call rest ih =>
    rw [StoreCall.answers, List.forall_mem_cons] at sound
    obtain ⟨same, agrees⟩ := agree.perform sound.1
    rw [StoreCall.answers, StoreCall.answers, List.zipWith_cons_cons, same, ih agrees sound.2]

section Any

variable (call : StoreCall) (store : DirectoryStore)

theorem perform_invalid (invalid : isValidKey call.key = false) :
    call.perform store = (.error (.invalidKey call.key), store) := by
  cases call with
  | load key =>
    have refused : load key store = (.error (.invalidKey key), store) := load_invalid invalid
    simp only [StoreCall.perform, Store.load, refused, Except.map, StoreCall.key]
  | save key bytes =>
    have refused : save key bytes store = (.error (.invalidKey key), store) :=
      save_invalid invalid bytes
    simp only [StoreCall.perform, Store.save, refused, Except.map, StoreCall.key]

theorem perform_valid (valid : isValidKey call.key = true) (key : String) :
    (call.perform store).1 ≠ .error (.invalidKey key) := by
  by_cases sound : (call.perform store).1 = .error .io
  · simp [sound]
  · cases call with
    | load own =>
      have plain : (load own store).1 ≠ .error .io := fun fails =>
        sound (congrArg (Except.map some) fails)
      simp only [StoreCall.perform, Store.load]
      rw [load_valid (show isValidKey own = true from valid) plain]
      cases (store.files.getD {}).get? (fileName own) <;> nofun
    | save own bytes =>
      have plain : (save own bytes store).1 ≠ .error .io := fun fails =>
        sound (congrArg (Except.map fun _ => none) fails)
      simp only [StoreCall.perform, Store.save]
      rw [save_valid (show isValidKey own = true from valid) plain]
      nofun

theorem base_perform : (call.perform store).2.base = store.base := by
  cases call with
  | load key => rfl
  | save key bytes =>
    simp only [StoreCall.perform, Store.save, save]
    split
    · rfl
    · split <;> rfl

theorem get?_perform_other {name : String} (other : name ≠ fileName call.key) :
    ((call.perform store).2.files.getD {}).get? name = (store.files.getD {}).get? name := by
  cases call with
  | load key => rfl
  | save key bytes =>
    simp only [StoreCall.perform, Store.save, save]
    split
    · rfl
    · split
      · exact (Table.get?_insert _ _ _ _).trans (if_neg other)
      · rfl

theorem perform_refused_iff :
    (∃ key, (call.perform store).1 = .error (.invalidKey key)) ↔
      call.key = "" ∨ '/' ∈ call.key.toList ∨ '\\' ∈ call.key.toList ∨ call.key = "." ∨
        call.key = ".." := by
  rw [← not_isValidKey_iff]
  cases valid : isValidKey call.key with
  | false => exact iff_of_true ⟨call.key, by rw [perform_invalid call store valid]⟩ rfl
  | true =>
    exact iff_of_false (fun ⟨key, refused⟩ => perform_valid call store valid key refused) nofun

end Any

def pathOf (store : DirectoryStore) (key : String) : String :=
  Path.ofNames [store.base, fileName key]

theorem pathOf_inj {store : DirectoryStore} {a b : String} :
    store.pathOf a = store.pathOf b ↔ a = b := by
  change store.base ++ "/" ++ fileName a = store.base ++ "/" ++ fileName b ↔ a = b
  rw [String.append_right_inj, fileName_inj]

-- The store in a directory is a map on its valid keys, which answers as the store in memory does
-- for as long as the file system gives no error.
theorem answers_as_memory {directory : DirectoryStore} {memory : MemoryStore}
    (agree : Agrees directory memory) (calls : List StoreCall)
    (sound : ∀ answer ∈ StoreCall.answers calls directory, answer ≠ .error .io) :
    StoreCall.answers calls directory =
        List.zipWith (fun call answer =>
          if isValidKey call.key then answer else .error (.invalidKey call.key))
          calls (StoreCall.answers calls memory) ∧
      (∀ (call : StoreCall) (store : DirectoryStore),
        ((∃ key, (call.perform store).1 = .error (.invalidKey key)) ↔
          call.key = "" ∨ '/' ∈ call.key.toList ∨ '\\' ∈ call.key.toList ∨ call.key = "." ∨
            call.key = "..") ∧
        (isValidKey call.key = false →
          call.perform store = (.error (.invalidKey call.key), store)) ∧
        (call.perform store).2.base = store.base ∧
        ∀ name, name ≠ fileName call.key →
          ((call.perform store).2.files.getD {}).get? name = (store.files.getD {}).get? name) ∧
      (∀ key, isValidKey key = true →
        Path.names (directory.pathOf key) = Path.names directory.base ++ [fileName key] ∧
          fileName key ≠ "." ∧ fileName key ≠ "..") ∧
      ∀ a b, directory.pathOf a = directory.pathOf b ↔ a = b := by
  refine ⟨answers_eq agree sound, fun call store => ⟨perform_refused_iff call store,
    perform_invalid call store, base_perform call store,
    fun name => get?_perform_other call store⟩, fun key valid => ⟨?_, ?_, ?_⟩,
    fun a b => pathOf_inj⟩
  · exact Path.names_ofNames_pair (slash_not_mem_fileName valid)
  · exact fileName_ne_of_length (by decide)
  · exact fileName_ne_of_length (by decide)

-- A key that is another one with the suffix of its file, and one that leads elsewhere.
theorem answers_of_alike_keys :
    StoreCall.answers
        [.save "a" [1], .save "a.json" [2], .save ".." [3], .load "a", .load "a.json", .load ".."]
        ({ base := "/tmp" } : DirectoryStore) =
      [.ok none, .ok none, .error (.invalidKey ".."), .ok (some [1]), .ok (some [2]),
        .error (.invalidKey "..")] :=
  (answers_as_memory (agrees_new "/tmp") _ fun answer given => by
    have listed : answer ∈ [.ok none, .ok none, .error (.invalidKey ".."), .ok (some [1]),
      .ok (some [2]), .error (.invalidKey "..")] := given
    rintro rfl
    simp at listed).1.trans rfl

end DirectoryStore

end Playback
