import Playback.Store.Basic
import Playback.Store.Path
import Playback.Table

/-! A store that keeps every key in a file of its own, directly inside one directory. -/

set_option autoImplicit false

namespace Playback

structure DirectoryStore where
  base : String
  /-- The files; none at all while the directory is missing. -/
  files : Option (Table String Bytes) := some {}
  deriving Repr

/-- Where a user's configuration directory is looked for. -/
structure UserDirectories where
  home : String
  config : Option String

namespace DirectoryStore

def userBase (user : UserDirectories) : String :=
  user.config.getD (user.home ++ "/.config") ++ "/spindle"

/-- Whether a key can name a file inside the directory. -/
def isValidKey (key : String) : Bool :=
  key ≠ "" && !key.toList.contains '/' && !key.toList.contains '\\' && key ≠ "." && key ≠ ".."

def fileName (key : String) : String :=
  key ++ ".json"

theorem fileName_inj {a b : String} : fileName a = fileName b ↔ a = b := by
  simp [fileName]

/-- Makes the directory at a path, unless the file system takes no such path. -/
def create (path : String) : Except StoreError DirectoryStore :=
  if Path.canHold path then .ok { base := Path.trim path } else .error .io

def takes (name : String) (store : DirectoryStore) : Bool :=
  Path.isPath (Path.ofNames [store.base, name])

def load (key : String) (store : DirectoryStore) : Except StoreError Bytes × DirectoryStore :=
  let name := fileName key
  let result :=
    if !isValidKey key then .error (.invalidKey key)
    else if !store.takes name then .error .io
    else
      match store.files with
      | none => .error .notFound
      | some files =>
        if !Path.isName name then .error .io
        else
          match files.get? name with
          | some bytes => .ok bytes
          | none => .error .notFound
  (result, store)

/-- Writes the file of a key. The directory is made again if it is missing, even if the file cannot
be written then. -/
def save (key : String) (bytes : Bytes) (store : DirectoryStore) :
    Except StoreError Unit × DirectoryStore :=
  let name := fileName key
  if !isValidKey key then (.error (.invalidKey key), store)
  else
    let files := store.files.getD {}
    if store.takes name && Path.isName name then
      (.ok (), { store with files := some (files.insert name bytes) })
    else (.error .io, { store with files := some files })

def remove (store : DirectoryStore) : DirectoryStore :=
  { store with files := none }

def fileNames (store : DirectoryStore) : List String :=
  (store.files.getD {}).keys.mergeSort fun a b => a ≤ b

end DirectoryStore

instance : Store DirectoryStore := ⟨DirectoryStore.load, DirectoryStore.save⟩

end Playback
