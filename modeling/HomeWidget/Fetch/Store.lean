import HomeWidget.Files.Basic
import HomeWidget.Table
import HomeWidget.Text.Fingerprint

/-!
# Stores of documents

The documents of widgets are kept by id, as the bytes that came in. A store is three operations in whatever setting it
runs, each of which may fail; it gives advice and is never relied upon. Two stores are provided: a table in memory,
and a directory with one file for each id. In the directory a document is first written under a name of its own
and then renamed, so that a row is at every moment either the old document or the new one.
-/
namespace HomeWidget

/-! ## §1. Stores -/

/-- What a store was doing with a file. -/
inductive FileAction where
  | read
  | create
  | write
  | rename
  | remove
  deriving DecidableEq, Repr

/-- The name of an action. -/
def FileAction.name : FileAction → String
  | read => "read"
  | create => "create"
  | write => "write"
  | rename => "rename"
  | remove => "remove"

/-- Why a store failed. -/
inductive StorageError where
  | file (action : FileAction) (path : String) (fault : Fault)
  /-- The store itself is out of order, in words. -/
  | broken (reason : String)
  deriving DecidableEq, Repr

/-- The error, in words. -/
def StorageError.message : StorageError → String
  | file action path fault => "storage error: " ++ action.name ++ " " ++ path ++ ": " ++ fault.message
  | broken reason => "storage error: " ++ reason

/-- A store of documents by id. -/
structure RowStore (m : Type → Type) where
  get : String → m (Except StorageError (Option Bytes))
  put : String → Bytes → m (Except StorageError Unit)
  /-- Removes a row; it is no error if there is none. -/
  delete : String → m (Except StorageError Unit)

namespace RowStore

/-! ## §2. In memory -/

/-- The rows of a store in memory. -/
abbrev Rows := Table Bytes

/-- The store that is a table; it never fails. -/
def memory : RowStore (StateM Rows) where
  get id := fun rows => (.ok (rows.get? id), rows)
  put id bytes := fun rows => (.ok (), rows.insert id bytes)
  delete id := fun rows => (.ok (), rows.erase id)

/-- A store within a larger state. -/
def within {σ τ : Type} (view : τ → σ) (update : σ → τ → τ) (store : RowStore (StateM σ)) : RowStore (StateM τ) :=
  let lift {β : Type} (step : StateM σ β) : StateM τ β := fun t =>
    let (answer, s) := step (view t)
    (answer, update s t)
  { get := fun id => lift (store.get id), put := fun id bytes => lift (store.put id bytes),
    delete := fun id => lift (store.delete id) }

/-- The operations of a store. -/
inductive Operation where
  | get
  | put
  | delete
  deriving DecidableEq, Repr

/-- A store of which some operations always fail, and then do nothing. -/
def failing {m : Type → Type} [Monad m] (fails : Operation → Bool) (reason : String) (store : RowStore m) :
    RowStore m where
  get id := if fails .get then pure (.error (.broken reason)) else store.get id
  put id bytes := if fails .put then pure (.error (.broken reason)) else store.put id bytes
  delete id := if fails .delete then pure (.error (.broken reason)) else store.delete id

/-! ## §3. In a directory -/

/-- The name of the file of an id: the fingerprint of the id. -/
def rowName (id : String) : String := Fingerprint.toHex (Fingerprint.ofBytes (Utf8.ofString id)) ++ ".json"

/-- The path of the file of an id. -/
def rowPath (root id : String) : String := FilePath.join root (rowName id)

/-- The path that a document is first written to. -/
def draftPath (root id : String) : String := rowPath root id ++ ".tmp"

/-- The store that is a directory, which is made when it is first needed. -/
def directory {m : Type → Type} [Monad m] (files : FileSystem m) (root : String) : RowStore m where
  get id := do
    match ← files.read (rowPath root id) with
    | .ok bytes => pure (.ok (some bytes))
    | .error .notFound => pure (.ok none)
    | .error fault => pure (.error (.file .read (rowPath root id) fault))
  put id bytes := do
    match ← files.createAll root with
    | .error fault => pure (.error (.file .create root fault))
    | .ok () =>
      -- a write that breaks off damages the draft only; renaming it makes the row
      match ← files.write (draftPath root id) bytes with
      | .error fault => pure (.error (.file .write (draftPath root id) fault))
      | .ok () =>
        match ← files.rename (draftPath root id) (rowPath root id) with
        | .error fault => pure (.error (.file .rename (draftPath root id) fault))
        | .ok () => pure (.ok ())
  delete id := do
    match ← files.remove (rowPath root id) with
    | .ok () => pure (.ok ())
    -- what is not there need not be removed
    | .error .notFound => pure (.ok ())
    | .error fault => pure (.error (.file .remove (rowPath root id) fault))

end RowStore
end HomeWidget
