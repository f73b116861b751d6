import Autoflow.Failure
import Autoflow.Json.Printer
import Autoflow.Table.Ordered

/-!
# Stores of graph blobs

A `Store` holds the last blob saved for each workflow. A `BlobFiles` keeps them as pretty
printed files of a directory, one for each workflow, and reads back whatever the file holds.
-/

namespace Autoflow

/-- The blobs saved so far. -/
structure Store where
  blobs : OrderedMap WorkflowId Json := .empty
  /-- The number of saves. -/
  saves : Nat := 0
  /-- The number of attempts to save, the refused ones among them. -/
  attempts : Nat := 0

namespace Store

/-- The store without blobs. -/
def empty : Store := {}

/-- Saves the blob of a workflow. -/
def save (s : Store) (id : WorkflowId) (blob : Json) : Store :=
  { blobs := s.blobs.insert id blob, saves := s.saves + 1, attempts := s.attempts + 1 }

/-- Counts an attempt that was refused. -/
def refuse (s : Store) : Store := { s with attempts := s.attempts + 1 }

/-- The blob saved for a workflow. -/
def load? (s : Store) (id : WorkflowId) : Option Json := s.blobs.get? id

theorem load?_save (s : Store) (id other : WorkflowId) (blob : Json) :
    (s.save id blob).load? other = if id = other then some blob else s.load? other :=
  OrderedMap.get?_insert s.blobs id other blob

end Store

/-- The files of a directory, by name. -/
structure BlobFiles where
  files : OrderedMap String String := .empty

namespace BlobFiles

/-- The name of the file of a workflow. -/
def fileName (id : WorkflowId) : String := "workflow_" ++ toString id ++ ".json"

/-- Writes a text to the file of a workflow. -/
def write (f : BlobFiles) (id : WorkflowId) (text : String) : BlobFiles :=
  { files := f.files.insert (fileName id) text }

/-- The text in the file of a workflow. -/
def read? (f : BlobFiles) (id : WorkflowId) : Option String := f.files.get? (fileName id)

/-- Saves the blob of a workflow. -/
def save (f : BlobFiles) (id : WorkflowId) (blob : Json) : BlobFiles := f.write id blob.pretty

/-- The blob in the file of a workflow, nothing if there is no file. -/
def load (f : BlobFiles) (id : WorkflowId) : Except Failure (Option Json) :=
  match f.read? id with
  | none => .ok none
  | some text =>
    match Json.read text with
    | .ok v => .ok (some v)
    | .error fault => .error (.json (.text fault))

end BlobFiles

end Autoflow
