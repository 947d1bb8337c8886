import PolicyAuthoring.Document
import PolicyAuthoring.Registry
import PolicyAuthoring.Yaml.Reader

/-!
# Loading files

Catalogs, selections and documents are kept in YAML or JSON files that hold one mapping each; an
empty file counts as the empty mapping. Whatever keeps a selection or a document from being read is
a fault of the file. A catalog is read field by field, and a field of the wrong shape is the fault
of the field.
-/

namespace PolicyAuthoring

/-- Texts by the paths of their files. -/
abbrev Files := List (String × String)

namespace Files

/-- Write a text to a path. -/
def write : Files → String → String → Files
  | [], path, text => [(path, text)]
  | file :: rest, path, text =>
    if file.1 = path then (path, text) :: rest else file :: write rest path text

/-- Write a text after what a path holds. -/
def append (files : Files) (path text : String) : Files :=
  files.write path ((files.lookup path).getD "" ++ text)

/-- The mapping that a file holds. -/
def readMapping (files : Files) (path : String) : Except Fault Value :=
  match (files.lookup path).map Yaml.read with
  | none | some (.error .malformed) => .error (.load (.unreadable path))
  | some (.error (.impossible cause)) => .error (.shape cause)
  | some (.ok .null) => .ok (.mapping [])
  | some (.ok (.mapping entries)) => .ok (.mapping entries)
  | some (.ok v) => .error (.load (.notAMapping path v.kind))

/-- Load a catalog. -/
def loadCatalog (files : Files) (path : String) : Except Fault Catalog := do
  Catalog.ofValue (← files.readMapping path)

/-- Load the directory of a catalog file. -/
def loadDirectory (files : Files) (path : String) : Except Fault Directory := do
  Directory.ofValue (← files.readMapping path)

/-- Load the registry of a catalog file. -/
def loadRegistry (files : Files) (path : String) : Except Fault Registry := do
  return { catalog := ← files.loadCatalog path, directory := ← files.loadDirectory path }

/-- Load a selection. -/
def loadSelection (files : Files) (path : String) : Except Fault Selection := do
  match Selection.ofValue (← files.readMapping path) with
  | .ok s => return s
  | .error cause => throw (.load (.selection path cause))

/-- Load a document. -/
def loadDocument (files : Files) (path : String) : Except Fault Document := do
  match Document.ofValue (← files.readMapping path) with
  | .ok d => return d
  | .error cause => throw (.load (.document path cause))

/-- A file holds what was last written to it. -/
@[simp] theorem lookup_write (files : Files) (path text : String) :
    (files.write path text).lookup path = some text := by
  induction files with
  | nil => simp [write]
  | cons file rest ih =>
    obtain ⟨name, old⟩ := file
    unfold write
    split
    · simp
    · rename_i h
      have : (path == name) = false := by simpa using fun e => h e.symm
      simp [List.lookup_cons, this, ih]

/-- What is written to a file takes the place of what was written before. -/
theorem write_write (files : Files) (path first text : String) :
    (files.write path first).write path text = files.write path text := by
  induction files with
  | nil => simp [write]
  | cons file rest ih => by_cases h : file.1 = path <;> simp [write, h, ih]

/-- A file that was emptied holds what is written to it. -/
theorem append_write_empty (files : Files) (path text : String) :
    append (files.write path "") path text = files.write path text := by
  rw [append, lookup_write, Option.getD_some, String.empty_append, write_write]

/-- Writing to a path changes no other file. -/
theorem lookup_write_of_ne (files : Files) {path other : String} (text : String)
    (h : other ≠ path) : (files.write path text).lookup other = files.lookup other := by
  have hp : (other == path) = false := by simpa using h
  induction files with
  | nil => simp [write, List.lookup_cons, hp]
  | cons file rest ih =>
    obtain ⟨name, old⟩ := file
    unfold write
    split
    · rename_i e
      have : name = path := e
      simp [List.lookup_cons, this, hp]
    · simp only [List.lookup_cons, ih]

end Files

end PolicyAuthoring
