import PolicyAuthoring.Value.Reading

/-!
# References

The subjects, actions, resources and additional resources that an author can refer to, with the
names under which sentences speak of them. An identifier that is not in the directory is its own
name, so that a policy can be shown with a directory that lacks some entries.
-/

namespace PolicyAuthoring

/-- Something that a policy can refer to. -/
structure Reference where
  /-- The identifier. -/
  id : Value
  /-- The name, if it has one. -/
  name : Value := .text ""
  /-- The name to display, if it has one. -/
  displayName : Value := .text ""

namespace Reference

/-- How sentences speak of a reference: by display name, else by name, else by identifier. -/
def label (r : Reference) : Value := r.displayName.orElse (r.name.orElse r.id)

/-- Read a reference. -/
def ofValue (v : Value) : Except ShapeFault Reference := do
  return {
    id := ← v.requiredField "id"
    name := (← v.field "name").orElse (.text "")
    displayName := (← v.field "displayName").orElse (.text "") }

/-- The kinds of reference. -/
inductive Kind where
  | subject | action | resource | additionalResource
  deriving DecidableEq

namespace Kind

/-- The name of the list of references of a kind. -/
def name : Kind → String
  | .subject => "subjects"
  | .action => "actions"
  | .resource => "resources"
  | .additionalResource => "additional_resources"

/-- The field of a catalog file that lists the references of a kind. -/
def field : Kind → String
  | .additionalResource => "additionalResources"
  | kind => kind.name

/-- The kind that a value names. -/
def ofValue (v : Value) : Except ShapeFault Kind := do
  match ← v.asKey with
  | .text "subjects" => return .subject
  | .text "actions" => return .action
  | .text "resources" => return .resource
  | .text "additional_resources" => return .additionalResource
  | _ => throw (.unknownReferences v)

end Kind

end Reference

/-- The references of each kind by identifier; the last entry for an identifier wins. -/
structure Directory where
  /-- The subjects. -/
  subjects : Table Reference := []
  /-- The actions. -/
  actions : Table Reference := []
  /-- The resources. -/
  resources : Table Reference := []
  /-- The additional resources. -/
  additionalResources : Table Reference := []

namespace Directory

/-- The references of a kind. -/
def table (d : Directory) : Reference.Kind → Table Reference
  | .subject => d.subjects
  | .action => d.actions
  | .resource => d.resources
  | .additionalResource => d.additionalResources

/-- The reference of a kind with an identifier. -/
def get? (d : Directory) (kind : Reference.Kind) (id : Value) : Option Reference :=
  (d.table kind).lookup id

/-- How sentences speak of an identifier. -/
def label (d : Directory) (kind : Reference.Kind) (id : Value) : Except ShapeFault Value := do
  let id ← id.asKey
  return ((d.get? kind id).map Reference.label).getD id

/-- Index references by identifier. -/
def index (references : List Reference) : Table Reference :=
  Table.ofEntries (references.map fun r => (r.id, r))

/-- Read the references of one kind from a catalog mapping. What is no mapping with an identifier
is passed over. -/
def referencesOf (v : Value) (kind : Reference.Kind) : Except ShapeFault (List Reference) := do
  let entries ← (← v.field kind.field).itemsIfPresent
  (entries.filter fun entry => entry.hasPresent "id").mapM Reference.ofValue

/-- The index of references whose identifiers can be keys. -/
def indexOf (references : List Reference) : Except ShapeFault (Table Reference) := do
  references.forM fun r => do let _ ← r.id.asKey
  return index references

/-- Read the directory from a catalog mapping. -/
def ofValue (v : Value) : Except ShapeFault Directory := do
  let subjects ← referencesOf v .subject
  let actions ← referencesOf v .action
  let resources ← referencesOf v .resource
  let additionalResources ← referencesOf v .additionalResource
  return {
    subjects := ← indexOf subjects
    actions := ← indexOf actions
    resources := ← indexOf resources
    additionalResources := ← indexOf additionalResources }

end Directory

end PolicyAuthoring
