import PolicyAuthoring.Compilation
import PolicyAuthoring.Explanation
import PolicyAuthoring.Hydration
import PolicyAuthoring.Json.Reader
import PolicyAuthoring.Settings

/-!
# Authoring sessions

A session holds what an author works with: the registry, the selection in progress, the document at
hand and the clock. Each step either has a reply and a new state, or a fault, and then the state
stays as it was, except that a token drawn for rule identifiers is never drawn again.
-/

namespace PolicyAuthoring

/-- The lists of a selection. -/
inductive ListField where
  | actions | resources | additionalResources
  deriving DecidableEq

/-- The tables of a selection. -/
inductive TableField where
  | subjectValues | subjectOperators | resourceValues | resourceOperators | additionalValues
  | additionalOperators
  deriving DecidableEq

namespace Selection

/-- The items of a list of a selection. -/
def list (s : Selection) : ListField → List Value
  | .actions => s.actions
  | .resources => s.resources
  | .additionalResources => s.additionalResources

/-- Replace a list of a selection. -/
def setList (s : Selection) (field : ListField) (items : List Value) : Selection :=
  match field with
  | .actions => { s with actions := items }
  | .resources => { s with resources := items }
  | .additionalResources => { s with additionalResources := items }

/-- A table of a selection. -/
def table (s : Selection) : TableField → Table Value
  | .subjectValues => s.subjectPicks.values
  | .subjectOperators => s.subjectPicks.operators
  | .resourceValues => s.resourcePicks.values
  | .resourceOperators => s.resourcePicks.operators
  | .additionalValues => s.additionalPicks.values
  | .additionalOperators => s.additionalPicks.operators

/-- Replace a table of a selection. -/
def setTable (s : Selection) (field : TableField) (table : Table Value) : Selection :=
  match field with
  | .subjectValues => { s with subjectPicks := { s.subjectPicks with values := table } }
  | .subjectOperators => { s with subjectPicks := { s.subjectPicks with operators := table } }
  | .resourceValues => { s with resourcePicks := { s.resourcePicks with values := table } }
  | .resourceOperators => { s with resourcePicks := { s.resourcePicks with operators := table } }
  | .additionalValues => { s with additionalPicks := { s.additionalPicks with values := table } }
  | .additionalOperators =>
    { s with additionalPicks := { s.additionalPicks with operators := table } }

end Selection

/-- What an author can do in a session. -/
inductive Step where
  /-- Start from a stored selection. -/
  | load (data : Value)
  /-- Take up a stored document. -/
  | openDocument (data : Value)
  /-- Name the policy. -/
  | setName (v : Value)
  /-- Describe the policy. -/
  | setDescription (v : Value)
  /-- Choose the effect. -/
  | setEffect (v : Value)
  /-- Choose the status. -/
  | setStatus (v : Value)
  /-- Choose the subject. -/
  | setSubject (v : Value)
  /-- Choose the items of a list. -/
  | setList (field : ListField) (v : Value)
  /-- Choose the entries of a table. -/
  | setTable (field : TableField) (v : Value)
  /-- Add an item to a list. -/
  | add (field : ListField) (v : Value)
  /-- Remove the first item that equals a value from a list. -/
  | remove (field : ListField) (v : Value)
  /-- Put an entry into a table. -/
  | put (field : TableField) (key v : Value)
  /-- Drop an entry from a table. -/
  | drop (field : TableField) (key : Value)
  /-- Set the clock. -/
  | setClock (clock : Clock)
  /-- Change to another registry. -/
  | setRegistry (data : Value)
  /-- Compile the selection. -/
  | compile
  /-- Store the document and read it back. -/
  | persist
  /-- Reopen the document as the selection. -/
  | hydrate
  /-- Store the selection and read it back. -/
  | reload
  /-- Show the selection. -/
  | showSelection
  /-- Show the document. -/
  | showDocument
  /-- Show the review sentence. -/
  | sentence
  /-- Show the summary of the document. -/
  | summary
  /-- Show the short summary of the document. -/
  | shortSummary (maxLength : Option Int)
  /-- Explain the rule at a position. -/
  | explain (index : Nat)

/-- What a session answers to a step. -/
inductive Reply where
  /-- A selection was taken up. -/
  | loaded
  /-- A document was taken up. -/
  | opened
  /-- The step was done. -/
  | done
  /-- The parts that the selection still lacks. -/
  | missing (parts : List Part)
  /-- The keys of a table. -/
  | keys (keys : List Value)
  /-- The identifiers of the attributes of the catalog. -/
  | attributes (ids : List Value)
  /-- The selection. -/
  | selection (s : Selection)
  /-- The document. -/
  | document (d : Document)
  /-- Whether the selection is unchanged. -/
  | unchanged (b : Bool)
  /-- A text. -/
  | text (s : CodePoints)
  /-- An explanation, if there is one. -/
  | explanation (s : Option CodePoints)

/-- The state of a session. -/
structure Session where
  /-- The registry in use. -/
  registry : Registry
  /-- The selection in progress. -/
  selection : Selection := {}
  /-- The document at hand. -/
  document : Document := { name := .text "" }
  /-- The clock. -/
  clock : Clock
  /-- How the stems of rule identifiers are made. -/
  strategy : StemStrategy
  /-- The number of tokens drawn so far. -/
  drawn : Nat := 0
  /-- The length to which a short summary is cut by default. -/
  summaryMaxLength : Int

namespace Session

/-- The stem that the next compile uses. -/
def stem (s : Session) : Stem :=
  match s.strategy with
  | .timestamp => .timestamp s.clock
  | .unique => .unique (s.drawn + 1)

/-- The state after a compile has drawn what it needs. A selection that lacks a part is refused
before anything is drawn. -/
def afterDraw (s : Session) : Session :=
  if s.strategy = .unique ∧ s.selection.isComplete then { s with drawn := s.drawn + 1 } else s

/-- Change the selection and answer with the parts it still lacks. -/
def withSelection (s : Session) (selection : Selection) : Reply × Session :=
  (.missing selection.missingParts, { s with selection })

/-- Change a table of the selection and answer with its keys. -/
def withTable (s : Session) (field : TableField) (table : Table Value) : Reply × Session :=
  (.keys (Table.keys table), { s with selection := s.selection.setTable field table })

/-- The document that results from storing a document and reading it back. -/
def stored (d : Document) : Except ShapeFault Document := do
  Document.ofValue ((Json.read? (← d.toJson)).getD .null)

/-- The reply to a step and the state after it. -/
def attempt (s : Session) : Step → Except Fault (Reply × Session)
  | .load data => do return (.loaded, { s with selection := ← Selection.ofValue data })
  | .openDocument data => do return (.opened, { s with document := ← Document.ofValue data })
  | .setName v => .ok (s.withSelection { s.selection with name := v })
  | .setDescription v => .ok (s.withSelection { s.selection with description := v })
  | .setEffect v => do
    return s.withSelection { s.selection with effect := ← Effect.ofValue v }
  | .setStatus v => do
    return s.withSelection { s.selection with status := ← Status.ofValue v }
  | .setSubject v => .ok (s.withSelection { s.selection with subject := v })
  | .setList field v => do return s.withSelection (s.selection.setList field (← v.items))
  | .setTable field v => do return s.withSelection (s.selection.setTable field (← v.entries))
  | .add field v =>
    .ok (s.withSelection (s.selection.setList field (s.selection.list field ++ [v])))
  | .remove field v =>
    .ok (s.withSelection
      (s.selection.setList field ((s.selection.list field).eraseP fun w => w.same v)))
  | .put field key v => do
    let key ← key.asKey
    return s.withTable field ((s.selection.table field).put key v)
  | .drop field key => do
    let key ← key.asKey
    return s.withTable field ((s.selection.table field).erase key)
  | .setClock clock => .ok (.done, { s with clock })
  | .setRegistry data => do
    let registry ← Registry.ofValue data
    return (.attributes (registry.catalog.attributes.map Attribute.id), { s with registry })
  | .compile => do
    let document ← s.registry.compile s.stem s.selection
    return (.document document, { s.afterDraw with document })
  | .persist => do
    let document ← stored s.document
    return (.document document, { s with document })
  | .hydrate => do
    let selection ← s.registry.catalog.hydrate s.document
    return (.selection selection, { s with selection })
  | .reload => do
    let selection ← Selection.ofValue s.selection.toValue
    return (.unchanged (selection.same s.selection), { s with selection })
  | .showSelection => .ok (.selection s.selection, s)
  | .showDocument => .ok (.document s.document, s)
  | .sentence => do return (.text (← s.registry.sentence s.selection), s)
  | .summary => do return (.text (← s.registry.summary s.document), s)
  | .shortSummary maxLength => do
    return (.text (← s.registry.shortSummary (maxLength.getD s.summaryMaxLength) s.document), s)
  | .explain index =>
    match s.document.rules[index]? with
    | some rule => .ok (.explanation (s.document.explain rule.id), s)
    | none => .error (.shape .noSuchItem)

/-- The answer to a step and the state after it. -/
def step (s : Session) (step : Step) : Except Fault Reply × Session :=
  match s.attempt step with
  | .ok (reply, next) => (.ok reply, next)
  | .error fault =>
    -- Even a compile that fails may have drawn a token.
    (.error fault, match step with
      | .compile => s.afterDraw
      | _ => s)

/-- The answers to steps done one after the other. -/
def run (s : Session) : List Step → List (Except Fault Reply)
  | [] => []
  | step :: rest =>
    let (reply, next) := s.step step
    reply :: next.run rest

end Session

end PolicyAuthoring
