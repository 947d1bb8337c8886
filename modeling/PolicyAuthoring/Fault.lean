import PolicyAuthoring.Value.Literal

/-!
# Faults

Why an operation on policies has no result. `ShapeFault` says that a value does not have the shape
that its place asks for. `LoadFault` says that a file could not be made into a catalog, a selection
or a document. `Fault` joins the two with the refusal to compile a selection in which something is
missing.
-/

namespace PolicyAuthoring

/-- Why a value could not be used where it stood. -/
inductive ShapeFault where
  /-- The operation belongs to texts or mappings, and the value is of this other kind. -/
  | noOperation (kind : Value.Kind) (operation : String)
  /-- The value is not made of items. -/
  | notIterable (kind : Value.Kind)
  /-- The value is not made of entries or positions. -/
  | notSubscriptable (kind : Value.Kind)
  /-- The value has positions, and a name was asked for. -/
  | nameIsNoPosition (kind : Value.Kind)
  /-- The mapping has no entry of this name. -/
  | missingEntry (name : String)
  /-- The value cannot be a key or a member. -/
  | unhashable (kind : Value.Kind)
  /-- In a sequence read as a mapping, the element at this index is not made of items. -/
  | entryNotSequence (index : Nat)
  /-- In a sequence read as a mapping, the element at this index has this many items, not two. -/
  | entryLength (index length : Nat)
  /-- The value is none of the words of a vocabulary. -/
  | notAWord (value : Value) (vocabulary : String)
  /-- An attribute was given no identifier. -/
  | emptyId
  /-- The attribute with this identifier was given no name. -/
  | unnamed (id : Value)
  /-- There are no references of this kind. -/
  | unknownReferences (kind : Value)
  /-- Two values have no order. -/
  | unordered (left right : Value.Kind)
  /-- The item at this index of an enumeration in a sentence is not a text. -/
  | itemNotText (index : Nat) (kind : Value.Kind)
  /-- A value of this kind cannot end a sentence that has begun. -/
  | notText (kind : Value.Kind)
  /-- A text cannot follow a value of this kind. -/
  | notExtensible (kind : Value.Kind)
  /-- Values of this kind have no JSON form. -/
  | notWritable (kind : Value.Kind)
  /-- Values of this kind cannot name a member of a JSON object. -/
  | notAMemberName (kind : Value.Kind)
  /-- A date or time that does not exist. -/
  | calendar (fault : CalendarFault)
  /-- The text is no integer in this base. -/
  | notAnInteger (base : Nat) (text : String)
  /-- The text is no float. -/
  | notAFloat (text : String)
  /-- The text is no truth value. -/
  | unknownWord (word : CodePoints)
  /-- A text has no character at the position asked for. -/
  | noSuchCharacter
  /-- A list has no item at the position asked for. -/
  | noSuchItem
  /-- The clock stands at infinity. -/
  | infiniteClock
  /-- The clock stands at no number. -/
  | undefinedClock

/-- The text of an impossible date or time. -/
def CalendarFault.message : CalendarFault → String
  | .year number => "year " ++ decimalText number ++ " is out of range"
  | .month => "month must be in 1..12"
  | .day => "day is out of range for month"
  | .hour => "hour must be in 0..23"
  | .minute => "minute must be in 0..59"
  | .second => "second must be in 0..59"
  | .offset minutes =>
    "offset must be a timedelta strictly between -timedelta(hours=24) and " ++
      "timedelta(hours=24), not " ++ durationLiteral minutes ++ "."

/-- The text of a fault. -/
def ShapeFault.message : ShapeFault → CodePoints
  | .noOperation kind operation =>
    "'" ++ kind.name ++ "' object has no attribute '" ++ operation ++ "'"
  | .notIterable kind => "'" ++ kind.name ++ "' object is not iterable"
  | .notSubscriptable kind => "'" ++ kind.name ++ "' object is not subscriptable"
  | .nameIsNoPosition .text => "string indices must be integers, not 'str'"
  | .nameIsNoPosition kind => kind.name ++ " indices must be integers or slices, not str"
  | .missingEntry name => (Value.text name).literal
  | .unhashable kind => "unhashable type: '" ++ kind.name ++ "'"
  | .entryNotSequence index =>
    "cannot convert dictionary update sequence element #" ++ decimalText index ++ " to a sequence"
  | .entryLength index length =>
    "dictionary update sequence element #" ++ decimalText index ++ " has length " ++
      decimalText length ++ "; 2 is required"
  | .notAWord value vocabulary => value.literal ++ " is not a valid " ++ vocabulary
  | .emptyId => "Attribute id cannot be empty"
  | .unnamed id => "Attribute " ++ id.display ++ " must have a name"
  | .unknownReferences kind =>
    (Value.ofCodes ("Unknown reference kind: " ++ kind.display)).literal
  | .unordered left right =>
    "'<' not supported between instances of '" ++ left.name ++ "' and '" ++ right.name ++ "'"
  | .itemNotText index kind =>
    "sequence item " ++ decimalText index ++ ": expected str instance, " ++ kind.name ++ " found"
  | .notText kind => "can only concatenate str (not \"" ++ kind.name ++ "\") to str"
  | .notExtensible .tuple => "can only concatenate tuple (not \"str\") to tuple"
  | .notExtensible kind =>
    "unsupported operand type(s) for +=: '" ++ kind.name ++ "' and 'str'"
  | .notWritable kind => "Object of type " ++ kind.shortName ++ " is not JSON serializable"
  | .notAMemberName kind =>
    "keys must be str, int, float, bool or None, not " ++ kind.shortName
  | .calendar fault => fault.message
  | .notAnInteger base text =>
    "invalid literal for int() with base " ++ decimalText base ++ ": " ++ (Value.text text).literal
  | .notAFloat text => "could not convert string to float: " ++ (Value.text text).literal
  | .unknownWord word => (Value.ofCodes word).literal
  | .noSuchCharacter => "string index out of range"
  | .noSuchItem => "list index out of range"
  | .infiniteClock => "cannot convert float infinity to integer"
  | .undefinedClock => "cannot convert float NaN to integer"

/-- Whether the value is of the right kind and only its content is wrong. -/
def ShapeFault.isContentFault : ShapeFault → Bool
  | .entryLength .. | .notAWord .. | .emptyId | .unnamed _ | .calendar _ | .notAnInteger ..
  | .notAFloat _ =>
    true
  | _ => false

/-- Why a file could not be loaded. -/
inductive LoadFault where
  /-- The file cannot be read or is not well formed. -/
  | unreadable (path : String)
  /-- The file holds a value of this kind instead of a mapping. -/
  | notAMapping (path : String) (kind : Value.Kind)
  /-- The entry at this index of a catalog does not define an attribute. -/
  | entry (index : Nat) (cause : ShapeFault)
  /-- The file does not hold a selection. -/
  | selection (path : String) (cause : ShapeFault)
  /-- The file does not hold a document. -/
  | document (path : String) (cause : ShapeFault)

/-- The text of a load fault. -/
def LoadFault.message : LoadFault → CodePoints
  | .unreadable path => "Failed to load " ++ path
  | .notAMapping path kind =>
    path ++ ": expected a mapping at top level, got " ++ kind.shortName
  | .entry index cause =>
    "Invalid catalog attribute " ++ decimalText index ++ ": " ++ cause.message
  | .selection path cause => "Invalid selection in " ++ path ++ ": " ++ cause.message
  | .document path cause => "Invalid policy document in " ++ path ++ ": " ++ cause.message

/-- A part of a selection without which it cannot be compiled. -/
inductive Part where
  | subject | actions | resources
  deriving DecidableEq

/-- The name of a part. -/
def Part.name : Part → String
  | .subject => "subject"
  | .actions => "actions"
  | .resources => "resources"

/-- Why an operation has no result. -/
inductive Fault where
  /-- A value does not have the shape that its place asks for. -/
  | shape (cause : ShapeFault)
  /-- A file could not be loaded. -/
  | load (cause : LoadFault)
  /-- These parts of the selection are missing. -/
  | incomplete (missing : List Part)

/-- The text of a fault. -/
def Fault.message : Fault → CodePoints
  | .shape cause => cause.message
  | .load cause => cause.message
  | .incomplete missing =>
    "Incomplete selection: missing " ++ Text.joinWith ", " (missing.map Part.name)

/-- What can fail for the shape of a value can be part of any operation. -/
instance : MonadLift (Except ShapeFault) (Except Fault) := ⟨Except.mapError .shape⟩

/-- Loading can be part of any operation. -/
instance : MonadLift (Except LoadFault) (Except Fault) := ⟨Except.mapError .load⟩

end PolicyAuthoring
