import PolicyAuthoring.Json.Writer
import PolicyAuthoring.Proofs.Value.Guarded

/-!
# Writable values

JSON has no form for sets and dates, and only scalars can name a member. `Value.writable` says of a
value that nothing of this kind is in it, and `Value.guarded_write` that exactly these values have a
JSON text.
-/

namespace PolicyAuthoring

namespace Value

/-- Whether a value can name a member of a JSON object. -/
def namesMember (v : Value) : Bool := v.kind ∈ [.null, .bool, .int, .float, .text]

mutual

/-- Whether JSON has a form for a value. -/
def writable : Value → Bool
  | .list items => writableItems items
  | .tuple items => writableItems items
  | .mapping entries => writableMembers entries
  | .set _ | .date _ | .datetime _ => false
  | _ => true
termination_by structural v => v

/-- Whether JSON has a form for all items. -/
def writableItems : List Value → Bool
  | [] => true
  | v :: rest => writable v && writableItems rest
termination_by structural vs => vs

/-- Whether JSON has a form for all members. -/
def writableMembers : List (Value × Value) → Bool
  | [] => true
  | e :: rest => writableMember e && writableMembers rest
termination_by structural es => es

/-- Whether JSON has a form for a member. -/
def writableMember : Value × Value → Bool
  | (k, v) => namesMember k && writable v
termination_by structural e => e

end

/-- A value names a member exactly if it is a scalar. -/
theorem guarded_memberName (v : Value) :
    Guarded (Json.memberName v) (v.namesMember = true) ShapeFault.IsKindFault := by
  cases v with
  | null | bool | int | float | text | unpaired =>
    exact (Guarded.ok _).congr (iff_of_true trivial rfl)
  | _ => exact ⟨nofun, fun _ => ⟨_, rfl, rfl⟩⟩

mutual

/-- A value is written as JSON exactly if JSON has a form for it. -/
theorem guarded_writeAt (level : Nat) : ∀ v : Value,
    Guarded (Json.writeAt level v) (v.writable = true) ShapeFault.IsKindFault
  | .null => (Guarded.ok _).congr (by simp [writable])
  | .bool _ => (Guarded.ok _).congr (by simp [writable])
  | .int _ => (Guarded.ok _).congr (by simp [writable])
  | .float _ => (Guarded.ok _).congr (by simp [writable])
  | .text _ => (Guarded.ok _).congr (by simp [writable])
  | .unpaired _ => (Guarded.ok _).congr (by simp [writable])
  | .list items => by
    rw [Json.writeAt, writable]
    exact (guarded_writeItems (level + 1) items).map
  | .tuple items => by
    rw [Json.writeAt, writable]
    exact (guarded_writeItems (level + 1) items).map
  | .mapping entries => by
    rw [Json.writeAt, writable]
    exact (guarded_writeMembers (level + 1) entries).map
  | .set _ => ⟨nofun, fun _ => ⟨_, rfl, rfl⟩⟩
  | .date _ => ⟨nofun, fun _ => ⟨_, rfl, rfl⟩⟩
  | .datetime _ => ⟨nofun, fun _ => ⟨_, rfl, rfl⟩⟩
termination_by structural v => v

theorem guarded_writeItems (level : Nat) : ∀ vs : List Value,
    Guarded (Json.writeItems level vs) (writableItems vs = true) ShapeFault.IsKindFault
  | [] => (Guarded.ok _).congr (by simp [writableItems])
  | v :: vs => by
    rw [Json.writeItems, writableItems, Bool.and_eq_true]
    exact (guarded_writeAt level v).bind fun _ _ => (guarded_writeItems level vs).bind_ok
termination_by structural vs => vs

theorem guarded_writeMembers (level : Nat) : ∀ es : List (Value × Value),
    Guarded (Json.writeMembers level es) (writableMembers es = true) ShapeFault.IsKindFault
  | [] => (Guarded.ok _).congr (by simp [writableMembers])
  | e :: es => by
    rw [Json.writeMembers, writableMembers, Bool.and_eq_true]
    exact (guarded_writeMember level e).bind fun _ _ => (guarded_writeMembers level es).bind_ok
termination_by structural es => es

theorem guarded_writeMember (level : Nat) : ∀ e : Value × Value,
    Guarded (Json.writeMember level e) (writableMember e = true) ShapeFault.IsKindFault
  | (k, v) => by
    rw [Json.writeMember, writableMember, Bool.and_eq_true]
    exact (guarded_memberName k).bind fun _ _ => (guarded_writeAt level v).bind_ok
termination_by structural e => e

end

/-- A value has a JSON text exactly if JSON has a form for it. -/
theorem guarded_write (v : Value) :
    Guarded (Json.write v) (v.writable = true) ShapeFault.IsKindFault :=
  guarded_writeAt 0 v

end Value

end PolicyAuthoring
