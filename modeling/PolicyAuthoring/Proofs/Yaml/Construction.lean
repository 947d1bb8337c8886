import PolicyAuthoring.Files
import PolicyAuthoring.Proofs.Value.Fields
import PolicyAuthoring.Proofs.Value.Table
import PolicyAuthoring.Proofs.Yaml.Interchange

/-!
# Values of nodes

Whatever a YAML text writes, its value is proper: a mapping takes no key that is a list, a mapping
or a set, and there is no way to write a tuple, in which such a value could hide. Entries that are
merged in come from mappings that have refused such keys themselves.
-/

namespace PolicyAuthoring.Yaml

/-- A proper value that is no tuple. -/
structure Untupled (v : Value) : Prop where
  /-- The value is proper. -/
  proper : v.Proper
  /-- The value is no tuple. -/
  kind_ne : v.kind ≠ .tuple

/-- Entries of which a mapping can be made. -/
def ProperEntries (entries : List (Value × Value)) : Prop :=
  ∀ e ∈ entries, e.1.hashable = true ∧ e.1.Proper ∧ e.2.Proper

/-- Entries of which mappings can be made can stand in one mapping. -/
theorem ProperEntries.append {entries others : List (Value × Value)} (h : ProperEntries entries)
    (hothers : ProperEntries others) : ProperEntries (entries ++ others) :=
  List.forall_mem_append.mpr ⟨h, hothers⟩

/-- The mapping that is made of entries is proper. -/
theorem ProperEntries.mapping {entries : List (Value × Value)} (h : ProperEntries entries) :
    (Value.mapping (Table.ofEntries entries)).Proper := by
  have hkey : ∀ e ∈ Table.ofEntries entries, e.1.hashable = true ∧ e.1.Proper := by
    intro e he
    obtain ⟨f, hf, hfe⟩ := List.mem_map.mp (Table.key_of_mem_ofEntries he)
    rw [← hfe]
    exact ⟨(h f hf).1, (h f hf).2.1⟩
  refine .mapping (fun e he => (hkey e he).1) (fun e he => (hkey e he).2) fun e he => ?_
  obtain ⟨f, hf, -, hfe⟩ := Table.exists_of_mem_ofEntries he
  rw [hfe]
  exact (h f hf).2.2

/-- The set of the keys of entries is proper. -/
theorem ProperEntries.set {entries : List (Value × Value)} (h : ProperEntries entries) :
    (Value.set (Table.keys (Table.ofEntries entries))).Proper := by
  have hmember : ∀ key ∈ Table.keys (Table.ofEntries entries),
      key.hashable = true ∧ key.Proper := by
    intro key hkey
    obtain ⟨e, he, rfl⟩ := List.mem_map.mp hkey
    obtain ⟨f, hf, hfe⟩ := List.mem_map.mp (Table.key_of_mem_ofEntries he)
    rw [← hfe]
    exact ⟨(h f hf).1, (h f hf).2.1⟩
  exact .set (fun key hkey => (hmember key hkey).1) fun key hkey => (hmember key hkey).2

/-- A value without items is proper and no tuple. -/
theorem Untupled.single {v : Value} (h : v.items? = none) : Untupled v :=
  ⟨.single h, fun hkind => by cases v <;> cases hkind; cases h⟩

/-- A text is proper and no tuple. -/
theorem Untupled.text {v : Value} (h : v.isText = true) : Untupled v :=
  ⟨.text h, fun hkind => by rw [Value.isText, hkind] at h; cases h⟩

/-- The value of a timestamp is a day or a point of time. -/
theorem TimestampForm.untupled_value {form : TimestampForm} {v : Value} (h : form.value = .ok v) :
    Untupled v := by
  rw [value] at h
  cases htime : form.time with
  | none =>
    rw [htime] at h
    obtain ⟨date, -, h⟩ := exists_of_bind_eq_ok h
    cases h
    exact .single rfl
  | some time =>
    rw [htime] at h
    obtain ⟨offset, -, h⟩ := exists_of_bind_eq_ok h
    obtain ⟨date, -, h⟩ := exists_of_bind_eq_ok h
    obtain ⟨moment, -, h⟩ := exists_of_bind_eq_ok h
    cases h
    exact .single rfl

/-- What can be read under a tag is made of what the text writes. -/
theorem exists_of_possible_map {α : Type} {x : Except ShapeFault α} {f : α → Value} {v : Value}
    (h : possible (x.map f) = .ok v) : ∃ a, f a = v := by
  cases x with
  | ok a => exact ⟨a, Except.ok.inj h⟩
  | error cause => cases h

/-- The value of a scalar is a text or has no items. -/
theorem untupled_scalarValue {tag : Tag} {codes : List Nat} {v : Value}
    (h : scalarValue tag codes = .ok v) : Untupled v := by
  cases tag with
  | text =>
    cases h
    exact .text (Value.isText_ofCodes codes)
  | timestamp =>
    simp only [scalarValue] at h
    split at h
    next value hvalue =>
      cases h
      obtain ⟨form, -, hform⟩ := Option.map_eq_some_iff.mp hvalue
      exact form.untupled_value hform
    next => cases h
    next => cases h
  | null =>
    cases h
    exact .single rfl
  | bool =>
    simp only [scalarValue] at h
    split_ifs at h
    · cases h
      exact .single rfl
    · cases h
      exact .single rfl
    · obtain ⟨b, rfl⟩ := exists_of_possible_map h
      exact .single rfl
  | int =>
    simp only [scalarValue] at h
    split at h
    · cases h
      exact .single rfl
    · cases h
    · obtain ⟨n, rfl⟩ := exists_of_possible_map h
      exact .single rfl
  | float =>
    simp only [scalarValue] at h
    split at h
    · cases h
      exact .single rfl
    · obtain ⟨x, rfl⟩ := exists_of_possible_map h
      exact .single rfl
  | _ => cases h

/-- A key that a mapping takes can be one. -/
theorem hashable_of_keyOf {key k : Value} (hkey : Untupled key) (h : Node.keyOf key = .ok k) :
    k = key ∧ key.hashable = true := by
  obtain ⟨hproper, hkind⟩ := hkey
  cases key with
  | tuple => exact absurd rfl hkind
  | list => cases h
  | mapping => cases h
  | set => cases h
  | _ =>
    cases h
    exact ⟨rfl, rfl⟩

namespace Node

mutual

/-- The value of a node is proper and no tuple. -/
theorem untupled_value : ∀ (n : Node) {v : Value}, value n = .ok v → Untupled v
  | .scalar tag codes, v, h => untupled_scalarValue h
  | .sequence tag items, v, h => by
    cases tag with
    | sequence =>
      rw [value] at h
      obtain ⟨vs, hvs, h⟩ := exists_of_bind_eq_ok h
      cases h
      exact ⟨.list (proper_values items hvs), nofun⟩
    | pairs =>
      rw [value] at h
      obtain ⟨vs, hvs, h⟩ := exists_of_bind_eq_ok h
      cases h
      exact ⟨.list (proper_pairs items hvs), nofun⟩
    | _ => cases h
  | .mapping tag entries, v, h => by
    cases tag with
    | mapping =>
      rw [value] at h
      obtain ⟨es, hes, h⟩ := exists_of_bind_eq_ok h
      cases h
      exact ⟨(proper_entriesOf entries hes).mapping, nofun⟩
    | set =>
      rw [value] at h
      obtain ⟨es, hes, h⟩ := exists_of_bind_eq_ok h
      cases h
      exact ⟨(proper_entriesOf entries hes).set, nofun⟩
    | _ => cases h
termination_by structural n => n

/-- The values of nodes are proper. -/
theorem proper_values : ∀ (ns : List Node) {vs : List Value}, values ns = .ok vs →
    ∀ v ∈ vs, v.Proper
  | [], vs, h => by
    cases h
    exact List.forall_mem_nil _
  | n :: rest, vs, h => by
    rw [values] at h
    obtain ⟨v, hv, h⟩ := exists_of_bind_eq_ok h
    obtain ⟨others, hothers, h⟩ := exists_of_bind_eq_ok h
    cases h
    exact List.forall_mem_cons.mpr ⟨(untupled_value n hv).proper, proper_values rest hothers⟩
termination_by structural ns => ns

/-- The pairs that nodes give are proper. -/
theorem proper_pairs : ∀ (ns : List Node) {vs : List Value}, pairs ns = .ok vs →
    ∀ v ∈ vs, v.Proper
  | [], vs, h => by
    cases h
    exact List.forall_mem_nil _
  | n :: rest, vs, h => by
    rw [pairs] at h
    obtain ⟨v, hv, h⟩ := exists_of_bind_eq_ok h
    obtain ⟨others, hothers, h⟩ := exists_of_bind_eq_ok h
    cases h
    exact List.forall_mem_cons.mpr ⟨proper_pairOf n hv, proper_pairs rest hothers⟩
termination_by structural ns => ns

/-- A pair of the key and the value of a mapping is proper. -/
theorem proper_pairOf : ∀ (n : Node) {v : Value}, pairOf n = .ok v → v.Proper
  | .mapping tag [(k, w)], v, h => by
    rw [pairOf] at h
    obtain ⟨key, hkey, h⟩ := exists_of_bind_eq_ok h
    obtain ⟨content, hcontent, h⟩ := exists_of_bind_eq_ok h
    cases h
    have hproper := (untupled_value k hkey).proper
    exact .tuple (List.forall_mem_cons.mpr
      ⟨hproper, List.forall_mem_singleton.mpr (untupled_value w hcontent).proper⟩)
  | .mapping tag [], v, h => by cases h
  | .mapping tag (_ :: _ :: _), v, h => by cases h
  | .sequence _ _, v, h => by cases h
  | .scalar _ _, v, h => by cases h
termination_by structural n => n

/-- The entries of a mapping can make one. -/
theorem proper_entriesOf : ∀ (es : List (Node × Node)) {entries : Entries},
    entriesOf es = .ok entries → ProperEntries entries.all
  | [], entries, h => by
    cases h
    exact List.forall_mem_nil _
  | e :: rest, entries, h => by
    rw [entriesOf] at h
    obtain ⟨first, hfirst, h⟩ := exists_of_bind_eq_ok h
    obtain ⟨others, hothers, h⟩ := exists_of_bind_eq_ok h
    cases h
    obtain ⟨hmerged, hown⟩ := List.forall_mem_append.mp (proper_entryOf e hfirst)
    obtain ⟨hmerged', hown'⟩ := List.forall_mem_append.mp (proper_entriesOf rest hothers)
    exact ProperEntries.append (ProperEntries.append hmerged hmerged')
      (ProperEntries.append hown hown')
termination_by structural es => es

/-- The entries that one entry gives can stand in a mapping. -/
theorem proper_entryOf : ∀ (e : Node × Node) {entries : Entries},
    entryOf e = .ok entries → ProperEntries entries.all
  | (k, v), entries, h => by
    have hvalue {w : Value} (hw : value v = .ok w) : w.Proper := (untupled_value v hw).proper
    -- The entry is one of the merge key, of the value key, or of any other key.
    rw [entryOf.eq_def] at h
    split at h
    iterate 3
      next node heq =>
        cases heq
        obtain ⟨merged, hmerged, h⟩ := exists_of_bind_eq_ok h
        cases h
        exact (proper_mergedOf v hmerged).append (List.forall_mem_nil _)
    next codes node heq =>
      cases heq
      obtain ⟨w, hw, h⟩ := exists_of_bind_eq_ok h
      cases h
      have htext := Value.isText_ofCodes codes
      exact List.forall_mem_singleton.mpr
        ⟨Value.hashable_of_isText htext, .text htext, hvalue hw⟩
    next key node _ _ _ _ heq =>
      cases heq
      obtain ⟨u, hu, h⟩ := exists_of_bind_eq_ok h
      obtain ⟨u', hu', h⟩ := exists_of_bind_eq_ok h
      obtain ⟨w, hw, h⟩ := exists_of_bind_eq_ok h
      cases h
      obtain ⟨rfl, hhashable⟩ := hashable_of_keyOf (untupled_value k hu) hu'
      exact List.forall_mem_singleton.mpr
        ⟨hhashable, (untupled_value k hu).proper, hvalue hw⟩
termination_by structural e => e

/-- The entries that are merged in from a node can stand in a mapping. -/
theorem proper_mergedOf : ∀ (n : Node) {entries : List (Value × Value)},
    mergedOf n = .ok entries → ProperEntries entries
  | .mapping tag es, entries, h => by
    rw [mergedOf] at h
    obtain ⟨own, hown, h⟩ := exists_of_bind_eq_ok h
    cases h
    exact proper_entriesOf es hown
  | .sequence tag items, entries, h => by
    rw [mergedOf] at h
    exact proper_mergedOfAll items h
  | .scalar tag codes, entries, h => by cases h
termination_by structural n => n

/-- The entries that are merged in from several mappings can stand in one. -/
theorem proper_mergedOfAll : ∀ (ns : List Node) {entries : List (Value × Value)},
    mergedOfAll ns = .ok entries → ProperEntries entries
  | [], entries, h => by
    cases h
    exact List.forall_mem_nil _
  | n :: rest, entries, h => by
    rw [mergedOfAll] at h
    obtain ⟨first, hfirst, h⟩ := exists_of_bind_eq_ok h
    obtain ⟨others, hothers, h⟩ := exists_of_bind_eq_ok h
    cases h
    exact (proper_mergedOfAll rest hothers).append (proper_mappingEntriesOf n hfirst)
termination_by structural ns => ns

/-- The entries of a mapping that are merged in can stand in another one. -/
theorem proper_mappingEntriesOf : ∀ (n : Node) {entries : List (Value × Value)},
    mappingEntriesOf n = .ok entries → ProperEntries entries
  | .mapping tag es, entries, h => by
    rw [mappingEntriesOf] at h
    obtain ⟨own, hown, h⟩ := exists_of_bind_eq_ok h
    cases h
    exact proper_entriesOf es hown
  | .sequence _ _, entries, h => by cases h
  | .scalar _ _, entries, h => by cases h
termination_by structural n => n

end

end Node

/-- What is read in a text is proper. -/
theorem proper_of_read {s : String} {v : Value} (h : read s = .ok v) : v.Proper := by
  simp only [read] at h
  split at h
  · split at h
    next node hnode => exact (node.untupled_value h).proper
    next =>
      cases h
      exact .single rfl
    next => cases h
  · cases h

end PolicyAuthoring.Yaml

namespace PolicyAuthoring.Files

/-- What is read from a file is a mapping, and proper. -/
theorem exists_mapping_of_readMapping {files : Files} {path : String} {v : Value}
    (h : files.readMapping path = .ok v) : ∃ entries, v = .mapping entries ∧ v.Proper := by
  rw [readMapping] at h
  split at h
  · cases h
  · cases h
  · cases h
  · cases h
    have hempty : (Value.mapping []).Proper :=
      .mapping (List.forall_mem_nil _) (List.forall_mem_nil _) (List.forall_mem_nil _)
    exact ⟨[], rfl, hempty⟩
  next entries hentries =>
    cases h
    obtain ⟨text, -, hread⟩ := Option.map_eq_some_iff.mp hentries
    exact ⟨entries, rfl, Yaml.proper_of_read hread⟩
  · cases h

end PolicyAuthoring.Files

/-- A value that JSON has a form for is proper. -/
theorem PolicyAuthoring.Value.IsJson.proper {v : PolicyAuthoring.Value} (h : v.IsJson) :
    v.Proper := by
  induction h with
  | list items _ ih => exact .list ih
  | mapping entries hnames _ _ ih =>
    have htext : ∀ e ∈ entries, e.1.isText = true := by
      intro e he
      obtain ⟨s, hs⟩ := hnames e he
      rw [hs]
      rfl
    exact .mapping (fun e he => hashable_of_isText (htext e he)) (fun e he => .text (htext e he)) ih
  | text s => exact .text rfl
  | _ => exact .single rfl
