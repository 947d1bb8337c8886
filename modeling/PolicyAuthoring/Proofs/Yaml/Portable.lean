import PolicyAuthoring.Proofs.Value.Strip
import PolicyAuthoring.Proofs.Yaml.Interchange

/-!
# Portable values

The JSON values that YAML reads as themselves, told by the values alone
(`IsJson.reloaded?_eq_some_iff`). If a value is not portable, a text in it has become one with
surrogates, a float has become a text, or its text was refused; none of these is undone by anything
else in the value.

Mappings whose names are known in advance are records: they are read value by value.
-/

namespace PolicyAuthoring

open Yaml.Layout (fitsKey)

/-- Whether all characters of a text are in the basic plane. -/
def Text.isBasic (s : String) : Bool := s.toList.all fun c => c.toNat < 0x10000

namespace Value

/-- Whether a name of a member can be a key in YAML and is read as itself. -/
def portableName : Value → Bool
  | .text s => fitsKey (s.toList.map Char.toNat) && Text.isBasic s
  | _ => false

mutual

/-- Whether YAML reads a JSON value as the value itself: floats are written with a point, texts have
no characters beyond the basic plane, and no name is too long for a key. -/
def portable : Value → Bool
  | .float x => x.text.toList.contains '.'
  | .text s => Text.isBasic s
  | .list items => portableItems items
  | .mapping entries => portableMembers entries
  | _ => true
termination_by structural v => v

/-- Whether YAML reads items as themselves. -/
def portableItems : List Value → Bool
  | [] => true
  | v :: rest => portable v && portableItems rest
termination_by structural vs => vs

/-- Whether YAML reads members as themselves. -/
def portableMembers : List (Value × Value) → Bool
  | [] => true
  | e :: rest => portableMember e && portableMembers rest
termination_by structural es => es

/-- Whether YAML reads a member as itself. -/
def portableMember : Value × Value → Bool
  | (k, v) => portableName k && portable v
termination_by structural e => e

end

/-! ## Texts -/

/-- Code points of the basic plane are their own code units. -/
theorem reloadedText_of_isBasic {s : String} (h : Text.isBasic s = true) :
    reloadedText (s.toList.map Char.toNat) = .text s := by
  rw [Text.isBasic, List.all_eq_true] at h
  have hunits : (s.toList.map Char.toNat).flatMap Yaml.codeUnits = s.toList.map Char.toNat := by
    refine (List.flatMap_congr fun code hcode => ?_).trans (List.flatMap_singleton' _)
    obtain ⟨c, hc, rfl⟩ := List.mem_map.mp hcode
    exact Yaml.codeUnits_of_lt (of_decide_eq_true (h c hc))
  rw [reloadedText, hunits, Yaml.ofCodes_map_toNat, String.ofList_toList]

/-- What is read is a text without surrogates only if there are no characters beyond the basic
plane. -/
theorem isBasic_of_reloadedText {s t : String}
    (h : reloadedText (s.toList.map Char.toNat) = .text t) : Text.isBasic s = true := by
  rw [Text.isBasic, List.all_eq_true]
  intro c hc
  by_contra hlarge
  have hlarge : ¬c.toNat < 0x10000 := fun h => hlarge (decide_eq_true h)
  -- The first unit of the character is a surrogate, which no text without surrogates holds.
  have hunit : 0xD800 + (c.toNat - 0x10000) / 0x400 ∈
      (s.toList.map Char.toNat).flatMap Yaml.codeUnits := by
    refine List.mem_flatMap.mpr ⟨c.toNat, List.mem_map_of_mem hc, ?_⟩
    rw [Yaml.codeUnits, if_neg hlarge]
    exact List.mem_cons_self ..
  have hsurrogate : ¬(0xD800 + (c.toNat - 0x10000) / 0x400).isValidChar := by
    have := Yaml.toNat_lt_of_mem c.toNat (List.mem_map_of_mem hc)
    rw [Nat.isValidChar]
    omega
  rw [reloadedText, ofCodes, if_neg] at h
  · cases h
  · intro hall
    exact hsurrogate (of_decide_eq_true (List.all_eq_true.mp hall _ hunit))

/-! ## Items and members -/

theorem reloadedItems?_eq_some_iff {items : List Value}
    (h : ∀ v ∈ items, v.reloaded? = some v ↔ v.portable = true) :
    reloadedItems? items = some items ↔ portableItems items = true := by
  induction items with
  | nil => simp [reloadedItems?, portableItems]
  | cons v items ih =>
    rw [List.forall_mem_cons] at h
    rw [portableItems, Bool.and_eq_true, ← h.1, ← ih h.2, reloadedItems?]
    constructor
    · intro hread
      obtain ⟨w, hw, hread⟩ := Option.bind_eq_some_iff.mp hread
      obtain ⟨ws, hws, hread⟩ := Option.map_eq_some_iff.mp hread
      obtain ⟨rfl, rfl⟩ := List.cons.inj hread
      exact ⟨hw, hws⟩
    · rintro ⟨hv, hitems⟩
      rw [hv, Option.bind_some, hitems]
      rfl

/-- When a member and those after it are read, and as what. -/
theorem reloadedMembers?_cons_eq_some {s : String} {v : Value} {rest es : List (Value × Value)} :
    reloadedMembers? ((.text s, v) :: rest) = some es ↔
      fitsKey (s.toList.map Char.toNat) = true ∧ ∃ w ws, v.reloaded? = some w ∧
        reloadedMembers? rest = some ws ∧
        es = (reloadedText (s.toList.map Char.toNat), w) :: ws := by
  rw [reloadedMembers?_cons]
  split
  next hfits =>
    simp only [Option.bind_eq_some_iff, Option.map_eq_some_iff]
    constructor
    · rintro ⟨w, hw, ws, hws, rfl⟩
      exact ⟨hfits, w, ws, hw, hws, rfl⟩
    · rintro ⟨-, w, ws, hw, hws, rfl⟩
      exact ⟨w, hw, ws, hws, rfl⟩
  next hfits => simp [hfits]

theorem reloadedMembers?_eq_some_iff {entries : List (Value × Value)}
    (hnames : ∀ e ∈ entries, ∃ s, e.1 = .text s)
    (h : ∀ e ∈ entries, e.2.reloaded? = some e.2 ↔ e.2.portable = true) :
    reloadedMembers? entries = some entries ↔ portableMembers entries = true := by
  induction entries with
  | nil => simp [reloadedMembers?, portableMembers]
  | cons e entries ih =>
    rw [List.forall_mem_cons] at h hnames
    obtain ⟨⟨s, hs⟩, hnames⟩ := hnames
    obtain ⟨k, v⟩ := e
    subst hs
    rw [portableMembers, portableMember, portableName, Bool.and_eq_true, Bool.and_eq_true,
      Bool.and_eq_true, ← h.1, ← ih hnames h.2]
    constructor
    · intro hread
      obtain ⟨hfits, w, ws, hw, hws, hread⟩ := reloadedMembers?_cons_eq_some.mp hread
      obtain ⟨hmember, rfl⟩ := List.cons.inj hread
      obtain ⟨hname, rfl⟩ := Prod.mk.inj hmember
      exact ⟨⟨⟨hfits, isBasic_of_reloadedText hname.symm⟩, hw⟩, hws⟩
    · rintro ⟨⟨⟨hfits, hbasic⟩, hv⟩, hentries⟩
      exact reloadedMembers?_cons_eq_some.mpr
        ⟨hfits, v, entries, hv, hentries, by rw [reloadedText_of_isBasic hbasic]⟩

/-- Members whose names are read as texts without surrogates are read under the same names. -/
theorem keys_of_reloadedMembers? {entries es : List (Value × Value)}
    (hnames : ∀ e ∈ entries, ∃ s, e.1 = .text s) (h : reloadedMembers? entries = some es)
    (hkeys : ∀ e ∈ es, ∃ s, e.1 = .text s) : es.map Prod.fst = entries.map Prod.fst := by
  induction entries generalizing es with
  | nil =>
    cases h
    rfl
  | cons e entries ih =>
    rw [List.forall_mem_cons] at hnames
    obtain ⟨⟨s, hs⟩, hnames⟩ := hnames
    obtain ⟨k, v⟩ := e
    subst hs
    obtain ⟨-, w, ws, -, hws, rfl⟩ := reloadedMembers?_cons_eq_some.mp h
    rw [List.forall_mem_cons] at hkeys
    obtain ⟨⟨t, ht⟩, hkeys⟩ := hkeys
    rw [List.map_cons, List.map_cons, ih hnames hws hkeys,
      reloadedText_of_isBasic (isBasic_of_reloadedText ht)]

theorem isText_of_reloadedMembers? {entries es : List (Value × Value)}
    (hnames : ∀ e ∈ entries, ∃ s, e.1 = .text s) (h : reloadedMembers? entries = some es) :
    ∀ e ∈ es, e.1.isText = true := by
  induction entries generalizing es with
  | nil =>
    cases h
    nofun
  | cons e entries ih =>
    rw [List.forall_mem_cons] at hnames
    obtain ⟨⟨s, hs⟩, hnames⟩ := hnames
    obtain ⟨k, v⟩ := e
    subst hs
    obtain ⟨-, w, ws, -, hws, rfl⟩ := reloadedMembers?_cons_eq_some.mp h
    exact List.forall_mem_cons.mpr ⟨isText_ofCodes _, ih hnames hws⟩

/-- Members fill the mapping that they come from only if they are its entries. -/
theorem eq_of_ofEntries_eq {entries es : List (Value × Value)}
    (hnames : ∀ e ∈ entries, ∃ s, e.1 = .text s) (hdistinct : Table.Distinct entries)
    (hread : reloadedMembers? entries = some es) (hsame : Table.ofEntries es = entries) :
    es = entries := by
  -- A key that was read is a key of the mapping, so it is a text without surrogates.
  have htexts : ∀ e ∈ es, ∃ s, e.1 = .text s := by
    intro e he
    have htext := isText_of_reloadedMembers? hnames hread e he
    have hcontains := (Table.contains_ofEntries htext).mpr (List.mem_map_of_mem he)
    rw [hsame, Table.contains, List.any_eq_true] at hcontains
    obtain ⟨f, hf, hfe⟩ := hcontains
    obtain ⟨s, hs⟩ := hnames f hf
    rw [Value.same_iff_of_isText_right htext] at hfe
    exact ⟨s, hfe ▸ hs⟩
  have hkeys := keys_of_reloadedMembers? hnames hread htexts
  have hdistinct' : Table.Distinct es := by
    have hpairs : (entries.map Prod.fst).Pairwise fun k l => k.same l = false :=
      List.pairwise_map.mpr hdistinct
    rw [← hkeys] at hpairs
    exact List.pairwise_map.mp hpairs
  rw [← hsame, Table.ofEntries_eq_self hdistinct']

/-! ## Values -/

/-- A JSON value is read as itself exactly if it is portable. -/
theorem IsJson.reloaded?_eq_some_iff {v : Value} (h : v.IsJson) :
    v.reloaded? = some v ↔ v.portable = true := by
  induction h with
  | null => simp [reloaded?, portable]
  | bool b => simp [reloaded?, portable]
  | int n => simp [reloaded?, portable]
  | float x hfinite =>
    rw [reloaded?, portable, List.contains_iff_mem]
    split <;> simp_all
  | text s =>
    rw [reloaded?, portable, Option.some.injEq]
    exact ⟨isBasic_of_reloadedText, reloadedText_of_isBasic⟩
  | list items hitems ih =>
    rw [reloaded?, portable, ← reloadedItems?_eq_some_iff ih]
    simp
  | mapping entries hnames hdistinct hentries ih =>
    rw [reloaded?, portable, ← reloadedMembers?_eq_some_iff hnames ih]
    constructor
    · intro hread
      obtain ⟨es, hes, hsame⟩ := Option.map_eq_some_iff.mp hread
      rw [hes, eq_of_ofEntries_eq hnames hdistinct hes (Value.mapping.inj hsame)]
    · intro hread
      rw [hread, Option.map_some, Table.ofEntries_eq_self hdistinct]

/-! ## Records -/

/-- The entries of a mapping whose names are known. -/
def recordEntries (names : List String) (values : List Value) : List (Value × Value) :=
  List.zipWith (fun name v => (.text name, v)) names values

/-- A mapping whose names are known. -/
def record (names : List String) (values : List Value) : Value :=
  .mapping (recordEntries names values)

theorem mem_recordEntries {names : List String} {values : List Value} {e : Value × Value}
    (he : e ∈ recordEntries names values) : ∃ name ∈ names, e.1 = .text name ∧ e.2 ∈ values := by
  induction names generalizing values with
  | nil => cases he
  | cons name names ih =>
    cases values with
    | nil => cases he
    | cons v values =>
      rcases List.mem_cons.mp he with rfl | he
      · exact ⟨name, List.mem_cons_self .., rfl, List.mem_cons_self ..⟩
      · obtain ⟨other, hother, hkey, hvalue⟩ := ih he
        exact ⟨other, List.mem_cons_of_mem _ hother, hkey, List.mem_cons_of_mem _ hvalue⟩

theorem distinct_recordEntries {names : List String} (hnames : names.Nodup)
    (values : List Value) : Table.Distinct (recordEntries names values) := by
  induction names generalizing values with
  | nil => exact List.Pairwise.nil
  | cons name names ih =>
    obtain ⟨hname, hnames⟩ := List.nodup_cons.mp hnames
    cases values with
    | nil => exact List.Pairwise.nil
    | cons v values =>
      refine List.pairwise_cons.mpr ⟨fun e he => ?_, ih hnames values⟩
      obtain ⟨other, hother, hkey, -⟩ := mem_recordEntries he
      rw [hkey, same_text, decide_eq_false_iff_not]
      rintro rfl
      exact hname hother

/-- A record of JSON values is one. -/
theorem IsJson.record (names : List String) {values : List Value} (hnames : names.Nodup)
    (hvalues : ∀ v ∈ values, v.IsJson) : (record names values).IsJson := by
  refine .mapping _ (fun e he => ?_) (distinct_recordEntries hnames values) fun e he => ?_
  · obtain ⟨name, -, hkey, -⟩ := mem_recordEntries he
    exact ⟨name, hkey⟩
  · obtain ⟨-, -, -, hvalue⟩ := mem_recordEntries he
    exact hvalues _ hvalue

/-- A record is read value by value if its names are portable. -/
theorem reloaded?_record (names : List String) (values : List Value) (hnames : names.Nodup)
    (hportable : ∀ name ∈ names, portableName (.text name) = true)
    (hlength : names.length = values.length) :
    (record names values).reloaded? = (reloadedItems? values).map (record names) := by
  have hmembers : reloadedMembers? (recordEntries names values) =
      (reloadedItems? values).map (recordEntries names) := by
    -- That the names differ matters only when the mapping is filled.
    clear hnames
    induction names generalizing values with
    | nil =>
      rw [List.length_eq_zero_iff.mp hlength.symm]
      rfl
    | cons name names ih =>
      obtain ⟨v, values, rfl⟩ := List.exists_cons_of_length_eq_add_one hlength.symm
      rw [List.forall_mem_cons, portableName, Bool.and_eq_true] at hportable
      obtain ⟨⟨hfits, hbasic⟩, hportable⟩ := hportable
      have hrest := ih values hportable (Nat.succ.inj hlength)
      rw [recordEntries, List.zipWith_cons_cons, reloadedMembers?_cons, if_pos hfits,
        reloadedText_of_isBasic hbasic, reloadedItems?]
      rw [recordEntries] at hrest
      rw [hrest]
      cases v.reloaded? with
      | none => rfl
      | some w => cases reloadedItems? values <;> rfl
  rw [record, reloaded?, hmembers, Option.map_map]
  cases reloadedItems? values with
  | none => rfl
  | some ws =>
    exact congrArg (fun es => some (mapping es))
      (Table.ofEntries_eq_self (distinct_recordEntries hnames ws))

/-- The JSON text of a portable mapping is read as the mapping. -/
theorem IsJson.read_write {entries : Table Value} {text : String}
    (h : (Value.mapping entries).IsJson) (hportable : (Value.mapping entries).portable = true)
    (htext : Json.write (.mapping entries) = .ok text) :
    Yaml.read (text ++ "\n") = .ok (.mapping entries) := by
  obtain ⟨written, hwritten, hread⟩ := Yaml.exists_read_mapping h
  cases hwritten.symm.trans htext
  rw [hread, h.reloaded?_eq_some_iff.mpr hportable]
  rfl

end Value

end PolicyAuthoring
