import PolicyAuthoring.Yaml.Reader
import PolicyAuthoring.Proofs.Value.Reading
import PolicyAuthoring.Proofs.Yaml.Layout
import PolicyAuthoring.Proofs.Yaml.Numeral

/-!
# Values in brackets

How the text of a container is read that JSON has laid out with one item or member to a line. The
text is scanned line by line (`scan_lines`, `scansAnywhere_block`), and the tokens make up the nodes
of the items or members one by one (`ItemsYield.cons`, `MembersYield.cons`). A name that is too long
for a key leaves a value without a key, and the node of the whole container is refused.

The tokens of one text do not depend on where it stands, so the two halves meet at the list of
tokens: `Scans` relates a text to it and `Yields` relates it to a value.
-/

namespace PolicyAuthoring.Yaml

open Layout

/-! ## Scanning -/

/-- A text is scanned as some tokens wherever a value can stand inside brackets. -/
def Scans (text : List Char) (tokens : List Token) : Prop :=
  ∀ ⦃l : Layout⦄ ⦃depth : Nat⦄ ⦃before : List Token⦄ ⦃rest : List Char⦄, EndsValue rest →
    l.At (depth + 1) before (text ++ rest) →
    ∃ l', l.Reaches l' ∧ l'.At (depth + 1) (tokens.reverse ++ before) rest

/-- A text is scanned as some tokens wherever an item or a member can stand. -/
def ScansLine (text : List Char) (tokens : List Token) : Prop :=
  ∀ ⦃l : Layout⦄ ⦃depth : Nat⦄ ⦃before : List Token⦄ ⦃rest : List Char⦄, l.allowKey = true →
    EndsValue rest → l.At (depth + 1) before (text ++ rest) →
    ∃ l', l.Reaches l' ∧ l'.At (depth + 1) (tokens.reverse ++ before) rest

/-- A text is scanned as some tokens anywhere. -/
def ScansAnywhere (text : List Char) (tokens : List Token) : Prop :=
  ∀ ⦃l : Layout⦄ ⦃depth : Nat⦄ ⦃before : List Token⦄ ⦃rest : List Char⦄,
    l.At depth before (text ++ rest) →
    ∃ l', l.Reaches l' ∧ l'.At depth (tokens.reverse ++ before) rest

variable {text : List Char} {tokens : List Token}

theorem Scans.line (h : Scans text tokens) : ScansLine text tokens :=
  fun _ _ _ _ _ hrest hat => h hrest hat

theorem ScansAnywhere.scans (h : ScansAnywhere text tokens) : Scans text tokens :=
  fun _ _ _ _ _ hat => h hat

theorem scans_word (h : IsWord text) : Scans text [.scalar true (text.map Char.toNat)] :=
  fun _ _ _ _ hrest hat => hat.word h hrest

theorem scansAnywhere_string {codes : List Nat} (hcodes : ∀ code ∈ codes, code < 0x110000) :
    ScansAnywhere (stringChars codes) [.scalar false (codes.flatMap codeUnits)] := by
  intro l depth before rest hat
  obtain ⟨l', hreaches, hat', -⟩ := hat.string hcodes
  exact ⟨l', hreaches, hat'⟩

/-- The tokens of a member with a name: without a key the name is an item of its own. -/
def memberTokens (codes : List Nat) (tokens : List Token) : List Token :=
  (if fitsKey codes then [.key] else []) ++
    .scalar false (codes.flatMap codeUnits) :: .value :: tokens

theorem scansLine_member {codes : List Nat} (hcodes : ∀ code ∈ codes, code < 0x110000)
    (h : Scans text tokens) :
    ScansLine (stringChars codes ++ ':' :: ' ' :: text) (memberTokens codes tokens) := by
  intro l depth before rest hallow hrest hat
  rw [List.append_assoc] at hat
  obtain ⟨l₁, hreaches₁, hat₁⟩ := hat.key hcodes hallow
  -- The space after the colon is passed over.
  obtain ⟨l₂, hreaches₂, hat₂⟩ := h hrest (hat₁.of_ahead rfl)
  refine ⟨l₂, hreaches₁.trans hreaches₂, ?_⟩
  rw [memberTokens]
  split at hat₂
  next hfits => simpa [hfits] using hat₂
  next hfits => simpa [hfits] using hat₂

/-- Lists of tokens with commas between them. Before the first one there is none. -/
def commaSeparated (first : Bool) : List (List Token) → List Token
  | [] => []
  | tokens :: rest =>
    (if first then tokens else .flowEntry :: tokens) ++ commaSeparated false rest

/-- Lines are scanned one after the other. -/
theorem scan_lines {lines : List String} {lists : List (List Token)}
    (hlines : List.Forall₂ (fun line tokens => ScansLine line.toList tokens) lines lists)
    (hne : lines ≠ []) (level : Nat) {l : Layout} {depth : Nat} {before : List Token}
    {rest : List Char} (hallow : l.allowKey = true) (hrest : EndsValue rest)
    (hat : l.At (depth + 1) before
      ((Text.joinWith ("," ++ Json.lineBreak level) lines).toList ++ rest)) :
    ∃ l', l.Reaches l' ∧ l'.At (depth + 1) ((commaSeparated true lists).reverse ++ before) rest := by
  -- Every line but the last ends at a comma, after which the next one may begin with a key.
  induction hlines generalizing l before with
  | nil => exact absurd rfl hne
  | @cons line tokens lines lists hline hlines ih =>
    cases hlines with
    | nil =>
      obtain ⟨l', hreaches, hat'⟩ := hline hallow hrest hat
      exact ⟨l', hreaches, by simpa [commaSeparated] using hat'⟩
    | @cons next tokens' lines lists hnext hlines =>
      rw [Text.joinWith_cons_cons, String.toList_append, String.toList_append,
        String.toList_append, List.append_assoc, List.append_assoc] at hat
      obtain ⟨l₁, hreaches₁, hat₁⟩ := hline hallow (.comma _) hat
      obtain ⟨l₂, hreaches₂, hat₂, hallow₂⟩ := hat₁.comma
      obtain ⟨l₃, hreaches₃, hat₃⟩ :=
        ih (by simp) hallow₂ (hat₂.of_ahead (ahead_lineBreak level _))
      refine ⟨l₃, hreaches₁.trans (hreaches₂.trans hreaches₃), ?_⟩
      simpa [commaSeparated] using hat₃

/-- A block of lines is scanned anywhere. -/
theorem scansAnywhere_block {lines : List String} {lists : List (List Token)}
    (hlines : List.Forall₂ (fun line tokens => ScansLine line.toList tokens) lines lists)
    (b : Brackets) (level : Nat) :
    ScansAnywhere
      (Json.block (String.singleton b.opening) (String.singleton b.closing) level lines).toList
      (b.start :: (commaSeparated true lists ++ [b.finish])) := by
  intro l depth before rest hat
  by_cases hempty : lines = []
  · subst hempty
    cases hlines
    rw [Json.block, if_pos rfl] at hat
    simp only [String.toList_append, String.toList_singleton, List.cons_append,
      List.nil_append] at hat
    obtain ⟨l₁, hreaches₁, hat₁, -⟩ := hat.openBracket b
    obtain ⟨l₂, hreaches₂, hat₂⟩ := hat₁.closeBracket b
    exact ⟨l₂, hreaches₁.trans hreaches₂, hat₂⟩
  · rw [Json.block, if_neg hempty] at hat
    simp only [String.toList_append, String.toList_singleton, List.cons_append, List.nil_append,
      List.append_assoc] at hat
    obtain ⟨l₁, hreaches₁, hat₁, hallow₁⟩ := hat.openBracket b
    obtain ⟨l₂, hreaches₂, hat₂⟩ := scan_lines hlines hempty (level + 1) hallow₁
      (.bracket level b rest) (hat₁.of_ahead (ahead_lineBreak (level + 1) _))
    obtain ⟨l₃, hreaches₃, hat₃⟩ := (hat₂.of_ahead (ahead_lineBreak level _)).closeBracket b
    refine ⟨l₃, hreaches₁.trans (hreaches₂.trans hreaches₃), ?_⟩
    simpa using hat₃

/-! ## Nodes -/

/-- Whether a token can begin a node inside brackets that JSON writes. -/
def beginsNode : Token → Bool
  | .scalar .. | .flowSequenceStart | .flowMappingStart => true
  | _ => false

/-- Tokens make up a node with some value, or are refused. -/
structure Yields (tokens : List Token) (v? : Option Value) : Prop where
  /-- The tokens begin a node. -/
  begins : ∃ t ts, tokens = t :: ts ∧ beginsNode t = true
  /-- The node is read, or nothing, and it has the value. -/
  node : ∃ node? : Option Node,
    (∀ block indentless fuel (r : NodeReader) rest, tokens.length < fuel →
      NodeReader.node block indentless fuel { r with tokens := tokens ++ rest } =
        node?.map fun n => (n, { r with tokens := rest })) ∧
    Option.Rel (fun n v => n.value = .ok v) node? v?

/-- Tokens with commas between them make up the nodes of items. -/
def ItemsYield (lists : List (List Token)) (vs? : Option (List Value)) : Prop :=
  ∃ nodes? : Option (List Node),
    (∀ first fuel (r : NodeReader) rest, (commaSeparated first lists).length + 1 < fuel →
      NodeReader.flowItems fuel first
          { r with tokens := commaSeparated first lists ++ .flowSequenceEnd :: rest } =
        nodes?.map fun ns => (ns, { r with tokens := rest })) ∧
    Option.Rel (fun ns vs => Node.values ns = .ok vs) nodes? vs?

/-- Tokens with commas between them make up the nodes of members. -/
def MembersYield (lists : List (List Token)) (es? : Option (List (Value × Value))) : Prop :=
  ∃ nodes? : Option (List (Node × Node)),
    (∀ first fuel (r : NodeReader) rest, (commaSeparated first lists).length + 1 < fuel →
      NodeReader.flowEntries fuel first
          { r with tokens := commaSeparated first lists ++ .flowMappingEnd :: rest } =
        nodes?.map fun ns => (ns, { r with tokens := rest })) ∧
    Option.Rel (fun ns es => Node.entriesOf ns = .ok { own := es }) nodes? es?

variable {r : NodeReader} {rest ts : List Token} {t : Token} {fuel : Nat} {first : Bool}
  {v? : Option Value} {vs? : Option (List Value)} {es? : Option (List (Value × Value))}

open NodeReader

/-! ### Scalars -/

theorem node_scalar (block indentless : Bool) (plain : Bool) (codes : List Nat) :
    node block indentless (fuel + 1) { r with tokens := .scalar plain codes :: rest } =
      some (.scalar (scalarTag none plain codes) codes, { r with tokens := rest }) := rfl

theorem Yields.scalar {plain : Bool} {codes : List Nat} {v : Value}
    (h : scalarValue (scalarTag none plain codes) codes = .ok v) :
    Yields [.scalar plain codes] (some v) where
  begins := ⟨_, _, rfl, rfl⟩
  node := by
    refine ⟨some (.scalar (scalarTag none plain codes) codes), ?_, .some h⟩
    intro block indentless fuel r rest hfuel
    obtain ⟨fuel, rfl⟩ : ∃ n, fuel = n + 1 := ⟨fuel - 1, by omega⟩
    exact node_scalar ..

/-! ### Sequences -/

theorem flowItems_item (ht : beginsNode t = true) :
    flowItems (fuel + 1) first
        { r with tokens := (if first then [] else [.flowEntry]) ++ t :: ts } =
      (do
        let (item, r) ← NodeReader.node false false fuel { r with tokens := t :: ts }
        let (items, r) ← flowItems fuel false r
        return (item :: items, r)) := by
  cases first <;> cases t <;> cases ht <;> rfl

theorem flowItems_end :
    flowItems (fuel + 1) first { r with tokens := .flowSequenceEnd :: rest } =
      some ([], { r with tokens := rest }) := rfl

theorem ItemsYield.nil : ItemsYield [] (some []) := by
  refine ⟨some [], fun first fuel r rest hfuel => ?_, .some rfl⟩
  obtain ⟨fuel, rfl⟩ : ∃ n, fuel = n + 1 := ⟨fuel - 1, by omega⟩
  exact flowItems_end

theorem commaSeparated_cons (first : Bool) (tokens : List Token) (lists : List (List Token)) :
    commaSeparated first (tokens :: lists) =
      (if first then [] else [.flowEntry]) ++ tokens ++ commaSeparated false lists := by
  cases first <;> rfl

theorem ItemsYield.cons {lists : List (List Token)} (h : Yields tokens v?)
    (hs : ItemsYield lists vs?) :
    ItemsYield (tokens :: lists) (v?.bind fun v => vs?.map (v :: ·)) := by
  obtain ⟨t, ts, rfl, ht⟩ := h.begins
  obtain ⟨node?, hnode, hvalue⟩ := h.node
  obtain ⟨nodes?, hnodes, hvalues⟩ := hs
  -- If the item is refused so is the list, and if it is read the others come after it.
  refine ⟨node?.bind fun n => nodes?.map (n :: ·), fun first fuel r rest hfuel => ?_, ?_⟩
  · obtain ⟨fuel, rfl⟩ : ∃ n, fuel = n + 1 := ⟨fuel - 1, by omega⟩
    rw [commaSeparated_cons] at hfuel ⊢
    simp only [List.length_append, List.length_cons] at hfuel
    rw [List.append_assoc, List.append_assoc, List.cons_append, flowItems_item ht,
      ← List.cons_append, hnode false false fuel r _ (by rw [List.length_cons]; omega)]
    cases hvalue with
    | none => rfl
    | some hvalue =>
      rw [Option.map_some, Option.bind_eq_bind, Option.bind_some]
      dsimp only
      rw [hnodes false fuel r rest (by omega)]
      cases nodes? <;> rfl
  · cases hvalue with
    | none => exact .none
    | some hvalue =>
      cases hvalues with
      | none => exact .none
      | some hvalues =>
        refine .some ?_
        rw [Node.values, hvalue, hvalues]
        rfl

/-! ### Mappings -/

theorem flowEntries_key {plain : Bool} {codes : List Nat} (ht : beginsNode t = true) :
    flowEntries (fuel + 2) first
        { r with tokens := (if first then [] else [.flowEntry]) ++
          .key :: .scalar plain codes :: .value :: t :: ts } =
      (do
        let (value, r) ← NodeReader.node false false fuel { r with tokens := t :: ts }
        let (entries, r) ← flowEntries (fuel + 1) false r
        return ((.scalar (scalarTag none plain codes) codes, value) :: entries, r)) := by
  cases first <;> cases t <;> cases ht <;> rfl

/-- A name that is no key is an entry without a value, and no comma follows it. -/
theorem flowEntries_scalar {plain : Bool} {codes : List Nat} :
    flowEntries (fuel + 2) first
        { r with tokens := (if first then [] else [.flowEntry]) ++
          .scalar plain codes :: .value :: ts } = none := by
  cases first <;> rfl

theorem flowEntries_end :
    flowEntries (fuel + 1) first { r with tokens := .flowMappingEnd :: rest } =
      some ([], { r with tokens := rest }) := rfl

/-- A text is a key whatever it says. -/
theorem entriesOf_text_cons (codes : List Nat) {n : Node} {v : Value} {ns : List (Node × Node)}
    {es : List (Value × Value)} (hn : n.value = .ok v)
    (hns : Node.entriesOf ns = .ok { own := es }) :
    Node.entriesOf ((.scalar .text codes, n) :: ns) = .ok { own := (.ofCodes codes, v) :: es } := by
  have hkey : Node.keyOf (.ofCodes codes) = .ok (.ofCodes codes) := by
    rw [Value.ofCodes]
    split <;> rfl
  have hentry : Node.entryOf (.scalar .text codes, n) = .ok { own := [(.ofCodes codes, v)] } := by
    rw [Node.entryOf.eq_def]
    dsimp only
    rw [Node.value, scalarValue, ok_bind, hkey, ok_bind, hn]
    rfl
  rw [Node.entriesOf, hentry, ok_bind, hns]
  rfl

theorem MembersYield.nil : MembersYield [] (some []) := by
  refine ⟨some [], fun first fuel r rest hfuel => ?_, .some rfl⟩
  obtain ⟨fuel, rfl⟩ : ∃ n, fuel = n + 1 := ⟨fuel - 1, by omega⟩
  exact flowEntries_end

theorem MembersYield.cons {lists : List (List Token)} (codes : List Nat) (h : Yields tokens v?)
    (hs : MembersYield lists es?) :
    MembersYield (memberTokens codes tokens :: lists)
      (if fitsKey codes then
        v?.bind fun v => es?.map ((.ofCodes (codes.flatMap codeUnits), v) :: ·)
      else none) := by
  obtain ⟨t, ts, rfl, ht⟩ := h.begins
  obtain ⟨node?, hnode, hvalue⟩ := h.node
  obtain ⟨nodes?, hnodes, hvalues⟩ := hs
  by_cases hfits : fitsKey codes = true
  · rw [if_pos hfits]
    refine ⟨node?.bind fun n =>
      nodes?.map ((.scalar .text (codes.flatMap codeUnits), n) :: ·),
      fun first fuel r rest hfuel => ?_, ?_⟩
    · rw [commaSeparated_cons, memberTokens, if_pos hfits] at hfuel ⊢
      simp only [List.length_append, List.length_cons, List.length_nil] at hfuel
      obtain ⟨fuel, rfl⟩ : ∃ n, fuel = n + 2 := ⟨fuel - 2, by omega⟩
      simp only [List.append_assoc, List.cons_append, List.nil_append]
      rw [flowEntries_key ht, ← List.cons_append,
        hnode false false fuel r _ (by rw [List.length_cons]; omega)]
      cases hvalue with
      | none => rfl
      | some hvalue =>
        rw [Option.map_some, Option.bind_eq_bind, Option.bind_some]
        dsimp only
        rw [hnodes false (fuel + 1) r rest (by omega)]
        cases nodes? <;> rfl
    · cases hvalue with
      | none => exact .none
      | some hvalue =>
        cases hvalues with
        | none => exact .none
        | some hvalues =>
          exact .some (entriesOf_text_cons _ hvalue hvalues)
  · -- Without a key the name is an entry of its own, and the value after it has no comma in front.
    rw [if_neg hfits]
    refine ⟨none, fun first fuel r rest hfuel => ?_, .none⟩
    rw [commaSeparated_cons, memberTokens, if_neg hfits] at hfuel ⊢
    simp only [List.length_append, List.length_cons, List.length_nil] at hfuel
    obtain ⟨fuel, rfl⟩ : ∃ n, fuel = n + 2 := ⟨fuel - 2, by omega⟩
    simp only [List.append_assoc, List.cons_append, List.nil_append]
    exact flowEntries_scalar

/-! ### Nodes in brackets -/

/-- Items in square brackets make up a list. -/
theorem ItemsYield.sequence {lists : List (List Token)} (h : ItemsYield lists vs?) :
    Yields (Brackets.square.start :: (commaSeparated true lists ++ [Brackets.square.finish]))
      (vs?.map .list) where
  begins := ⟨_, _, rfl, rfl⟩
  node := by
    obtain ⟨nodes?, hnodes, hvalues⟩ := h
    refine ⟨nodes?.map (.sequence .sequence), fun block indentless fuel r rest hfuel => ?_, ?_⟩
    · simp only [List.length_append, List.length_cons, List.length_nil] at hfuel
      obtain ⟨fuel, rfl⟩ : ∃ n, fuel = n + 1 := ⟨fuel - 1, by omega⟩
      have hread := hnodes true fuel r rest (by omega)
      have hnode : NodeReader.node block indentless (fuel + 1)
          { r with tokens := .flowSequenceStart ::
            (commaSeparated true lists ++ .flowSequenceEnd :: rest) } =
          (do
            let (items, r) ← flowItems fuel true
              { r with tokens := commaSeparated true lists ++ .flowSequenceEnd :: rest }
            return (.sequence .sequence items, r)) := rfl
      simp only [Brackets.start, Brackets.finish, List.cons_append, List.append_assoc,
        List.nil_append, hnode, hread]
      cases nodes? <;> rfl
    · cases hvalues with
      | none => exact .none
      | some hvalues =>
        refine .some ?_
        rw [Node.value, hvalues]
        rfl

/-- Members in curly brackets make up a mapping. -/
theorem MembersYield.mapping {lists : List (List Token)} (h : MembersYield lists es?) :
    Yields (Brackets.curly.start :: (commaSeparated true lists ++ [Brackets.curly.finish]))
      (es?.map fun es => .mapping (Table.ofEntries es)) where
  begins := ⟨_, _, rfl, rfl⟩
  node := by
    obtain ⟨nodes?, hnodes, hvalues⟩ := h
    refine ⟨nodes?.map (.mapping .mapping), fun block indentless fuel r rest hfuel => ?_, ?_⟩
    · simp only [List.length_append, List.length_cons, List.length_nil] at hfuel
      obtain ⟨fuel, rfl⟩ : ∃ n, fuel = n + 1 := ⟨fuel - 1, by omega⟩
      have hread := hnodes true fuel r rest (by omega)
      have hnode : NodeReader.node block indentless (fuel + 1)
          { r with tokens := .flowMappingStart ::
            (commaSeparated true lists ++ .flowMappingEnd :: rest) } =
          (do
            let (entries, r) ← flowEntries fuel true
              { r with tokens := commaSeparated true lists ++ .flowMappingEnd :: rest }
            return (.mapping .mapping entries, r)) := rfl
      simp only [Brackets.start, Brackets.finish, List.cons_append, List.append_assoc,
        List.nil_append, hnode, hread]
      cases nodes? <;> rfl
    · cases hvalues with
      | none => exact .none
      | some hvalues =>
        refine .some ?_
        rw [Node.value, hvalues]
        rfl

/-- The tokens of a node make up a document. -/
theorem Yields.node? (h : Yields tokens v?) : ∃ n? : Option Node,
    Yaml.node? tokens = n?.map some ∧ Option.Rel (fun n v => n.value = .ok v) n? v? := by
  obtain ⟨t, ts, rfl, ht⟩ := h.begins
  obtain ⟨n?, hnode, hvalue⟩ := h.node
  refine ⟨n?, ?_, hvalue⟩
  have hread := hnode true false (4 * (t :: ts).length + 8)
    { tokens := t :: ts, handles := defaultHandles } [] (by omega)
  rw [List.append_nil] at hread
  rw [Yaml.node?, document?]
  · dsimp only at hread ⊢
    rw [hread]
    cases n? <;> rfl
  · nofun
  · rintro d tail ⟨⟩
    cases ht
  · rintro tail ⟨⟩
    cases ht

end PolicyAuthoring.Yaml
