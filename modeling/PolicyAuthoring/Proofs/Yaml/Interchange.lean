import PolicyAuthoring.Proofs.Value.Table
import PolicyAuthoring.Proofs.Yaml.Flow
import Mathlib

/-!
# JSON texts read as YAML

JSON is written and YAML is read. `Value.reloaded?` is what becomes of a value on the way, and
`exists_read_mapping` says so for every mapping of JSON values: its text is either refused, because
a name in it is too long for a key, or read as a mapping in which

- a float that is written without a point has become a text,
- a character beyond the basic plane has become a pair of surrogates,

and everything else is as it was.
-/

namespace PolicyAuthoring

/-! ## JSON values -/

namespace Value

/-- A value that JSON has a form for: numbers are finite, and members are named by different
texts. -/
inductive IsJson : Value → Prop
  | null : IsJson .null
  | bool (b : Bool) : IsJson (.bool b)
  | int (n : Int) : IsJson (.int n)
  | float (x : Binary64) (hfinite : x.units?.isSome = true) : IsJson (.float x)
  | text (s : String) : IsJson (.text s)
  | list (items : List Value) (hitems : ∀ v ∈ items, IsJson v) : IsJson (.list items)
  | mapping (entries : List (Value × Value)) (hnames : ∀ e ∈ entries, ∃ s, e.1 = .text s)
      (hdistinct : Table.Distinct entries) (hentries : ∀ e ∈ entries, IsJson e.2) :
      IsJson (.mapping entries)

/-- The text that is read in a JSON string. -/
def reloadedText (codes : List Nat) : Value := .ofCodes (codes.flatMap Yaml.codeUnits)

mutual

/-- What YAML reads in the JSON text of a value, if it does not refuse the text. A float without a
point is a text, and a name that is too long for a key is refused. -/
def reloaded? : Value → Option Value
  | .float x => some (if '.' ∈ x.text.toList then .float x else .text x.text)
  | .text s => some (reloadedText (s.toList.map Char.toNat))
  | .list items => (reloadedItems? items).map .list
  | .mapping entries => (reloadedMembers? entries).map fun es => .mapping (Table.ofEntries es)
  | v => some v
termination_by structural v => v

/-- What YAML reads in the JSON texts of items. -/
def reloadedItems? : List Value → Option (List Value)
  | [] => some []
  | v :: rest => (reloaded? v).bind fun v => (reloadedItems? rest).map (v :: ·)
termination_by structural vs => vs

/-- What YAML reads in the JSON texts of members. -/
def reloadedMembers? : List (Value × Value) → Option (List (Value × Value))
  | [] => some []
  | e :: rest => (reloadedMember? e).bind fun e => (reloadedMembers? rest).map (e :: ·)
termination_by structural es => es

/-- What YAML reads in the JSON text of a member. -/
def reloadedMember? : Value × Value → Option (Value × Value)
  | (k, v) =>
    match Json.memberName k with
    | .ok codes =>
      if Yaml.Layout.fitsKey codes then (reloaded? v).map fun v => (reloadedText codes, v) else none
    | .error _ => none
termination_by structural e => e

end

theorem reloadedMembers?_cons (s : String) (v : Value) (rest : List (Value × Value)) :
    reloadedMembers? ((.text s, v) :: rest) =
      if Yaml.Layout.fitsKey (s.toList.map Char.toNat) then
        v.reloaded?.bind fun v =>
          (reloadedMembers? rest).map ((reloadedText (s.toList.map Char.toNat), v) :: ·)
      else none := by
  rw [reloadedMembers?, reloadedMember?, Json.memberName]
  dsimp only
  split
  · cases v.reloaded? <;> rfl
  · rfl

end Value

namespace Yaml

open Layout

/-! ## Texts -/

/-- Whether a character can stand in a JSON text. -/
def isJsonChar (c : Char) : Bool := c = '\n' || isPlainAscii c

/-- A text that stands for a value inside brackets is read as a value, or is refused. -/
structure Reads (text : String) (v? : Option Value) : Prop where
  /-- The characters of the text. -/
  chars : ∀ c ∈ text.toList, isJsonChar c = true
  /-- The text is scanned as the tokens of the value. -/
  tokens : ∃ tokens, Scans text.toList tokens ∧ Yields tokens v?

/-- Lines inside brackets are scanned as tokens that have a property. -/
structure ReadsLines (lines : List String) (p : List (List Token) → Prop) : Prop where
  /-- The characters of the lines. -/
  chars : ∀ line ∈ lines, ∀ c ∈ line.toList, isJsonChar c = true
  /-- The lines are scanned as tokens with the property. -/
  tokens : ∃ lists,
    List.Forall₂ (fun line tokens => ScansLine line.toList tokens) lines lists ∧ p lists

variable {text : String} {v : Value} {v? : Option Value} {lines : List String}

theorem isPlainAscii_of_isWordChar {c : Char} (h : isWordChar c = true) :
    isPlainAscii c = true := by
  simp only [isWordChar, Char.isAlphanum, Char.isAlpha, Char.isUpper, Char.isLower, Char.isDigit,
    Bool.or_eq_true, Bool.and_eq_true, decide_eq_true_eq, ge_iff_le, UInt32.le_iff_toNat_le,
    Char.toNat_val, Char.reduceToNat] at h
  rw [isPlainAscii, Bool.and_eq_true, decide_eq_true_eq, decide_eq_true_eq]
  rcases h with ((((h | h) | h) | rfl) | rfl) | rfl
  · omega
  · omega
  · omega
  · decide
  · decide
  · decide

theorem isJsonChar_of_isPlainAscii {c : Char} (h : isPlainAscii c = true) :
    isJsonChar c = true := by
  rw [isJsonChar, h, Bool.or_true]

/-! ### Words and strings -/

theorem Reads.word (hword : IsWord text.toList)
    (h : scalarValue (plainTag text.toList) (text.toList.map Char.toNat) = .ok v) :
    Reads text (some v) where
  chars c hc := isJsonChar_of_isPlainAscii (isPlainAscii_of_isWordChar (hword.chars c hc))
  tokens := by
    refine ⟨_, scans_word hword, .scalar ?_⟩
    rw [NodeReader.scalarTag, if_pos rfl, map_ofNat_map_toNat]
    exact h

theorem toList_stringText (codes : List Nat) :
    (Json.stringText codes).toList = stringChars codes := by
  rw [Json.stringText, String.toList_ofList, stringChars]

theorem Reads.string {codes : List Nat} (hcodes : ∀ code ∈ codes, code < 0x110000) :
    Reads (Json.stringText codes) (some (Value.reloadedText codes)) where
  chars c hc := by
    rw [toList_stringText] at hc
    exact isJsonChar_of_isPlainAscii (isPlainAscii_of_mem_stringChars hc)
  tokens := by
    rw [toList_stringText]
    exact ⟨_, (scansAnywhere_string hcodes).scans, .scalar rfl⟩

/-! ### Lines -/

theorem ReadsLines.nil {p : List (List Token) → Prop} (h : p []) : ReadsLines [] p where
  chars := nofun
  tokens := ⟨[], .nil, h⟩

theorem ReadsLines.item {vs? : Option (List Value)} (h : Reads text v?)
    (hs : ReadsLines lines fun lists => ItemsYield lists vs?) :
    ReadsLines (text :: lines) fun lists =>
      ItemsYield lists (v?.bind fun v => vs?.map (v :: ·)) where
  chars := List.forall_mem_cons.mpr ⟨h.chars, hs.chars⟩
  tokens := by
    obtain ⟨tokens, hscans, hyields⟩ := h.tokens
    obtain ⟨lists, hlines, hitems⟩ := hs.tokens
    exact ⟨_, .cons hscans.line hlines, hitems.cons hyields⟩

theorem ReadsLines.member {codes : List Nat} {es? : Option (List (Value × Value))}
    (hcodes : ∀ code ∈ codes, code < 0x110000) (h : Reads text v?)
    (hs : ReadsLines lines fun lists => MembersYield lists es?) :
    ReadsLines ((Json.stringText codes ++ ": " ++ text) :: lines) fun lists =>
      MembersYield lists (if fitsKey codes then
        v?.bind fun v => es?.map ((Value.reloadedText codes, v) :: ·) else none) where
  chars := by
    refine List.forall_mem_cons.mpr ⟨fun c hc => ?_, hs.chars⟩
    simp only [String.toList_append, toList_stringText, List.mem_append] at hc
    rcases hc with (hc | hc) | hc
    · exact isJsonChar_of_isPlainAscii (isPlainAscii_of_mem_stringChars hc)
    · have hcolon : ": ".toList.all isJsonChar = true := rfl
      exact List.all_eq_true.mp hcolon c hc
    · exact h.chars c hc
  tokens := by
    obtain ⟨tokens, hscans, hyields⟩ := h.tokens
    obtain ⟨lists, hlines, hmembers⟩ := hs.tokens
    refine ⟨_, .cons ?_ hlines, hmembers.cons codes hyields⟩
    have hline : (Json.stringText codes ++ ": " ++ text).toList =
        stringChars codes ++ ':' :: ' ' :: text.toList := by
      simp [toList_stringText]
    rw [hline]
    exact scansLine_member hcodes hscans

/-! ### Blocks -/

theorem mem_joinWith {separator : String} {c : Char}
    (hc : c ∈ (Text.joinWith separator lines).toList) :
    c ∈ separator.toList ∨ ∃ line ∈ lines, c ∈ line.toList := by
  induction lines with
  | nil => cases hc
  | cons line lines ih =>
    cases lines with
    | nil => exact Or.inr ⟨line, List.mem_cons_self .., hc⟩
    | cons next lines =>
      rw [Text.joinWith_cons_cons, String.toList_append, String.toList_append, List.mem_append,
        List.mem_append] at hc
      rcases hc with (hc | hc) | hc
      · exact Or.inr ⟨line, List.mem_cons_self .., hc⟩
      · exact Or.inl hc
      · exact (ih hc).imp_right fun ⟨line, hline, hc⟩ => ⟨line, List.mem_cons_of_mem _ hline, hc⟩

theorem isJsonChar_of_mem_lineBreak {level : Nat} {c : Char}
    (hc : c ∈ (Json.lineBreak level).toList) : isJsonChar c = true := by
  rw [Json.lineBreak, String.toList_ofList] at hc
  rcases List.mem_cons.mp hc with rfl | hc
  · rfl
  · rw [List.eq_of_mem_replicate hc]
    rfl

theorem chars_block (h : ∀ line ∈ lines, ∀ c ∈ line.toList, isJsonChar c = true) (b : Brackets)
    (level : Nat) :
    ∀ c ∈ (Json.block (String.singleton b.opening) (String.singleton b.closing) level
      lines).toList, isJsonChar c = true := by
  intro c hc
  have hopening : isJsonChar b.opening = true := by cases b <;> rfl
  have hclosing : isJsonChar b.closing = true := by cases b <;> rfl
  rw [Json.block] at hc
  split at hc
  · simp only [String.toList_append, String.toList_singleton, List.mem_append,
      List.mem_singleton] at hc
    rcases hc with rfl | rfl
    · exact hopening
    · exact hclosing
  · simp only [String.toList_append, String.toList_singleton, List.mem_append,
      List.mem_singleton] at hc
    rcases hc with (((rfl | hc) | hc) | hc) | rfl
    · exact hopening
    · exact isJsonChar_of_mem_lineBreak hc
    · rcases mem_joinWith hc with hc | ⟨line, hline, hc⟩
      · rw [String.toList_append, List.mem_append] at hc
        rcases hc with hc | hc
        · rw [List.mem_singleton.mp hc]
          rfl
        · exact isJsonChar_of_mem_lineBreak hc
      · exact h line hline c hc
    · exact isJsonChar_of_mem_lineBreak hc
    · exact hclosing

/-- A block of items is read as a list. -/
theorem ReadsLines.sequence {vs? : Option (List Value)}
    (h : ReadsLines lines fun lists => ItemsYield lists vs?) (level : Nat) :
    Reads (Json.block "[" "]" level lines) (vs?.map .list) where
  chars := chars_block h.chars .square level
  tokens := by
    obtain ⟨lists, hlines, hitems⟩ := h.tokens
    exact ⟨_, (scansAnywhere_block hlines .square level).scans, hitems.sequence⟩

/-- A block of members is read as a mapping. -/
theorem ReadsLines.mapping {es? : Option (List (Value × Value))}
    (h : ReadsLines lines fun lists => MembersYield lists es?) (level : Nat) :
    Reads (Json.block "\x7b" "\x7d" level lines)
      (es?.map fun es => .mapping (Table.ofEntries es)) where
  chars := chars_block h.chars .curly level
  tokens := by
    obtain ⟨lists, hlines, hmembers⟩ := h.tokens
    exact ⟨_, (scansAnywhere_block hlines .curly level).scans, hmembers.mapping⟩

/-! ## Values -/

theorem isWord_withSign (negative : Bool) {first : Char} {cs : List Char}
    (hfirst : first.isDigit = true) (hcs : ∀ c ∈ cs, Binary64.isNumeralChar c = true) :
    IsWord (withSign negative (first :: cs)) := by
  have hdigit {c : Char} (h : c.isDigit = true) : c.isAlphanum = true := by
    rw [Char.isAlphanum, h, Bool.or_true]
  have hchar {c : Char} (h : Binary64.isNumeralChar c = true) : isWordChar c = true := by
    simp only [Binary64.isNumeralChar, Bool.or_eq_true, decide_eq_true_eq] at h
    rcases h with (((h | rfl) | rfl) | rfl) | rfl
    · simp [isWordChar, hdigit h]
    · rfl
    · rfl
    · rfl
    · rfl
  have hall : ∀ c ∈ first :: cs, isWordChar c = true :=
    List.forall_mem_cons.mpr
      ⟨hchar (Binary64.isNumeralChar_of_isDigit hfirst), fun c hc => hchar (hcs c hc)⟩
  cases negative with
  | false => exact ⟨hall, first, cs, hdigit hfirst, Or.inl rfl⟩
  | true => exact ⟨List.forall_mem_cons.mpr ⟨rfl, hall⟩, first, cs, hdigit hfirst, Or.inr rfl⟩

theorem isWord_decimalText (n : Int) : IsWord (decimalText n).toList := by
  obtain ⟨first, cs, hcons⟩ := List.exists_cons_of_ne_nil (@decimalDigits_ne_nil n.natAbs)
  have hdigits : ∀ c ∈ first :: cs, c.isDigit = true :=
    fun c hc => isDigit_of_mem_decimalDigits (hcons ▸ hc)
  rw [toList_decimalText, hcons]
  exact isWord_withSign _ (hdigits first (List.mem_cons_self ..)) fun c hc =>
    Binary64.isNumeralChar_of_isDigit (hdigits c (List.mem_cons_of_mem _ hc))

theorem isWord_text {x : Binary64} (hfinite : x.units?.isSome = true) : IsWord x.text.toList := by
  obtain ⟨negative, rank, cs, -, hspelling, htext⟩ := exists_text_eq_withSign hfinite
  obtain ⟨first, rest, rfl, hfirst, hrest⟩ := hspelling.exists_cons
  rw [htext]
  exact isWord_withSign negative hfirst hrest

theorem numberText_of_finite {x : Binary64} (hfinite : x.units?.isSome = true) :
    Json.numberText x = x.text := by
  have hne {y : Binary64} (hy : y.units?.isSome = false) : x ≠ y := by
    rintro rfl
    rw [hfinite] at hy
    cases hy
  rw [Json.numberText, if_neg (hne rfl), if_neg (hne rfl), if_neg (hne rfl)]

theorem toNat_lt_of_mem {s : String} : ∀ code ∈ s.toList.map Char.toNat, code < 0x110000 := by
  intro code hcode
  obtain ⟨c, -, rfl⟩ := List.mem_map.mp hcode
  rcases c.valid with h | ⟨-, h⟩
  · exact Nat.lt_trans h (by decide)
  · exact h

/-- A value is written in JSON, and YAML reads the text. -/
def IsRead (v : Value) : Prop :=
  ∀ level, ∃ text, Json.writeAt level v = .ok text ∧ Reads text v.reloaded?

theorem exists_readsItems {items : List Value} (h : ∀ v ∈ items, IsRead v) (level : Nat) :
    ∃ lines, Json.writeItems level items = .ok lines ∧
      ReadsLines lines fun lists => ItemsYield lists (Value.reloadedItems? items) := by
  induction items with
  | nil => exact ⟨[], rfl, .nil .nil⟩
  | cons v items ih =>
    obtain ⟨text, htext, hreads⟩ := h v (List.mem_cons_self ..) level
    obtain ⟨lines, hlines, hreads'⟩ := ih fun w hw => h w (List.mem_cons_of_mem _ hw)
    refine ⟨text :: lines, ?_, .item hreads hreads'⟩
    rw [Json.writeItems, htext, ok_bind, hlines]
    rfl

theorem exists_readsMembers {entries : List (Value × Value)}
    (hnames : ∀ e ∈ entries, ∃ s, e.1 = .text s) (h : ∀ e ∈ entries, IsRead e.2) (level : Nat) :
    ∃ lines, Json.writeMembers level entries = .ok lines ∧
      ReadsLines lines fun lists => MembersYield lists (Value.reloadedMembers? entries) := by
  induction entries with
  | nil => exact ⟨[], rfl, .nil .nil⟩
  | cons e entries ih =>
    obtain ⟨text, htext, hreads⟩ := h e (List.mem_cons_self ..) level
    obtain ⟨lines, hlines, hreads'⟩ := ih (fun f hf => hnames f (List.mem_cons_of_mem _ hf))
      fun f hf => h f (List.mem_cons_of_mem _ hf)
    obtain ⟨s, hs⟩ := hnames e (List.mem_cons_self ..)
    obtain ⟨k, v⟩ := e
    subst hs
    refine ⟨(Json.stringText (s.toList.map Char.toNat) ++ ": " ++ text) :: lines, ?_, ?_⟩
    · rw [Json.writeMembers, Json.writeMember, Json.memberName, ok_bind, htext, ok_bind, hlines]
      rfl
    · rw [Value.reloadedMembers?_cons]
      exact .member toNat_lt_of_mem hreads hreads'

/-- Every value that JSON has a form for is written, and YAML reads the text. -/
theorem isRead_of_isJson (h : v.IsJson) : IsRead v := by
  intro level
  induction h generalizing level with
  | null => exact ⟨_, rfl, .word ⟨List.all_eq_true.mp rfl, 'n', _, rfl, Or.inl rfl⟩ rfl⟩
  | bool b =>
    cases b with
    | false => exact ⟨_, rfl, .word ⟨List.all_eq_true.mp rfl, 'f', _, rfl, Or.inl rfl⟩ rfl⟩
    | true => exact ⟨_, rfl, .word ⟨List.all_eq_true.mp rfl, 't', _, rfl, Or.inl rfl⟩ rfl⟩
  | int n => exact ⟨_, rfl, .word (isWord_decimalText n) (scalarValue_decimalText n)⟩
  | float x hfinite =>
    refine ⟨x.text, ?_, .word (isWord_text hfinite) (scalarValue_text hfinite)⟩
    rw [Json.writeAt, numberText_of_finite hfinite]
  | text s => exact ⟨_, rfl, .string toNat_lt_of_mem⟩
  | list items hitems ih =>
    obtain ⟨lines, hlines, hreads⟩ := exists_readsItems ih (level + 1)
    refine ⟨Json.block "[" "]" level lines, ?_, hreads.sequence level⟩
    rw [Json.writeAt, hlines]
    rfl
  | mapping entries hnames hdistinct hentries ih =>
    obtain ⟨lines, hlines, hreads⟩ := exists_readsMembers hnames ih (level + 1)
    refine ⟨Json.block "\x7b" "\x7d" level lines, ?_, hreads.mapping level⟩
    rw [Json.writeAt, hlines]
    rfl

/-! ## Whole texts -/

theorem isAllowed_of_isJsonChar {c : Char} (h : isJsonChar c = true) : isAllowed c = true := by
  rw [isJsonChar, Bool.or_eq_true, decide_eq_true_eq] at h
  rcases h with rfl | h
  · rfl
  · rw [isPlainAscii, Bool.and_eq_true, decide_eq_true_eq, decide_eq_true_eq] at h
    have : c.toNat ≤ 126 := by omega
    simp [isAllowed, h.1, this]

theorem lineFeeds_eq_self {cs : List Char} (h : ∀ c ∈ cs, isJsonChar c = true) :
    lineFeeds cs = cs := by
  induction cs with
  | nil => rfl
  | cons c cs ih =>
    have hc : c ≠ '\r' := by
      rintro rfl
      exact absurd (h '\r' (List.mem_cons_self ..)) (by decide)
    rw [lineFeeds, ih fun d hd => h d (List.mem_cons_of_mem _ hd)]
    · rintro rest rfl
      exact absurd rfl hc
    · rintro rfl
      exact absurd rfl hc

/-- A block of members on its own is read as a mapping, or is refused. -/
theorem ReadsLines.read_block {es? : Option (List (Value × Value))}
    (h : ReadsLines lines fun lists => MembersYield lists es?) :
    read (Json.block "\x7b" "\x7d" 0 lines ++ "\n") =
      (es?.map fun es => .mapping (Table.ofEntries es)).elim (.error .malformed) .ok := by
  obtain ⟨lists, hlines, hmembers⟩ := h.tokens
  obtain ⟨n?, hnode, hvalue⟩ := hmembers.mapping.node?
  generalize htext : Json.block "\x7b" "\x7d" 0 lines = text
  have hchars : ∀ c ∈ (text ++ "\n").toList, isJsonChar c = true := by
    rw [String.toList_append]
    exact List.forall_mem_append.mpr
      ⟨htext ▸ chars_block h.chars .curly 0, List.all_eq_true.mp rfl⟩
  have hallowed : (text ++ "\n").toList.all isAllowed = true :=
    List.all_eq_true.mpr fun c hc => isAllowed_of_isJsonChar (hchars c hc)
  have htokens : tokens? (text ++ "\n").toList =
      some (Brackets.curly.start :: (commaSeparated true lists ++ [Brackets.curly.finish])) := by
    have hscan : ∀ l : Layout, l.At 0 [] (text ++ "\n").toList → _ := fun l hat => by
      rw [String.toList_append] at hat
      exact scansAnywhere_block hlines .curly 0 (htext ▸ hat)
    rw [tokens?_eq ?_ hscan rfl, List.append_nil, List.reverse_reverse]
    intro hhead
    exact absurd (hchars _ (List.mem_of_mem_head? hhead)) (by decide)
  -- The text is printable, so nothing is refused or changed before it is scanned.
  rw [read, lineFeeds_eq_self hchars, if_pos hallowed, htokens, Option.bind_some, hnode]
  generalize (es?.map fun es => Value.mapping (Table.ofEntries es)) = v? at hvalue ⊢
  cases hvalue with
  | none => rfl
  | some hvalue => exact hvalue

/-- The JSON text of a mapping is read as the mapping that is loaded again from it. -/
theorem exists_read_mapping {entries : List (Value × Value)} (h : (Value.mapping entries).IsJson) :
    ∃ text, Json.write (.mapping entries) = .ok text ∧
      read (text ++ "\n") = (Value.mapping entries).reloaded?.elim (.error .malformed) .ok := by
  cases h with
  | mapping _ hnames hdistinct hentries =>
    obtain ⟨lines, hlines, hreads⟩ :=
      exists_readsMembers hnames (fun e he => isRead_of_isJson (hentries e he)) 1
    refine ⟨Json.block "\x7b" "\x7d" 0 lines, ?_, hreads.read_block⟩
    rw [Json.write, Json.writeAt, hlines]
    rfl

end Yaml

end PolicyAuthoring
