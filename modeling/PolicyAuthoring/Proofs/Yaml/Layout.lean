import PolicyAuthoring.Yaml.Layout
import PolicyAuthoring.Proofs.Yaml.Quoted

/-!
# Tokens inside brackets

Inside brackets the layout of a text matters little: no blocks are opened or closed, gaps are passed
over, and the only thing to remember is where a key may have begun. `Layout.Settled` states what
stays the same there, `Layout.At` adds where a state stands, and `Layout.Reaches` says that one
state is reached from another by reading tokens. There is one lemma for each token that JSON writes:
`At.openBracket`, `At.closeBracket`, `At.comma`, `At.string`, `At.key` and `At.word`. A string
becomes a key only if the colon after it is near enough.
-/

namespace PolicyAuthoring.Yaml

/-! ## Places in a text -/

theorem isBreak_of_isPlainAscii {c : Char} (h : isPlainAscii c = true) : isBreak c = false := by
  rw [← Bool.not_eq_true]
  intro hbreak
  simp only [isBreak, Bool.or_eq_true, decide_eq_true_eq] at hbreak
  rcases hbreak with ((rfl | rfl) | rfl) | rfl <;> cases h

namespace Cursor

theorem rest_advance (n : Nat) (c : Cursor) : (c.advance n).rest = c.rest.drop n := by
  induction n generalizing c with
  | zero => rfl
  | succ n ih =>
    unfold advance
    cases hrest : c.rest with
    | nil => simp [hrest]
    | cons ch rest =>
      dsimp only
      split
      · rw [ih, List.drop_succ_cons]
      split
      · rw [ih, List.drop_succ_cons]
      · rw [ih, List.drop_succ_cons]

/-- Moving to the end of some characters leads to what follows them. -/
theorem rest_moveTo {c : Cursor} {rest : List Char} (h : rest <:+ c.rest) :
    (c.moveTo rest).rest = rest := by
  rw [moveTo, rest_advance]
  exact (List.suffix_iff_eq_drop.mp h).symm

/-- Moving over printable characters stays on the line and counts the characters. -/
theorem advance_plain {c : Cursor} {cs rest : List Char} (hrest : c.rest = cs ++ rest)
    (hplain : ∀ ch ∈ cs, isPlainAscii ch = true) :
    (c.advance cs.length).line = c.line ∧ (c.advance cs.length).index = c.index + cs.length := by
  induction cs generalizing c with
  | nil => exact ⟨rfl, rfl⟩
  | cons ch cs ih =>
    have hch : isPlainAscii ch = true := hplain ch (List.mem_cons_self ..)
    have hmark : ch ≠ '\uFEFF' := by
      rintro rfl
      cases hch
    rw [List.length_cons, advance, hrest, List.cons_append]
    dsimp only
    rw [isBreak_of_isPlainAscii hch, if_neg Bool.false_ne_true, if_neg hmark]
    generalize hnext : Cursor.mk (cs ++ rest) (c.index + 1) c.line (c.column + 1) = next
    obtain ⟨hline, hindex⟩ := ih (show next.rest = cs ++ rest by rw [← hnext])
      fun ch h => hplain ch (List.mem_cons_of_mem _ h)
    subst hnext
    exact ⟨hline, by rw [hindex, Nat.add_assoc, Nat.add_comm 1]⟩

end Cursor

/-- The kinds of brackets. -/
inductive Brackets where
  /-- The brackets of a sequence. -/
  | square
  /-- The brackets of a mapping. -/
  | curly

namespace Brackets

/-- The opening bracket. -/
def opening : Brackets → Char
  | square => '['
  | curly => '\x7b'

/-- The closing bracket. -/
def closing : Brackets → Char
  | square => ']'
  | curly => '\x7d'

/-- The token of the opening bracket. -/
def start : Brackets → Token
  | square => .flowSequenceStart
  | curly => .flowMappingStart

/-- The token of the closing bracket. -/
def finish : Brackets → Token
  | square => .flowSequenceEnd
  | curly => .flowMappingEnd

end Brackets

namespace Layout

/-! ## Gaps -/

/-- What follows the gap at the front of a text. -/
def ahead (cs : List Char) : List Char := (gap false cs).2

theorem gap_suffix (comment : Bool) (cs : List Char) : (gap comment cs).2 <:+ cs := by
  induction cs generalizing comment with
  | nil => exact List.suffix_rfl
  | cons c cs ih =>
    unfold gap
    split
    · exact (ih false).trans (List.suffix_cons ..)
    split
    · exact (ih true).trans (List.suffix_cons ..)
    split
    · exact (ih false).trans (List.suffix_cons ..)
    · exact List.suffix_rfl

theorem ahead_suffix (cs : List Char) : ahead cs <:+ cs := gap_suffix false cs

/-- Where there is no gap, nothing is passed over. -/
theorem ahead_eq_self {c : Char} (hgap : isGap c = false) (hcomment : c ≠ '#') (cs : List Char) :
    ahead (c :: cs) = c :: cs := by
  rw [isGap, Bool.or_eq_false_iff, Bool.or_eq_false_iff, decide_eq_false_iff_not] at hgap
  rw [ahead, gap, if_neg (by simpa using hgap.2), if_neg (by simpa using hcomment),
    if_neg hgap.1.1]

theorem ahead_spaces (spaces : Nat) (cs : List Char) :
    ahead (List.replicate spaces ' ' ++ cs) = ahead cs := by
  induction spaces with
  | zero => rfl
  | succ spaces ih => exact ih

theorem ahead_lineBreak (level : Nat) (cs : List Char) :
    ahead ((Json.lineBreak level).toList ++ cs) = ahead cs := by
  rw [Json.lineBreak, String.toList_ofList, List.cons_append]
  exact ahead_spaces (2 * level) cs

/-! ## States -/

/-- A mark that a key may have begun at, and need not. -/
def IsOptional (mark : Option KeyMark) : Prop := ∀ m ∈ mark, m.required = false

/-- What holds while no block is open: the number of open brackets is known, and no key has to
begin anywhere. -/
structure Settled (l : Layout) (depth : Nat) : Prop where
  /-- No block is open. -/
  indent : l.indent = -1
  /-- No block is open around another one. -/
  outerIndents : l.outerIndents = []
  /-- The tokens are counted. -/
  count : l.count = l.tokens.length
  /-- No key has to begin inside the innermost brackets. -/
  mark : IsOptional l.mark
  /-- No key has to begin outside of them. -/
  outerMarks : ∀ mark ∈ l.outerMarks, IsOptional mark
  /-- The number of open brackets. -/
  depth : l.outerMarks.length = depth

variable {l l' l'' : Layout} {depth : Nat}

theorem Settled.inFlow (h : l.Settled (depth + 1)) : l.inFlow = true := by
  have := h.depth
  rw [Layout.inFlow]
  cases hmarks : l.outerMarks with
  | nil => rw [hmarks] at this; cases this
  | cons => rfl

theorem forgetMark_eq (h : IsOptional l.mark) : l.forgetMark = some { l with mark := none } := by
  unfold forgetMark
  cases hmark : l.mark with
  | none =>
    dsimp only
    rw [← hmark]
  | some mark =>
    dsimp only
    rw [h mark hmark, if_neg Bool.false_ne_true]

/-- The mark that is left of an optional one at a place. -/
def alive (c : Cursor) (mark : Option KeyMark) : Option KeyMark :=
  mark.filter fun m => !m.expired c

theorem liveMark_eq {c : Cursor} {mark : Option KeyMark} (h : IsOptional mark) :
    liveMark c mark = some (alive c mark) := by
  cases mark with
  | none => rfl
  | some m =>
    rw [liveMark, h m rfl, alive]
    cases hexpired : m.expired c <;> simp [Option.filter, hexpired]

theorem IsOptional.alive {mark : Option KeyMark} (h : IsOptional mark) (c : Cursor) :
    IsOptional (alive c mark) := by
  intro m hm
  exact h m (Option.mem_filter_iff.mp hm).1

/-- The state after a gap. -/
def skipped (l : Layout) : Layout :=
  let cursor := l.cursor.moveTo (ahead l.cursor.rest)
  { l with
    cursor
    allowKey := l.allowKey || ((gap false l.cursor.rest).1 && !l.inFlow)
    mark := alive cursor l.mark
    outerMarks := l.outerMarks.map (alive cursor) }

theorem Settled.skipped (h : l.Settled depth) : l.skipped.Settled depth := by
  refine ⟨h.indent, h.outerIndents, h.count, h.mark.alive _, ?_, ?_⟩
  · intro mark hmark
    obtain ⟨old, hold, rfl⟩ := List.mem_map.mp hmark
    exact (h.outerMarks old hold).alive _
  · rw [Layout.skipped]
    exact (List.length_map ..).trans h.depth

theorem mapM_liveMark {c : Cursor} {marks : List (Option KeyMark)}
    (h : ∀ mark ∈ marks, IsOptional mark) :
    marks.mapM (liveMark c) = some (marks.map (alive c)) := by
  induction marks with
  | nil => rfl
  | cons mark marks ih =>
    rw [List.mapM_cons, liveMark_eq (h mark (List.mem_cons_self ..)),
      ih fun m hm => h m (List.mem_cons_of_mem _ hm)]
    rfl

/-- Where no block is open, none is closed. -/
theorem Settled.unwind (h : l.Settled depth) (column : Int) : l.unwind column = l := by
  obtain ⟨hindent, houter, -⟩ := h
  unfold Layout.unwind
  split
  · rfl
  · rw [hindent, houter]
    cases l
    simp_all [openBlocks]

/-- Where no block is open, a gap is passed over. -/
theorem Settled.skipGap (h : l.Settled depth) : l.skipGap = some l.skipped := by
  have hskipped := h.skipped.unwind
  unfold Layout.skipGap dropExpired
  simp only [Layout.moveTo, liveMark_eq h.mark, mapM_liveMark h.outerMarks, Option.bind_eq_bind,
    Option.bind_some, Option.pure_def]
  exact congrArg some (hskipped _)

/-! ## Reading tokens -/

/-- A state is reached from another one by reading tokens, each of which takes a character. -/
def Reaches (l l' : Layout) : Prop :=
  ∃ n, n + l'.cursor.rest.length ≤ l.cursor.rest.length ∧
    ∀ fuel, run (fuel + n) l = run fuel l'

theorem Reaches.trans (h : Reaches l l') (h' : Reaches l' l'') : Reaches l l'' := by
  obtain ⟨n, hn, hrun⟩ := h
  obtain ⟨m, hm, hrun'⟩ := h'
  exact ⟨m + n, by omega, fun fuel => by rw [← Nat.add_assoc, hrun, hrun']⟩

/-- Where a state stands: how many brackets are open, which tokens were read, and what follows,
gaps left out. -/
structure At (l : Layout) (depth : Nat) (tokens : List Token) (text : List Char) : Prop extends
    Settled l depth where
  /-- The tokens so far, the last one first. -/
  tokens : l.tokens = tokens
  /-- What follows. -/
  ahead : ahead l.cursor.rest = ahead text

variable {tokens : List Token} {text rest : List Char}

/-- A gap in front does not matter. -/
theorem At.of_ahead (h : l.At depth tokens text)
    (htext : Layout.ahead text = Layout.ahead rest) : l.At depth tokens rest :=
  { h with ahead := h.ahead.trans htext }

theorem At.skipped (h : l.At depth tokens text) :
    l.skipped.Settled depth ∧ l.skipped.tokens = tokens ∧
      l.skipped.cursor.rest = Layout.ahead text := by
  refine ⟨h.toSettled.skipped, h.tokens, ?_⟩
  rw [← h.ahead]
  exact Cursor.rest_moveTo (ahead_suffix _)

/-- One token leads to the state after it. -/
theorem At.reaches (h : l.At depth tokens text) {c : Char} (hahead : Layout.ahead text = c :: rest)
    (hread : l.skipped.readToken c rest = some l')
    (hrest : l'.cursor.rest.length ≤ rest.length) : Reaches l l' := by
  have hcursor := h.skipped.2.2.trans hahead
  refine ⟨1, ?_, fun fuel => ?_⟩
  · have := (ahead_suffix l.cursor.rest).length_le
    rw [h.ahead, hahead, List.length_cons] at this
    omega
  · rw [run, h.skipGap, Option.bind_eq_bind, Option.bind_some, hcursor]
    dsimp only
    rw [hread]
    rfl

/-! ### Brackets and commas -/

/-- A place at which a key may begin is remembered, and nothing else is changed. -/
theorem Settled.saveMark (h : l.Settled depth) : ∃ mark, IsOptional mark ∧
    l.saveMark = some { l with mark } ∧
    (l.allowKey = true → mark = some ⟨l.count, false, l.cursor.index, l.cursor.line,
      l.cursor.column⟩) := by
  unfold Layout.saveMark
  by_cases hallow : l.allowKey = true
  · have hindent : decide (l.indent = (l.cursor.column : Int)) = false := by
      rw [h.indent, decide_eq_false_iff_not]
      omega
    rw [if_pos hallow, forgetMark_eq h.mark, Option.bind_eq_bind, Option.bind_some]
    dsimp only
    rw [hindent, Bool.and_false]
    refine ⟨_, ?_, rfl, fun _ => rfl⟩
    intro m hm
    rw [← Option.mem_some.mp hm]
  · rw [if_neg hallow]
    exact ⟨l.mark, h.mark, rfl, fun h => absurd h hallow⟩

/-- A token that was read is added at the end, and reading goes on after it. -/
theorem At.reaches_push (h : l.At depth tokens text) {s : Layout} {depth' : Nat} {c : Char}
    {following : List Char} {token : Token} (hahead : Layout.ahead text = c :: following)
    (hread : l.skipped.readToken c following = some ((s.push token).moveTo rest))
    (hsettled : s.Settled depth') (hcursor : s.cursor = l.skipped.cursor)
    (hrest : rest <:+ following) :
    l.Reaches ((s.push token).moveTo rest) ∧
      ((s.push token).moveTo rest).At depth' (token :: s.tokens) rest := by
  have hsuffix : rest <:+ s.cursor.rest := by
    rw [hcursor, h.skipped.2.2, hahead]
    exact hrest.trans (List.suffix_cons ..)
  have hmoved : (s.cursor.moveTo rest).rest = rest := Cursor.rest_moveTo hsuffix
  refine ⟨h.reaches hahead hread ?_, ?_⟩
  · exact Nat.le_trans (Nat.le_of_eq (congrArg List.length hmoved)) hrest.length_le
  · exact
      { indent := hsettled.indent
        outerIndents := hsettled.outerIndents
        count := congrArg (· + 1) hsettled.count
        mark := hsettled.mark
        outerMarks := hsettled.outerMarks
        depth := hsettled.depth
        tokens := rfl
        ahead := congrArg Layout.ahead hmoved }

/-- An opening bracket. -/
theorem At.openBracket (b : Brackets) (h : l.At depth tokens (b.opening :: rest)) :
    ∃ l', l.Reaches l' ∧ l'.At (depth + 1) (b.start :: tokens) rest ∧ l'.allowKey = true := by
  have hahead : Layout.ahead (b.opening :: rest) = b.opening :: rest := by
    cases b <;> exact ahead_eq_self rfl (by decide) rest
  have hread : l.skipped.readToken b.opening rest = l.skipped.openBracket b.start rest := by
    cases b <;> simp [readToken, atBoundary, Brackets.opening, Brackets.start]
  obtain ⟨hsettled, rfl, -⟩ := h.skipped
  obtain ⟨mark, hmark, hsave, -⟩ := hsettled.saveMark
  rw [Layout.openBracket, hsave, Option.bind_eq_bind, Option.bind_some] at hread
  obtain ⟨hreaches, hat⟩ := h.reaches_push hahead hread
    { hsettled with
      mark := nofun
      outerMarks := List.forall_mem_cons.mpr ⟨hmark, hsettled.outerMarks⟩
      depth := congrArg (· + 1) hsettled.depth } rfl List.suffix_rfl
  exact ⟨_, hreaches, hat, rfl⟩

/-- A closing bracket. -/
theorem At.closeBracket (b : Brackets) (h : l.At (depth + 1) tokens (b.closing :: rest)) :
    ∃ l', l.Reaches l' ∧ l'.At depth (b.finish :: tokens) rest := by
  have hahead : Layout.ahead (b.closing :: rest) = b.closing :: rest := by
    cases b <;> exact ahead_eq_self rfl (by decide) rest
  have hread : l.skipped.readToken b.closing rest = l.skipped.closeBracket b.finish rest := by
    cases b <;> simp [readToken, atBoundary, Brackets.closing, Brackets.finish]
  obtain ⟨hsettled, rfl, -⟩ := h.skipped
  obtain ⟨mark, outerMarks, houter⟩ : ∃ mark marks, l.skipped.outerMarks = mark :: marks :=
    List.exists_cons_of_length_eq_add_one hsettled.depth
  rw [Layout.closeBracket, forgetMark_eq hsettled.mark, Option.bind_eq_bind,
    Option.bind_some] at hread
  dsimp only at hread
  rw [houter] at hread
  have hmarks := hsettled.outerMarks
  have hdepth := hsettled.depth
  rw [houter] at hmarks hdepth
  obtain ⟨hreaches, hat⟩ := h.reaches_push hahead hread
    { hsettled with
      mark := hmarks mark (List.mem_cons_self ..)
      outerMarks := fun m hm => hmarks m (List.mem_cons_of_mem _ hm)
      depth := Nat.succ.inj hdepth } rfl List.suffix_rfl
  exact ⟨_, hreaches, hat⟩

/-- A comma. -/
theorem At.comma (h : l.At (depth + 1) tokens (',' :: rest)) :
    ∃ l', l.Reaches l' ∧ l'.At (depth + 1) (.flowEntry :: tokens) rest ∧ l'.allowKey = true := by
  have hahead : Layout.ahead (',' :: rest) = ',' :: rest := ahead_eq_self rfl (by decide) rest
  have hread : l.skipped.readToken ',' rest = l.skipped.readComma rest := by
    simp [readToken, atBoundary]
  obtain ⟨hsettled, rfl, -⟩ := h.skipped
  rw [readComma, forgetMark_eq hsettled.mark, Option.bind_eq_bind, Option.bind_some] at hread
  obtain ⟨hreaches, hat⟩ := h.reaches_push hahead hread
    { hsettled with mark := nofun } rfl List.suffix_rfl
  exact ⟨_, hreaches, hat, rfl⟩

/-! ### Strings and keys -/

/-- The characters of a JSON string with its quotes. -/
def stringChars (codes : List Nat) : List Char := '"' :: (codes.flatMap Json.escaped ++ ['"'])

theorem isPlainAscii_of_mem_stringChars {codes : List Nat} {c : Char}
    (h : c ∈ stringChars codes) : isPlainAscii c = true := by
  rcases List.mem_cons.mp h with rfl | h
  · rfl
  rcases List.mem_append.mp h with h | h
  · obtain ⟨code, -, hcode⟩ := List.mem_flatMap.mp h
    exact isPlainAscii_of_mem_escaped hcode
  · rw [List.mem_singleton.mp h]
    rfl

/-- A string. If a key may begin there, its beginning is remembered. -/
theorem At.string {codes : List Nat} (hcodes : ∀ code ∈ codes, code < 0x110000)
    (h : l.At depth tokens (stringChars codes ++ rest)) :
    ∃ l', l.Reaches l' ∧ l'.At depth (.scalar false (codes.flatMap codeUnits) :: tokens) rest ∧
      l'.cursor.rest = rest ∧ (l.allowKey = true → ∃ mark, l'.mark = some mark ∧
        mark.before = tokens.length ∧ mark.required = false ∧ mark.line = l'.cursor.line ∧
        l'.cursor.index = mark.index + (stringChars codes).length) := by
  have hsplit : stringChars codes ++ rest = '"' :: (codes.flatMap Json.escaped ++ '"' :: rest) := by
    simp [stringChars]
  have hahead : Layout.ahead (stringChars codes ++ rest) =
      '"' :: (codes.flatMap Json.escaped ++ '"' :: rest) := by
    rw [hsplit]
    exact ahead_eq_self rfl (by decide) _
  have hread : l.skipped.readToken '"' (codes.flatMap Json.escaped ++ '"' :: rest) =
      l.skipped.readKeyed (readQuoted true (codes.flatMap Json.escaped ++ '"' :: rest)) := by
    simp [readToken, atBoundary]
  obtain ⟨hsettled, rfl, hcursor⟩ := h.skipped
  obtain ⟨mark, hmark, hsave, hkey⟩ := hsettled.saveMark
  rw [readKeyed, hsave, readQuoted_escaped hcodes, Option.bind_eq_bind, Option.bind_some,
    Option.bind_eq_bind, Option.bind_some] at hread
  obtain ⟨hreaches, hat⟩ := h.reaches_push hahead hread { hsettled with mark := hmark } rfl
    ((List.suffix_cons ..).trans (List.suffix_append ..))
  rw [hahead, ← hsplit] at hcursor
  have hmoved : l.skipped.cursor.moveTo rest =
      l.skipped.cursor.advance (stringChars codes).length := by
    rw [Cursor.moveTo, hcursor, List.length_append, Nat.add_sub_cancel]
  obtain ⟨hline, hindex⟩ :=
    Cursor.advance_plain hcursor fun c hc => isPlainAscii_of_mem_stringChars hc
  refine ⟨_, hreaches, hat, ?_, fun hallow => ⟨_, hkey ?_, hsettled.count, rfl, ?_, ?_⟩⟩
  · exact Cursor.rest_moveTo (hcursor ▸ List.suffix_append ..)
  · rw [Layout.skipped, hallow, Bool.true_or]
  · exact (congrArg Cursor.line hmoved).trans hline |>.symm
  · exact (congrArg Cursor.index hmoved).trans hindex

/-- A key before the last token. -/
theorem Settled.insertKey (h : l.Settled depth) {token : Token}
    (htokens : l.tokens = token :: tokens) :
    (l.insertAt tokens.length [.key]).Settled depth ∧
      (l.insertAt tokens.length [.key]).tokens = token :: .key :: tokens := by
  have hcount : l.count - tokens.length = 1 := by
    rw [h.count, htokens, List.length_cons]
    omega
  have hinserted : (l.insertAt tokens.length [.key]).tokens = token :: .key :: tokens := by
    rw [insertAt, hcount, htokens]
    rfl
  refine ⟨{ h with count := ?_ }, hinserted⟩
  rw [hinserted]
  exact congrArg (· + 1) (h.count.trans (by rw [htokens]))

/-- Whether a name is short enough to be a key. -/
def fitsKey (codes : List Nat) : Bool := (stringChars codes).length ≤ maxKeyLength

/-- A string with a colon after it. It is a key only if it is short enough. -/
theorem At.key {codes : List Nat} (hcodes : ∀ code ∈ codes, code < 0x110000)
    (hallow : l.allowKey = true)
    (h : l.At (depth + 1) tokens (stringChars codes ++ ':' :: rest)) :
    ∃ l', l.Reaches l' ∧ l'.At (depth + 1)
      (.value :: .scalar false (codes.flatMap codeUnits) ::
        (if fitsKey codes then .key :: tokens else tokens)) rest := by
  obtain ⟨l₁, hreaches₁, h₁, hcursor, hmark⟩ := h.string hcodes
  obtain ⟨mark, hmark, hbefore, hrequired, hline, hindex⟩ := hmark hallow
  have hahead : Layout.ahead (':' :: rest) = ':' :: rest := ahead_eq_self rfl (by decide) rest
  obtain ⟨hsettled, htokens, -⟩ := h₁.skipped
  have hflow : l₁.skipped.inFlow = true := hsettled.inFlow
  have hread : l₁.skipped.readToken ':' rest = l₁.skipped.readColon rest := by
    simp [readToken, atBoundary, hflow]
  -- There is no gap before the colon, so the place is where the string ended.
  have hplace : l₁.skipped.cursor = l₁.cursor := by
    rw [Layout.skipped]
    dsimp only
    rw [hcursor, hahead, Cursor.moveTo, hcursor, Nat.sub_self]
    rfl
  have hexpired : mark.expired l₁.skipped.cursor = !fitsKey codes := by
    rw [KeyMark.expired, hplace, hline, hindex, Nat.add_sub_cancel_left, fitsKey]
    simp only [ne_eq, not_true_eq_false, decide_false, Bool.false_or, ← decide_not, Nat.not_le]
  have hlive : l₁.skipped.mark = if fitsKey codes then some mark else none := by
    have : l₁.skipped.mark = alive l₁.skipped.cursor l₁.mark := rfl
    rw [this, hmark, alive, Option.filter, hexpired, Bool.not_not]
  by_cases hfits : fitsKey codes = true
  · rw [if_pos hfits] at hlive ⊢
    have hsettled' : ({ l₁.skipped with mark := none, allowKey := false } : Layout).Settled
        (depth + 1) := { hsettled with mark := nofun }
    obtain ⟨hinserted, htokens'⟩ := hsettled'.insertKey htokens
    rw [readColon, hlive] at hread
    dsimp only at hread
    rw [if_pos hsettled'.inFlow, hbefore] at hread
    obtain ⟨hreaches, hat⟩ := h₁.reaches_push hahead hread hinserted rfl List.suffix_rfl
    rw [htokens'] at hat
    exact ⟨_, hreaches₁.trans hreaches, hat⟩
  · rw [if_neg hfits] at hlive ⊢
    rw [readColon, hlive] at hread
    dsimp only at hread
    rw [openHere, hflow, if_pos rfl, Option.bind_eq_bind, Option.bind_some] at hread
    obtain ⟨hreaches, hat⟩ := h₁.reaches_push hahead hread
      { hsettled with } rfl List.suffix_rfl
    rw [← htokens]
    exact ⟨_, hreaches₁.trans hreaches, hat⟩

/-! ### Words -/

/-- Whether a character can stand in a word: a number, a truth value or null. -/
def isWordChar (c : Char) : Bool := c.isAlphanum || c = '.' || c = '+' || c = '-'

/-- A word: it begins with a letter or a digit, before which a minus sign may stand. -/
structure IsWord (word : List Char) : Prop where
  /-- The characters of the word. -/
  chars : ∀ c ∈ word, isWordChar c = true
  /-- The beginning of the word. -/
  start : ∃ c cs, c.isAlphanum = true ∧ (word = c :: cs ∨ word = '-' :: c :: cs)

theorem IsWord.exists_cons {word : List Char} (h : IsWord word) : ∃ c cs, word = c :: cs := by
  obtain ⟨c, cs, -, h | h⟩ := h.start
  · exact ⟨_, _, h⟩
  · exact ⟨_, _, h⟩

/-- What stands after an item or a member: a comma, or a closing bracket on a line of its own. -/
inductive EndsValue : List Char → Prop
  /-- A comma. -/
  | comma (rest : List Char) : EndsValue (',' :: rest)
  /-- A closing bracket on a line of its own. -/
  | bracket (level : Nat) (b : Brackets) (rest : List Char) :
      EndsValue ((Json.lineBreak level).toList ++ b.closing :: rest)

/-- What ends a plain scalar inside brackets. -/
def stopsWord (c : Char) : Bool := isGap c || ",?[]\x7b\x7d".toList.contains c

theorem isWordChar_spec {c : Char} (h : isWordChar c = true) :
    stopsWord c = false ∧ c ≠ ':' ∧ c ≠ '#' := by
  refine ⟨?_, ?_, ?_⟩
  · rw [← Bool.not_eq_true]
    intro hstops
    simp only [stopsWord, isGap, isBreak, Bool.or_eq_true, decide_eq_true_eq,
      List.contains_eq_mem, String.reduceToList, List.mem_cons, List.not_mem_nil, or_false]
      at hstops
    rcases hstops with ((rfl | rfl) | ((rfl | rfl) | rfl) | rfl) | rfl | rfl | rfl | rfl | rfl | rfl
      <;> cases h
  · rintro rfl
    cases h
  · rintro rfl
    cases h

/-- A word is read up to the first character that ends it. -/
theorem plainWord_append {word : List Char} (hword : ∀ c ∈ word, isWordChar c = true) {c : Char}
    (hc : stopsWord c = true) : plainWord true (word ++ c :: rest) = (word, c :: rest) := by
  induction word with
  | nil =>
    rw [stopsWord, Bool.or_eq_true] at hc
    rw [List.nil_append, plainWord.eq_def]
    dsimp only
    rw [if_pos]
    rcases hc with hc | hc
    · rw [hc, Bool.true_or, Bool.true_or]
    · rw [hc, Bool.and_true, Bool.or_true]
  | cons first word ih =>
    obtain ⟨hstops, hcolon, -⟩ := isWordChar_spec (hword first (List.mem_cons_self ..))
    rw [stopsWord, Bool.or_eq_false_iff] at hstops
    rw [List.cons_append, plainWord.eq_def]
    dsimp only
    rw [hstops.1, hstops.2, decide_eq_false hcolon,
      ih fun c h => hword c (List.mem_cons_of_mem _ h)]
    rfl

theorem plainBreaks_spaces {c : Char} (hc : isGap c = false) (spaces : Nat) :
    plainBreaks (List.replicate spaces ' ' ++ c :: rest) = ([], false, c :: rest) := by
  induction spaces with
  | zero =>
    rw [isGap, Bool.or_eq_false_iff, Bool.or_eq_false_iff, decide_eq_false_iff_not] at hc
    rw [List.replicate_zero, List.nil_append, plainBreaks, if_neg hc.1.1, hc.2]
    rfl
  | succ spaces ih => exact ih

/-- A line break before a closing bracket is a gap that reads as a space. -/
theorem plainGap_bracket (level : Nat) (b : Brackets) :
    plainGap ((Json.lineBreak level).toList ++ b.closing :: rest) =
      ([' '], true, b.closing :: rest) := by
  have hboundary : atBoundary (List.replicate (2 * level) ' ' ++ b.closing :: rest) = false := by
    cases level with
    | zero => cases b <;> rfl
    | succ level => rfl
  have hgap : isGap b.closing = false := by cases b <;> rfl
  rw [Json.lineBreak, String.toList_ofList, List.cons_append, plainGap]
  simp only [List.dropWhile_cons, show decide ('\n' = ' ') = false from rfl, Bool.false_eq_true,
    if_false, show isBreak '\n' = true from rfl, if_true, hboundary, plainBreaks_spaces hgap]
  rfl

/-- The gap after a word ends at a comma or a closing bracket. -/
theorem EndsValue.exists_plainGap (h : EndsValue rest) : ∃ between broke c following,
    plainGap rest = (between, broke, c :: following) ∧ c :: following <:+ rest ∧
      ahead (c :: following) = ahead rest ∧ stopsWord c = true ∧ c ≠ '#' := by
  cases h with
  | comma following => exact ⟨_, _, _, following, rfl, List.suffix_rfl, rfl, rfl, by decide⟩
  | bracket level b following =>
    refine ⟨_, _, _, following, plainGap_bracket level b, List.suffix_append .., ?_, ?_, ?_⟩
    · exact (ahead_lineBreak level _).symm
    · cases b <;> rfl
    · cases b <;> decide

theorem EndsValue.exists_stop (h : EndsValue rest) :
    ∃ c following, rest = c :: following ∧ stopsWord c = true := by
  cases h with
  | comma following => exact ⟨_, following, rfl, rfl⟩
  | bracket level b following =>
    rw [Json.lineBreak, String.toList_ofList]
    exact ⟨_, _, rfl, rfl⟩

/-- A word is a plain scalar of one part. The gap after it is taken with it. -/
theorem plainParts_word {word : List Char} (hword : IsWord word) (hrest : EndsValue rest)
    {c : Cursor} (hcursor : c.rest = word ++ rest) (least : Int) (fuel : Nat) :
    ∃ broke c', plainParts true least (fuel + 2) [] false c = (word, broke, c') ∧
      c'.rest <:+ rest ∧ ahead c'.rest = ahead rest := by
  obtain ⟨first, others, hfirst⟩ := hword.exists_cons
  have hhead : c.rest.head? ≠ some '#' := by
    rw [hcursor, hfirst]
    intro h
    exact (isWordChar_spec (hword.chars first (hfirst ▸ List.mem_cons_self ..))).2.2
      (Option.some.inj h)
  have hread : plainWord true c.rest = (word, rest) := by
    obtain ⟨stop, following, rfl, hstop⟩ := hrest.exists_stop
    rw [hcursor, plainWord_append hword.chars hstop]
  obtain ⟨between, broke, stop, following, hgap, hsuffix, hahead, hstop, hcomment⟩ :=
    hrest.exists_plainGap
  have hmoved : ((c.moveTo rest).moveTo (stop :: following)).rest = stop :: following := by
    refine Cursor.rest_moveTo ?_
    rw [Cursor.rest_moveTo (hcursor ▸ List.suffix_append ..)]
    exact hsuffix
  generalize hend : (c.moveTo rest).moveTo (stop :: following) = c' at hmoved
  have hends : plainParts true least (fuel + 1) between broke c' = ([], broke, c') := by
    have hend : (stop :: following).head? ≠ some '#' := fun h => hcomment (Option.some.inj h)
    have hnone : plainWord true (stop :: following) = ([], stop :: following) :=
      @plainWord_append following [] nofun stop hstop
    rw [plainParts, hmoved, if_neg hend, hnone]
  refine ⟨broke, c', ?_, hmoved ▸ hsuffix, hmoved ▸ hahead⟩
  rw [plainParts, if_neg hhead, hread, hfirst]
  dsimp only
  rw [hgap]
  dsimp only
  rw [hend, hends]
  split
  · rfl
  · rw [List.append_nil]
    rfl

/-- Where a word begins no other token does. -/
theorem IsWord.readToken {word : List Char} (hword : IsWord word) {c : Char} {cs : List Char}
    (hc : word = c :: cs) (rest : List Char) : l.readToken c (cs ++ rest) = l.readPlain := by
  obtain ⟨first, others, hfirst, hstart⟩ := hword.start
  have hne : ∀ d : Char, d.isAlphanum = false → first ≠ d := by
    rintro d hd rfl
    exact Bool.false_ne_true (hd.symm.trans hfirst)
  obtain ⟨hstops, -, -⟩ := isWordChar_spec (c := first) (by rw [isWordChar, hfirst]; rfl)
  rw [stopsWord, Bool.or_eq_false_iff] at hstops
  rcases hstart with hstart | hstart
  · obtain ⟨rfl, rfl⟩ := List.cons.inj (hc.symm.trans hstart)
    have hboundary : atBoundary (c :: (cs ++ rest)) = false := by
      unfold atBoundary
      split <;> simp_all
    have hbegins : beginsPlain l.inFlow c (cs ++ rest) = true := by
      simp [beginsPlain, hstops.1, hne]
    simp [Layout.readToken, hboundary, hbegins, hne]
  · obtain ⟨rfl, rfl⟩ := List.cons.inj (hc.symm.trans hstart)
    have hboundary : atBoundary ('-' :: first :: (others ++ rest)) = false := by
      simp [atBoundary, hne]
    have hbegins : beginsPlain l.inFlow '-' (first :: (others ++ rest)) = true := by
      simp [beginsPlain, atGap, hstops.1]
    simp [Layout.readToken, hboundary, hbegins, atGap, hstops.1]

/-- A word. -/
theorem At.word {word : List Char} (hword : IsWord word) (hrest : EndsValue rest)
    (h : l.At (depth + 1) tokens (word ++ rest)) :
    ∃ l', l.Reaches l' ∧
      l'.At (depth + 1) (.scalar true (word.map Char.toNat) :: tokens) rest := by
  obtain ⟨c, cs, hc⟩ := hword.exists_cons
  obtain ⟨hstops, -, hcomment⟩ := isWordChar_spec (hword.chars c (hc ▸ List.mem_cons_self ..))
  rw [stopsWord, Bool.or_eq_false_iff] at hstops
  have hahead : Layout.ahead (word ++ rest) = c :: (cs ++ rest) := by
    rw [hc]
    exact ahead_eq_self hstops.1 hcomment _
  obtain ⟨hsettled, rfl, hcursor⟩ := h.skipped
  have hread := @IsWord.readToken l.skipped word hword c cs hc rest
  obtain ⟨mark, hmark, hsave, -⟩ := hsettled.saveMark
  rw [hahead] at hcursor
  have hlength : (c :: (cs ++ rest)).length + 1 = (cs ++ rest).length + 2 := rfl
  have hplace : l.skipped.cursor.rest = word ++ rest := by rw [hcursor, hc, List.cons_append]
  obtain ⟨broke, c', hparts, hsuffix, hahead'⟩ :=
    plainParts_word hword hrest hplace (l.skipped.indent + 1) (cs ++ rest).length
  rw [readPlain, hsave, Option.bind_eq_bind, Option.bind_some] at hread
  dsimp only at hread
  rw [hcursor, hlength, show Layout.inFlow { l.skipped with mark } = true from hsettled.inFlow,
    hparts] at hread
  have hrest' : c'.rest.length ≤ (cs ++ rest).length := by
    have := hsuffix.length_le
    rw [List.length_append]
    omega
  refine ⟨_, h.reaches hahead hread hrest', ?_⟩
  exact
    { indent := hsettled.indent
      outerIndents := hsettled.outerIndents
      count := congrArg (· + 1) hsettled.count
      mark := hmark
      outerMarks := hsettled.outerMarks
      depth := hsettled.depth
      tokens := rfl
      ahead := hahead' }

/-! ### Whole texts -/

/-- Where nothing follows but a gap, the tokens are complete. -/
theorem At.run (h : l.At depth tokens text) (hend : Layout.ahead text = []) (fuel : Nat) :
    run (fuel + 1) l = some tokens.reverse := by
  obtain ⟨hsettled, rfl, hcursor⟩ := h.skipped
  rw [hend] at hcursor
  rw [Layout.run, h.skipGap, Option.bind_eq_bind, Option.bind_some, hcursor]
  dsimp only
  rw [hsettled.unwind, forgetMark_eq hsettled.mark]
  rfl

/-- A text that is read up to its end has the tokens that were read. -/
theorem tokens?_eq {cs : List Char} (hmark : cs.head? ≠ some '\uFEFF')
    (hscan : ∀ l : Layout, l.At 0 [] cs → ∃ l', l.Reaches l' ∧ l'.At 0 tokens text)
    (hend : Layout.ahead text = []) : tokens? cs = some tokens.reverse := by
  obtain ⟨l', ⟨n, hn, hrun⟩, hat⟩ := hscan { cursor := { rest := cs } }
    { indent := rfl, outerIndents := rfl, count := rfl, mark := nofun, outerMarks := nofun,
      depth := rfl, tokens := rfl, ahead := rfl }
  have hfuel : cs.length + 1 = (cs.length - n + 1) + n := by
    dsimp only at hn
    omega
  have hcs : tokens? cs = Layout.run (cs.length + 1) { cursor := { rest := cs } } := by
    unfold tokens?
    split
    · exact absurd rfl hmark
    · rfl
  rw [hcs, hfuel, hrun, hat.run hend]

end Layout

end PolicyAuthoring.Yaml
