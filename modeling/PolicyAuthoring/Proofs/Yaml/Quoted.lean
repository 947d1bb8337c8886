import PolicyAuthoring.Json.Writer
import PolicyAuthoring.Yaml.Token
import Mathlib.Algebra.Group.Nat.Defs

/-!
# JSON strings as quoted scalars

A JSON string is read by YAML as a scalar in double quotes. Every escape that JSON writes is one
that YAML knows, but YAML takes each escape by itself: a character beyond the basic plane comes back
as the two surrogates that it was written with. What is read is therefore the code units of the text
and not its code points (`readQuoted_escaped`).
-/

namespace PolicyAuthoring

/-! ## Hexadecimal digits -/

namespace Text

theorem ofDigits_append_singleton (base : Nat) (digits : List Nat) (d : Nat) :
    ofDigits base (digits ++ [d]) = ofDigits base digits * base + d := by
  rw [ofDigits, List.foldl_append]
  rfl

theorem ofDigits_zeros (base zeros : Nat) (digits : List Nat) :
    ofDigits base (List.replicate zeros 0 ++ digits) = ofDigits base digits := by
  induction zeros with
  | zero => rfl
  | succ zeros ih =>
    rw [← ih, List.replicate_succ, ofDigits, ofDigits, List.cons_append, List.foldl_cons,
      Nat.zero_mul]

theorem length_hexDigits {width n : Nat} (hwidth : 0 < width) (hn : n < 16 ^ width) :
    (hexDigits width n).length = width := by
  have := (Nat.length_toDigits_le_iff (b := 16) (by decide) hwidth).mpr hn
  rw [hexDigits]
  simp only [List.length_append, List.length_replicate]
  omega

end Text

namespace Yaml

theorem hexDigit?_digitChar : ∀ d < 16, hexDigit? d.digitChar = some d := by decide

/-- Hexadecimal digits are read as the number that they write. -/
theorem exists_mapM_hexDigit? (n : Nat) : ∃ digits,
    (Nat.toDigits 16 n).mapM hexDigit? = some digits ∧ Text.ofDigits 16 digits = n := by
  induction n using Nat.strongRecOn with
  | ind n ih =>
    rcases Nat.lt_or_ge n 16 with hsmall | hlarge
    · refine ⟨[n], ?_, by simp [Text.ofDigits]⟩
      rw [Nat.toDigits_of_lt_base hsmall]
      simp [hexDigit?_digitChar n hsmall]
    · obtain ⟨digits, hdigits, hvalue⟩ := ih (n / 16) (by omega)
      refine ⟨digits ++ [n % 16], ?_, ?_⟩
      · rw [Nat.toDigits_of_base_le (by decide) hlarge, List.mapM_append, hdigits]
        simp [hexDigit?_digitChar (n % 16) (by omega)]
      · rw [Text.ofDigits_append_singleton, hvalue]
        omega

theorem mapM_hexDigit?_zeros (zeros : Nat) :
    (List.replicate zeros '0').mapM hexDigit? = some (List.replicate zeros 0) := by
  induction zeros with
  | zero => rfl
  | succ zeros ih => simp [List.replicate_succ, ih, (by decide : hexDigit? '0' = some 0)]

/-- Hexadecimal digits after as many zeros as there is place for are read as the number that they
write. -/
theorem exists_mapM_hexDigits (width n : Nat) : ∃ digits,
    (Text.hexDigits width n).mapM hexDigit? = some digits ∧ Text.ofDigits 16 digits = n := by
  obtain ⟨digits, hdigits, hvalue⟩ := exists_mapM_hexDigit? n
  refine ⟨List.replicate (width - (Nat.toDigits 16 n).length) 0 ++ digits, ?_, ?_⟩
  · rw [Text.hexDigits, List.mapM_append, mapM_hexDigit?_zeros, hdigits]
    rfl
  · rw [Text.ofDigits_zeros, hvalue]

/-- Different numbers have different hexadecimal digits, however many zeros are put before them. -/
theorem hexDigits_injective (width : Nat) : Function.Injective (Text.hexDigits width) := by
  intro m n h
  obtain ⟨digits, hdigits, hm⟩ := exists_mapM_hexDigits width m
  obtain ⟨digits', hdigits', hn⟩ := exists_mapM_hexDigits width n
  rw [h, hdigits', Option.some.injEq] at hdigits
  rw [← hm, ← hn, hdigits]

/-- Four hexadecimal digits are read as the code unit that they write. -/
theorem hexCode_hexDigits {unit : Nat} (hunit : unit < 0x10000) (rest : List Char) :
    hexCode 4 (Text.hexDigits 4 unit ++ rest) = some (unit, rest) := by
  have hlength : (Text.hexDigits 4 unit).length = 4 := Text.length_hexDigits (by decide) hunit
  obtain ⟨digits, hdigits, hvalue⟩ := exists_mapM_hexDigits 4 unit
  have hcode : unit < 0x110000 := by omega
  have htake : (Text.hexDigits 4 unit ++ rest).take 4 = Text.hexDigits 4 unit :=
    List.take_left' hlength
  have hdrop : (Text.hexDigits 4 unit ++ rest).drop 4 = rest := List.drop_left' hlength
  simp only [hexCode, htake, hdrop, hdigits, hlength, Option.bind_eq_bind, Option.bind_some,
    hvalue, hcode, and_self, if_true, Option.pure_def]

/-! ## Pieces -/

/-- The code units of a code point. -/
def codeUnits (code : Nat) : List Nat :=
  if code < 0x10000 then [code]
  else [0xD800 + (code - 0x10000) / 0x400, 0xDC00 + (code - 0x10000) % 0x400]

variable {fuel code : Nat} {rest : List Char}

/-- An escape with a backslash is one piece. -/
theorem quotedPieces_backslash {cs : List Char} {units : List Nat}
    (hread : readEscape cs = some (units, rest)) :
    quotedPieces true (fuel + 1) ('\\' :: cs) =
      (quotedPieces true fuel rest).map fun read => (units ++ read.1, read.2) := by
  have hgap : isGap '\\' = false := by decide
  have hquote : ('\\' = '"') = False := by decide
  cases h : quotedPieces true fuel rest <;>
    simp only [quotedPieces, hgap, hquote, hread, h, Bool.false_eq_true, if_false, if_true,
      Option.bind_eq_bind, Option.bind_some, Option.bind_none, Option.map_some, Option.map_none,
      Option.pure_def]

/-- An escape of a code unit is one piece. -/
theorem quotedPieces_unitEscape {unit : Nat} (hunit : unit < 0x10000) :
    quotedPieces true (fuel + 1) (Json.unitEscape unit ++ rest) =
      (quotedPieces true fuel rest).map fun read => (unit :: read.1, read.2) := by
  have hletter : letterEscape? 'u' = none := rfl
  have hwidth : escapeWidth? 'u' = some 4 := rfl
  have hread : readEscape ('u' :: (Text.hexDigits 4 unit ++ rest)) = some ([unit], rest) := by
    simp only [readEscape, hletter, hwidth, hexCode_hexDigits hunit, Option.map_some]
  exact quotedPieces_backslash hread

/-- A character that is no gap, quote or backslash is one piece. -/
theorem quotedPieces_char {c : Char} (hgap : isGap c = false) (hquote : c ≠ '"')
    (hbackslash : c ≠ '\\') :
    quotedPieces true (fuel + 1) (c :: rest) =
      (quotedPieces true fuel rest).map fun read => (c.toNat :: read.1, read.2) := by
  cases h : quotedPieces true fuel rest <;>
    simp only [quotedPieces, hgap, hquote, hbackslash, h, Bool.false_eq_true, if_false, if_true,
      Option.bind_eq_bind, Option.bind_some, Option.bind_none, Option.map_some, Option.map_none,
      Option.pure_def, List.singleton_append]

/-- Spaces before something that is no gap are one piece. -/
theorem quotedPieces_spaces {c : Char} (hgap : isGap c = false) (spaces : Nat) :
    quotedPieces true (fuel + 1) (List.replicate (spaces + 1) ' ' ++ c :: rest) =
      (quotedPieces true fuel (c :: rest)).map fun read =>
        (List.replicate (spaces + 1) 32 ++ read.1, read.2) := by
  rw [isGap, Bool.or_eq_false_iff] at hgap
  obtain ⟨hblank, hbreak⟩ := hgap
  have hspaces : ∀ d ∈ List.replicate (spaces + 1) ' ',
      (decide (d = ' ') || decide (d = '\t')) = true := by
    intro d hd
    rw [List.eq_of_mem_replicate hd]
    rfl
  have hread : quotedGap (List.replicate (spaces + 1) ' ' ++ c :: rest) =
      some (List.replicate (spaces + 1) ' ', c :: rest) := by
    unfold quotedGap
    dsimp only
    rw [List.dropWhile_append_of_pos hspaces, List.takeWhile_append_of_pos hspaces,
      List.dropWhile_cons, hblank, List.takeWhile_cons, hblank]
    simp [hbreak]
  have hcodes : (List.replicate (spaces + 1) ' ').map Char.toNat = List.replicate (spaces + 1) 32 :=
    List.map_replicate
  have hspace : isGap ' ' = true := rfl
  rw [← hcodes]
  rw [List.replicate_succ, List.cons_append] at hread ⊢
  cases h : quotedPieces true fuel (c :: rest) <;>
    simp only [quotedPieces, hspace, hread, h, if_true, Option.bind_eq_bind,
      Option.bind_some, Option.bind_none, Option.map_some, Option.map_none, Option.pure_def]

/-- The printable characters are no gaps, and those that are escaped are not among the others. -/
theorem printable_spec : ∀ code < 127, 32 < code ∧ code ≠ 34 ∧ code ≠ 92 →
    isGap (Char.ofNat code) = false ∧ Char.ofNat code ≠ '"' ∧ Char.ofNat code ≠ '\\' ∧
      (Char.ofNat code).toNat = code := by
  decide

theorem codeUnits_of_lt (h : code < 0x10000) : codeUnits code = [code] := if_pos h

/-- A code point beyond the basic plane is written and read as two code units. -/
theorem exists_surrogates (hbasic : 0x10000 ≤ code) (hcode : code < 0x110000) :
    ∃ high low, high < 0x10000 ∧ low < 0x10000 ∧ codeUnits code = [high, low] ∧
      Json.escaped code = Json.unitEscape high ++ Json.unitEscape low := by
  refine ⟨0xD800 + (code - 0x10000) / 0x400, 0xDC00 + (code - 0x10000) % 0x400, by omega, by omega,
    if_neg (by omega), ?_⟩
  simp only [Json.escaped]
  repeat rw [if_neg (by omega)]

/-- An escape of one letter is one piece. -/
theorem quotedPieces_letter {letter : Char} {n : Nat} (h : letterEscape? letter = some n) :
    quotedPieces true (fuel + 1) ('\\' :: letter :: rest) =
      (quotedPieces true fuel rest).map fun read => (n :: read.1, read.2) := by
  have hread : readEscape (letter :: rest) = some ([n], rest) := by
    simp only [readEscape, h]
  exact quotedPieces_backslash hread

/-- An escaped code point takes some pieces, and is read as its code units. -/
theorem exists_quotedPieces_escaped (hspace : code ≠ 32) (hcode : code < 0x110000) :
    ∃ pieces ≤ (Json.escaped code).length, ∀ fuel rest,
      quotedPieces true (fuel + pieces) (Json.escaped code ++ rest) =
        (quotedPieces true fuel rest).map fun read => (codeUnits code ++ read.1, read.2) := by
  rcases Nat.lt_or_ge code 0x10000 with hbasic | hbasic
  · rw [codeUnits_of_lt hbasic]
    unfold Json.escaped
    -- The escapes of one letter.
    iterate 7
      split
      next h =>
        subst h
        exact ⟨1, by simp, fun fuel rest => quotedPieces_letter rfl⟩
    split
    next hquote hbackslash _ _ _ _ _ hprintable =>
      obtain ⟨hgap, hquote, hbackslash, htoNat⟩ :=
        printable_spec code hprintable.2 ⟨by omega, hquote, hbackslash⟩
      refine ⟨1, by simp, fun fuel rest => ?_⟩
      rw [List.singleton_append, quotedPieces_char hgap hquote hbackslash, htoNat]
      rfl
    · exact ⟨1, by simp [Json.unitEscape], fun fuel rest => quotedPieces_unitEscape hbasic⟩
  · obtain ⟨high, low, hhigh, hlow, hunits, hescaped⟩ := exists_surrogates hbasic hcode
    rw [hescaped, hunits]
    refine ⟨2, by simp [Json.unitEscape], fun fuel rest => ?_⟩
    rw [List.append_assoc, quotedPieces_unitEscape hhigh, quotedPieces_unitEscape hlow,
      Option.map_map]
    rfl

/-! ## Strings -/

/-- What an escaped code point begins with is no gap. -/
theorem exists_escaped_eq_cons (hspace : code ≠ 32) :
    ∃ c cs, Json.escaped code = c :: cs ∧ isGap c = false := by
  unfold Json.escaped
  iterate 7
    split
    next => exact ⟨_, _, rfl, rfl⟩
  split
  next hquote hbackslash _ _ _ _ _ hprintable =>
    exact ⟨_, _, rfl, (printable_spec code hprintable.2 ⟨by omega, hquote, hbackslash⟩).1⟩
  split
  next => exact ⟨_, _, rfl, rfl⟩
  next => exact ⟨_, _, rfl, rfl⟩

theorem quotedPieces_quote : quotedPieces true (fuel + 1) ('"' :: rest) = some ([], rest) := rfl

/-- Spaces in front change nothing but what is read in front. -/
theorem quotedPieces_spaces_append {c : Char} {cs : List Char} {units : List Nat} (least : Nat)
    (hgap : isGap c = false)
    (hread : ∀ fuel, least < fuel → quotedPieces true fuel (c :: cs) = some (units, rest))
    (spaces : Nat) (hfuel : spaces + least < fuel) :
    quotedPieces true fuel (List.replicate spaces ' ' ++ c :: cs) =
      some (List.replicate spaces 32 ++ units, rest) := by
  cases spaces with
  | zero => exact hread fuel (by omega)
  | succ spaces =>
    obtain ⟨fuel, rfl⟩ : ∃ n, fuel = n + 1 := ⟨fuel - 1, by omega⟩
    rw [quotedPieces_spaces hgap, hread fuel (by omega)]
    rfl

/-- An escaped text is read up to its closing quote. The spaces in front are those that belong to
one piece with the first characters of the text. -/
theorem quotedPieces_escaped {codes : List Nat} (hcodes : ∀ code ∈ codes, code < 0x110000)
    (spaces fuel : Nat) (hfuel : spaces + (codes.flatMap Json.escaped).length < fuel) :
    quotedPieces true fuel
        (List.replicate spaces ' ' ++ (codes.flatMap Json.escaped ++ '"' :: rest)) =
      some (List.replicate spaces 32 ++ codes.flatMap codeUnits, rest) := by
  induction codes generalizing spaces fuel with
  | nil =>
    refine quotedPieces_spaces_append 0 rfl (fun fuel hfuel => ?_) spaces hfuel
    obtain ⟨fuel, rfl⟩ : ∃ n, fuel = n + 1 := ⟨fuel - 1, by omega⟩
    exact quotedPieces_quote
  | cons code codes ih =>
    have hcodes' : ∀ code ∈ codes, code < 0x110000 :=
      fun code h => hcodes code (List.mem_cons_of_mem _ h)
    simp only [List.flatMap_cons, List.length_append, List.append_assoc] at hfuel ⊢
    by_cases hspace : code = 32
    · subst hspace
      have hescaped : Json.escaped 32 = [' '] := rfl
      have hunits : codeUnits 32 = [32] := rfl
      rw [hescaped, List.length_singleton] at hfuel
      have hread := ih hcodes' (spaces + 1) fuel (by omega)
      rw [hescaped, hunits]
      rwa [List.replicate_succ', List.replicate_succ', List.append_assoc,
        List.append_assoc] at hread
    · obtain ⟨c, cs, hcons, hgap⟩ := exists_escaped_eq_cons hspace
      obtain ⟨pieces, hpieces, hstep⟩ :=
        exists_quotedPieces_escaped hspace (hcodes code (List.mem_cons_self ..))
      have hread : ∀ fuel,
          (Json.escaped code).length + (codes.flatMap Json.escaped).length < fuel →
          quotedPieces true fuel
              (Json.escaped code ++ (codes.flatMap Json.escaped ++ '"' :: rest)) =
            some (codeUnits code ++ codes.flatMap codeUnits, rest) := by
        intro fuel hfuel
        obtain ⟨left, rfl⟩ : ∃ n, fuel = n + pieces := ⟨fuel - pieces, by omega⟩
        rw [hstep]
        have := ih hcodes' 0 left (by omega)
        rw [List.replicate_zero, List.nil_append] at this
        rw [this]
        rfl
      rw [hcons, List.cons_append] at hread ⊢
      exact quotedPieces_spaces_append _ hgap hread spaces (hcons ▸ hfuel)

/-- A JSON string is read as the scalar of its code units. -/
theorem readQuoted_escaped {codes : List Nat} (hcodes : ∀ code ∈ codes, code < 0x110000)
    (rest : List Char) :
    readQuoted true (codes.flatMap Json.escaped ++ '"' :: rest) =
      some (.scalar false (codes.flatMap codeUnits), rest) := by
  have hread : quotedPieces true ((codes.flatMap Json.escaped ++ '"' :: rest).length + 1)
      (codes.flatMap Json.escaped ++ '"' :: rest) = some (codes.flatMap codeUnits, rest) := by
    refine quotedPieces_escaped hcodes 0 _ ?_
    rw [List.length_append]
    omega
  rw [readQuoted, hread]
  rfl

/-! ## Printable text -/

/-- Whether a character is a printable one of the ASCII range. -/
def isPlainAscii (c : Char) : Bool := 32 ≤ c.toNat && c.toNat < 127

theorem isPlainAscii_digitChar : ∀ d < 16, isPlainAscii d.digitChar = true := by decide

theorem isPlainAscii_of_mem_toDigits {n : Nat} {c : Char} (h : c ∈ Nat.toDigits 16 n) :
    isPlainAscii c = true := by
  induction n using Nat.strongRecOn with
  | ind n ih =>
    rcases Nat.lt_or_ge n 16 with hsmall | hlarge
    · rw [Nat.toDigits_of_lt_base hsmall, List.mem_singleton] at h
      exact h ▸ isPlainAscii_digitChar n hsmall
    · rw [Nat.toDigits_of_base_le (by decide) hlarge, List.mem_append, List.mem_singleton] at h
      rcases h with h | rfl
      · exact ih (n / 16) (by omega) h
      · exact isPlainAscii_digitChar (n % 16) (by omega)

theorem isPlainAscii_of_mem_unitEscape {unit : Nat} {c : Char} (h : c ∈ Json.unitEscape unit) :
    isPlainAscii c = true := by
  rcases List.mem_cons.mp h with rfl | h
  · rfl
  rcases List.mem_cons.mp h with rfl | h
  · rfl
  rcases List.mem_append.mp h with h | h
  · rw [List.eq_of_mem_replicate h]
    rfl
  · exact isPlainAscii_of_mem_toDigits h

/-- JSON escapes everything that is not printable. -/
theorem isPlainAscii_of_mem_escaped {c : Char} (h : c ∈ Json.escaped code) :
    isPlainAscii c = true := by
  have hletter {letter : Char} (hletter : isPlainAscii letter = true) (h : c ∈ ['\\', letter]) :
      isPlainAscii c = true := by
    rcases List.mem_cons.mp h with rfl | h
    · rfl
    · exact List.mem_singleton.mp h ▸ hletter
  unfold Json.escaped at h
  iterate 7
    split at h
    next => exact hletter rfl h
  split at h
  next hprintable =>
    have htoNat : ∀ code < 127, (Char.ofNat code).toNat = code := by decide
    rw [List.mem_singleton.mp h, isPlainAscii, htoNat code hprintable.2]
    simpa using hprintable
  split at h
  next => exact isPlainAscii_of_mem_unitEscape h
  next =>
    exact (List.mem_append.mp h).elim isPlainAscii_of_mem_unitEscape isPlainAscii_of_mem_unitEscape

end Yaml

end PolicyAuthoring
