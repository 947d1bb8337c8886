import PolicyAuthoring.Yaml.Tagged
import PolicyAuthoring.Proofs.Number.Decimal
import Mathlib.Data.List.Basic

/-!
# Numerals as plain scalars

What a YAML reader makes of the text of a number. An integer is read as itself, and a finite float
as itself if its text has a point. Without a point, as in `1e+16`, YAML 1.1 knows no float, and the
text stands for nothing but itself.
-/

namespace PolicyAuthoring.Yaml

variable {cs rest : List Char} {first : Char} {n : Nat}

/-! ## Digits -/

theorem isDigitMark_of_isDigit {c : Char} (h : c.isDigit = true) : isDigitMark c = true := by
  rw [isDigitMark, h, Bool.true_or]

theorem plainDigits_eq_self (hdigits : ∀ c ∈ cs, c.isDigit = true) : plainDigits cs = cs := by
  refine List.filter_eq_self.mpr fun c hc => ?_
  rw [decide_eq_true_eq]
  rintro rfl
  exact absurd (hdigits _ hc) (by decide)

/-- Digits write a number place by place. -/
theorem basedNumber_ten (hdigits : ∀ c ∈ cs, c.isDigit = true) :
    basedNumber 10 cs = Nat.ofDigitChars 10 cs 0 := by
  rw [basedNumber, plainDigits_eq_self hdigits, Text.ofDigits, Nat.ofDigitChars_eq_foldl,
    List.foldl_map]
  refine List.foldl_ext _ _ _ fun n c hc => ?_
  rw [if_pos (hdigits c hc), Nat.mul_comm]
  rfl

/-- Digits are all that is taken of a run of digits. -/
theorem takeWhile_isDigitMark (hdigits : ∀ c ∈ cs, c.isDigit = true)
    (hrest : ∀ c ∈ rest.head?, isDigitMark c = false) :
    (cs ++ rest).takeWhile isDigitMark = cs ∧ (cs ++ rest).dropWhile isDigitMark = rest := by
  have hcs : ∀ c ∈ cs, isDigitMark c = true := fun c hc => isDigitMark_of_isDigit (hdigits c hc)
  rw [List.takeWhile_append_of_pos hcs, List.dropWhile_append_of_pos hcs]
  cases rest with
  | nil => simp
  | cons c rest =>
    have hc := hrest c rfl
    simp [hc]

/-! ## Words -/

/-- Whether a text begins like a number: with a digit or a minus sign. -/
def beginsNumeral (cs : List Char) : Bool :=
  match cs with
  | [] => false
  | c :: _ => c.isDigit || c = '-'

/-- What begins like a number is no word that stands for something else. -/
theorem not_contains_of_beginsNumeral {words : List String} (h : beginsNumeral cs = true)
    (hwords : ∀ w ∈ words, beginsNumeral w.toList = false) :
    words.contains (String.ofList cs) = false := by
  rw [List.contains_eq_mem, decide_eq_false_iff_not]
  intro hmem
  have := hwords _ hmem
  rw [String.toList_ofList, h] at this
  cases this

theorem colonParts_of_not_mem (h : ':' ∉ cs) : colonParts cs = [cs] := by
  induction cs with
  | nil => rfl
  | cons c cs ih =>
    rw [List.mem_cons, not_or] at h
    rw [colonParts, if_neg (Ne.symm h.1), ih h.2]

/-! ## Signs -/

/-- A numeral after its sign. -/
def withSign (negative : Bool) (cs : List Char) : List Char := if negative then '-' :: cs else cs

theorem signed_withSign (negative : Bool) (hfirst : first.isDigit = true) :
    signed (withSign negative (first :: rest)) = (negative, first :: rest) := by
  cases negative with
  | true => rfl
  | false =>
    rw [withSign, if_neg Bool.false_ne_true, signed]
    · rintro cs h
      obtain ⟨rfl, -⟩ := List.cons.inj h
      exact absurd hfirst (by decide)
    · rintro cs h
      obtain ⟨rfl, -⟩ := List.cons.inj h
      exact absurd hfirst (by decide)

theorem beginsNumeral_withSign (negative : Bool) (hfirst : first.isDigit = true) :
    beginsNumeral (withSign negative (first :: rest)) = true := by
  cases negative <;> simp [withSign, beginsNumeral, hfirst]

/-! ## Floats -/

/-- A float in sixtieths has a colon. -/
theorem sixtiethFloat?_eq_none (negative : Bool) (hcolon : ':' ∉ cs) :
    sixtiethFloat? negative cs = none := by
  unfold sixtiethFloat?
  rw [colonParts_of_not_mem hcolon, List.reverse_singleton]
  dsimp only [List.reverse_nil]
  split
  next h => cases h
  next => rfl

/-- What begins like a number is none of the floats that are words, and without a colon it is not
one in sixtieths. -/
theorem float?_withSign (negative : Bool) (hfirst : first.isDigit = true)
    (hcolon : ':' ∉ first :: rest) :
    float? (withSign negative (first :: rest)) = pointFloat? negative negative (first :: rest) := by
  have hsign : decide ((first :: rest).length ≠ (withSign negative (first :: rest)).length) =
      negative := by
    cases negative <;> simp [withSign]
  have hbody : beginsNumeral (first :: rest) = true := by simp [beginsNumeral, hfirst]
  unfold float?
  rw [signed_withSign negative hfirst]
  dsimp only
  rw [not_contains_of_beginsNumeral (beginsNumeral_withSign negative hfirst) (by decide),
    not_contains_of_beginsNumeral hbody (by decide),
    if_neg Bool.false_ne_true, if_neg Bool.false_ne_true, hsign,
    sixtiethFloat?_eq_none negative hcolon, Option.or_none]

/-- A float has a point. -/
theorem pointFloat?_eq_none (hasSign negative : Bool) (hpoint : '.' ∉ cs) :
    pointFloat? hasSign negative cs = none := by
  have hrest {rest : List Char} : cs.dropWhile isDigitMark ≠ '.' :: rest := by
    intro h
    exact hpoint ((List.dropWhile_sublist _).mem (h ▸ List.mem_cons_self ..))
  unfold pointFloat?
  dsimp only
  split
  next hcs => exact absurd hcs hrest
  next hcs => exact absurd hcs hrest
  next => rfl

/-- An exponent after a float is read as it was written. -/
theorem exponent?_exponentText (exponent : Int) :
    exponent? ('e' :: Binary64.exponentText exponent) = some exponent := by
  rw [Binary64.exponentText]
  generalize hcs : List.replicate (2 - (decimalDigits exponent.natAbs).length) '0' ++
    decimalDigits exponent.natAbs = cs
  have hdigits : ∀ c ∈ cs, c.isDigit = true := by
    intro c hc
    rw [← hcs, List.mem_append] at hc
    exact hc.elim Binary64.isDigit_of_mem_zeros isDigit_of_mem_decimalDigits
  have hne : cs ≠ [] := by
    rw [← hcs]
    exact List.append_ne_nil_of_right_ne_nil _ decimalDigits_ne_nil
  have hsize : basedNumber 10 cs = exponent.natAbs := by
    rw [basedNumber_ten hdigits, ← hcs, Binary64.ofDigitChars_zeros, ofDigitChars_decimalDigits]
  have hall : cs.all Char.isDigit = true := List.all_eq_true.mpr hdigits
  by_cases hneg : exponent < 0
  · simp only [exponent?, hneg, if_true, hall, hsize, ne_eq, hne, not_false_eq_true, true_or,
      and_self, Option.some.injEq]
    omega
  · simp only [exponent?, hneg, if_false, hall, hsize, ne_eq, hne, not_false_eq_true, true_or,
      or_true, and_self, if_true, Char.reduceEq, Option.some.injEq]
    omega

/-- A spelling with a point is read as the number that it spells. -/
theorem pointFloat?_of_spelling {rank : Nat} {cs : List Char} (h : Binary64.Spelling rank cs)
    (hpoint : '.' ∈ cs) (hasSign negative : Bool) :
    pointFloat? hasSign negative cs = some (.ofRank negative rank) := by
  cases h with
  | exponent first hdigit exponent =>
    rw [List.mem_cons, List.mem_cons] at hpoint
    rcases hpoint with rfl | hpoint | hpoint
    · cases hdigit
    · cases hpoint
    · rcases Binary64.mem_exponentText hpoint with h | h | h <;> cases h
  | point first whole places tail exponent hdigits htail hvalue =>
    have hwhole : ∀ c ∈ first :: whole, c.isDigit = true :=
      fun c hc => hdigits c (List.mem_append_left _ hc)
    have hplaces : ∀ c ∈ places, c.isDigit = true :=
      fun c hc => hdigits c (List.mem_append_right _ hc)
    have hexponent : exponent? tail = some exponent := by
      rcases htail with ⟨rfl, rfl⟩ | rfl
      · rfl
      · exact exponent?_exponentText exponent
    have hfirst : first.isDigit = true := hwhole first (List.mem_cons_self ..)
    have hend : ∀ c ∈ tail.head?, isDigitMark c = false := by
      rcases htail with ⟨rfl, -⟩ | rfl
      · simp
      · simpa using (by decide : isDigitMark 'e' = false)
    obtain ⟨htake, hdrop⟩ := takeWhile_isDigitMark hwhole
      (show ∀ c ∈ ('.' :: (places ++ tail)).head?, isDigitMark c = false by
        simpa using (by decide : isDigitMark '.' = false))
    obtain ⟨htake', hdrop'⟩ := takeWhile_isDigitMark hplaces hend
    simp only [pointFloat?, htake, hdrop, htake', hdrop', hfirst, if_true, hexponent,
      Option.map_some, pointNumber, plainDigits_eq_self hwhole, plainDigits_eq_self hplaces,
      basedNumber_ten hdigits, hvalue]

/-! ## Integers -/

/-- The digits of a positive number are those of a decimal integer. -/
theorem integerForm?_cons (hlow : '1' ≤ first) (hhigh : first ≤ '9')
    (hrest : ∀ c ∈ rest, c.isDigit = true) :
    integerForm? (first :: rest) = some (.digits 10 (first :: rest)) := by
  have hcolon : ':' ∉ rest := fun h => absurd (hrest _ h) (by decide)
  have hmarks : rest.all isDigitMark = true :=
    List.all_eq_true.mpr fun c hc => isDigitMark_of_isDigit (hrest c hc)
  have hzero : first ≠ '0' := by
    rintro rfl
    exact absurd hlow (by decide)
  unfold integerForm?
  split
  next h => exact absurd (List.cons.inj h).1 hzero
  next h => exact absurd (List.cons.inj h).1 hzero
  next h => exact absurd (List.cons.inj h).1 hzero
  next h => exact absurd (List.cons.inj h).1 hzero
  next h =>
    obtain ⟨rfl, rfl⟩ := List.cons.inj h
    rw [if_pos ⟨hlow, hhigh⟩, colonParts_of_not_mem hcolon]
    exact if_pos hmarks
  next h => cases h

/-- An exponent keeps a number from being an integer. -/
theorem integerForm?_exponent (hcolon : ':' ∉ rest) :
    integerForm? (first :: 'e' :: rest) = none := by
  have hcolon' : ':' ∉ 'e' :: rest := by simpa using hcolon
  unfold integerForm?
  split
  next h => cases h
  next h => cases h
  next h => cases h
  next h =>
    obtain ⟨-, rfl⟩ := List.cons.inj h
    exact if_neg (by simp)
  next h =>
    obtain ⟨rfl, rfl⟩ := List.cons.inj h
    rw [colonParts_of_not_mem hcolon']
    split
    · exact if_neg (by simp [isDigitMark])
    · rfl
  next h => cases h

/-- The text of an integer is read as the integer. -/
theorem integer?_withSign (negative : Bool) (n : Nat) :
    integer? (withSign negative (decimalDigits n)) =
      some (.ok (if negative then -(n : Int) else n)) := by
  rcases Nat.eq_zero_or_pos n with rfl | hn
  · cases negative <;> rfl
  obtain ⟨first, rest, hcons, hlow, hhigh⟩ := exists_decimalDigits_eq_cons hn
  have hdigits : ∀ c ∈ first :: rest, c.isDigit = true :=
    fun c hc => isDigit_of_mem_decimalDigits (hcons ▸ hc)
  have hvalue : basedNumber 10 (first :: rest) = n := by
    rw [basedNumber_ten hdigits, ← hcons, ofDigitChars_decimalDigits]
  rw [hcons, integer?, signed_withSign negative (hdigits first (List.mem_cons_self ..))]
  dsimp only
  rw [integerForm?_cons hlow hhigh fun c hc => hdigits c (List.mem_cons_of_mem _ hc),
    Option.map_some, IntegerForm.number, plainDigits_eq_self hdigits, if_neg (by simp), hvalue]
  rfl

/-! ## Scalars -/

/-- What begins like a number is a float, an integer, a point of time or a text. -/
theorem plainTag_of_beginsNumeral (h : beginsNumeral cs = true) :
    plainTag cs =
      if (float? cs).isSome then .float
      else if (integer? cs).isSome then .int
      else if ((timestampForm? cs).map TimestampForm.isPlain).getD false then .timestamp
      else .text := by
  have hword {w : String} (hw : beginsNumeral w.toList = false) : String.ofList cs ≠ w := by
    rintro rfl
    rw [String.toList_ofList, h] at hw
    cases hw
  have htrue : trueWords.contains (String.ofList cs) = false :=
    not_contains_of_beginsNumeral h (by decide)
  have hfalse : falseWords.contains (String.ofList cs) = false :=
    not_contains_of_beginsNumeral h (by decide)
  have hnull : nullWords.contains (String.ofList cs) = false :=
    not_contains_of_beginsNumeral h (by decide)
  have hmerge : String.ofList cs ≠ "<<" := hword (by decide)
  have hvalue : String.ofList cs ≠ "=" := hword (by decide)
  simp only [plainTag, htrue, hfalse, hnull, hmerge, hvalue, Bool.or_self, Bool.false_eq_true,
    if_false]

theorem map_ofNat_map_toNat (cs : List Char) : (cs.map Char.toNat).map Char.ofNat = cs := by
  rw [List.map_map]
  exact List.map_id'' Char.ofNat_toNat cs

/-- The code points of a text make up the text. -/
theorem ofCodes_map_toNat (cs : List Char) :
    Value.ofCodes (cs.map Char.toNat) = .text (String.ofList cs) := by
  rw [Value.ofCodes, map_ofNat_map_toNat, if_pos]
  rw [List.all_eq_true]
  intro code hcode
  obtain ⟨c, -, rfl⟩ := List.mem_map.mp hcode
  exact decide_eq_true c.valid

theorem toList_decimalText (n : Int) :
    (decimalText n).toList = withSign (decide (n < 0)) (decimalDigits n.natAbs) := by
  rw [decimalText, withSign]
  by_cases hneg : n < 0 <;> simp [hneg]

/-- An integer is read as itself. -/
theorem scalarValue_decimalText (n : Int) :
    scalarValue (plainTag (decimalText n).toList) ((decimalText n).toList.map Char.toNat) =
      .ok (.int n) := by
  have htext := toList_decimalText n
  obtain ⟨first, rest, hcons⟩ := List.exists_cons_of_ne_nil (decimalDigits_ne_nil (n := n.natAbs))
  have hdigits : ∀ c ∈ first :: rest, c.isDigit = true :=
    fun c hc => isDigit_of_mem_decimalDigits (hcons ▸ hc)
  have hfirst : first.isDigit = true := hdigits first (List.mem_cons_self ..)
  have hint : integer? (decimalText n).toList = some (.ok n) := by
    rw [htext, integer?_withSign]
    congr 2
    by_cases hneg : n < 0
    · rw [decide_eq_true hneg, if_pos rfl]
      omega
    · rw [decide_eq_false hneg, if_neg Bool.false_ne_true]
      omega
  have hfloat : float? (decimalText n).toList = none := by
    rw [htext, hcons, float?_withSign _ hfirst fun h => absurd (hdigits _ h) (by decide),
      pointFloat?_eq_none _ _ fun h => absurd (hdigits _ h) (by decide)]
  have hbegins : beginsNumeral (decimalText n).toList = true := by
    rw [htext, hcons]
    exact beginsNumeral_withSign _ hfirst
  rw [plainTag_of_beginsNumeral hbegins, hfloat, hint]
  simp only [scalarValue, map_ofNat_map_toNat, hint, Option.isSome_some, Option.isSome_none,
    Bool.false_eq_true, if_true, if_false]

/-- A number with an exponent and no point has no form that YAML knows. -/
theorem plainTag_exponent (negative : Bool) (hfirst : first.isDigit = true) (exponent : Int) :
    plainTag (withSign negative (first :: 'e' :: Binary64.exponentText exponent)) = .text := by
  have hmem {c : Char} (hc : c ∈ first :: 'e' :: Binary64.exponentText exponent) :
      c.isDigit = true ∨ c = 'e' ∨ c = '-' ∨ c = '+' := by
    rcases List.mem_cons.mp hc with rfl | hc
    · exact Or.inl hfirst
    rcases List.mem_cons.mp hc with rfl | hc
    · exact Or.inr (Or.inl rfl)
    · exact (Binary64.mem_exponentText hc).imp_right Or.inr
  have hpoint : '.' ∉ first :: 'e' :: Binary64.exponentText exponent :=
    fun h => absurd (hmem h) (by decide)
  have hcolon : ':' ∉ first :: 'e' :: Binary64.exponentText exponent :=
    fun h => absurd (hmem h) (by decide)
  have hfloat := float?_withSign negative hfirst hcolon
  rw [pointFloat?_eq_none negative negative hpoint] at hfloat
  have hint : integer? (withSign negative (first :: 'e' :: Binary64.exponentText exponent)) =
      none := by
    have hcolon' : ':' ∉ Binary64.exponentText exponent :=
      fun h => hcolon (List.mem_cons_of_mem _ (List.mem_cons_of_mem _ h))
    rw [integer?, signed_withSign negative hfirst]
    dsimp only
    rw [integerForm?_exponent hcolon', Option.map_none]
  have htimestamp : timestampForm?
      (withSign negative (first :: 'e' :: Binary64.exponentText exponent)) = none := by
    have he : 'e'.isDigit = false := rfl
    have hminus : '-'.isDigit = false := rfl
    cases negative
    · simp [withSign, timestampForm?, upToDigits, hfirst, he]
    · simp [withSign, timestampForm?, upToDigits, hfirst, he, hminus]
  rw [plainTag_of_beginsNumeral (beginsNumeral_withSign negative hfirst), hfloat, hint, htimestamp]
  rfl

/-- The text of a finite float is a spelling of its magnitude after a sign. -/
theorem exists_text_eq_withSign {x : Binary64} (hfinite : x.units?.isSome = true) :
    ∃ negative rank cs, x = .ofRank negative rank ∧ Binary64.Spelling rank cs ∧
      x.text.toList = withSign negative cs := by
  cases x with
  | nan => cases hfinite
  | number negative rank =>
    have hrank : rank.val < infinityRank := by
      by_contra h
      simp [Binary64.units?, h] at hfinite
    obtain ⟨cs, hcs, htext⟩ := Binary64.exists_spelling_text negative hrank
    refine ⟨negative, rank.val, cs, (Binary64.ofRank_val negative rank).symm, hcs, ?_⟩
    rw [htext, String.toList_ofList]
    rfl

/-- A finite float is read as itself if its text has a point, and as its text otherwise. -/
theorem scalarValue_text {x : Binary64} (hfinite : x.units?.isSome = true) :
    scalarValue (plainTag x.text.toList) (x.text.toList.map Char.toNat) =
      .ok (if '.' ∈ x.text.toList then .float x else .text x.text) := by
  obtain ⟨negative, rank, cs, hx, hspelling, htext⟩ := exists_text_eq_withSign hfinite
  obtain ⟨first, rest, hcons, hfirst, hrest⟩ := hspelling.exists_cons
  have hpoint : '.' ∈ x.text.toList ↔ '.' ∈ cs := by
    rw [htext]
    cases negative <;> simp [withSign]
  by_cases h : '.' ∈ cs
  · have hcolon : ':' ∉ cs := by
      rw [hcons, List.mem_cons, not_or]
      refine ⟨?_, fun h => absurd (hrest _ h) (by decide)⟩
      rintro rfl
      cases hfirst
    have hfloat : float? x.text.toList = some x := by
      rw [htext, hcons, float?_withSign negative hfirst (hcons ▸ hcolon), ← hcons,
        pointFloat?_of_spelling hspelling h, hx]
    have htag : plainTag x.text.toList = .float := by
      rw [plainTag_of_beginsNumeral, hfloat, Option.isSome_some, if_pos rfl]
      rw [htext, hcons]
      exact beginsNumeral_withSign negative hfirst
    rw [if_pos (hpoint.mpr h), htag]
    simp only [scalarValue, map_ofNat_map_toNat, hfloat]
  · have htag : plainTag x.text.toList = .text := by
      rw [htext]
      cases hspelling with
      | exponent first hdigit exponent => exact plainTag_exponent negative hdigit exponent
      | point => simp at h
    rw [if_neg (hpoint.not.mpr h), htag]
    simp only [scalarValue, ofCodes_map_toNat, String.ofList_toList]

end PolicyAuthoring.Yaml
