import PolicyAuthoring.Proofs.Number.Shortest
import Mathlib.Data.List.TakeWhile

/-!
# Spellings of decimals

The text of a number is one of two spellings of its shortest decimal. One has a point, and maybe an
exponent after it; the other has a single digit and an exponent (`Binary64.spelling_magnitudeText`).
Whatever the position of the point, the digits and the exponent make up the same decimal.
-/

namespace PolicyAuthoring

variable {n : Nat}

/-! ## Digits -/

theorem isDigit_of_mem_decimalDigits {c : Char} (h : c ∈ decimalDigits n) : c.isDigit = true :=
  Nat.isDigit_of_mem_toDigits (by decide) (by decide) h

theorem decimalDigits_ne_nil : decimalDigits n ≠ [] := Nat.toDigits_ne_nil

theorem ofDigitChars_decimalDigits : Nat.ofDigitChars 10 (decimalDigits n) 0 = n :=
  Nat.ofDigitChars_ten_toDigits

/-- Different natural numbers have different digits. -/
theorem decimalDigits_injective : Function.Injective decimalDigits := by
  intro m n h
  rw [← ofDigitChars_decimalDigits (n := m), h, ofDigitChars_decimalDigits]

/-- Digits have no sign among them. -/
theorem hyphen_not_mem_decimalDigits (n : Nat) : '-' ∉ decimalDigits n := by
  intro hmem
  have hdigit := isDigit_of_mem_decimalDigits hmem
  revert hdigit
  decide

/-- Different integers have different texts. -/
theorem decimalText_injective : Function.Injective decimalText := by
  intro m n h
  rw [decimalText, decimalText] at h
  -- The signs agree, because no digit is a sign, and then the digits do.
  by_cases hm : m < 0 <;> by_cases hn : n < 0 <;>
    simp only [hm, hn, if_true, if_false, String.ofList_inj] at h
  · have hdigits := decimalDigits_injective (List.cons.inj h).2
    omega
  · exact absurd (h ▸ List.mem_cons_self ..) (hyphen_not_mem_decimalDigits n.natAbs)
  · exact absurd (h ▸ List.mem_cons_self ..) (hyphen_not_mem_decimalDigits m.natAbs)
  · have hdigits := decimalDigits_injective h
    omega

/-- A positive number does not begin with the digit zero. -/
theorem exists_decimalDigits_eq_cons (hn : 0 < n) :
    ∃ c cs, decimalDigits n = c :: cs ∧ '1' ≤ c ∧ c ≤ '9' := by
  induction n using Nat.strongRecOn with
  | ind n ih =>
    rcases Nat.lt_or_ge n 10 with hsmall | hlarge
    · have hdigit : ∀ d < 10, 0 < d → '1' ≤ d.digitChar ∧ d.digitChar ≤ '9' := by decide
      exact ⟨n.digitChar, [], Nat.toDigits_of_lt_base hsmall, hdigit n hsmall hn⟩
    · obtain ⟨c, cs, hdigits, hc⟩ := ih (n / 10) (by omega) (by omega)
      refine ⟨c, cs ++ [(n % 10).digitChar], ?_, hc⟩
      rw [decimalDigits, Nat.toDigits_of_base_le (by decide) hlarge, ← decimalDigits, hdigits]
      rfl

namespace Binary64

variable {rank : Nat}

/-- A decimal loses nothing but zeros at its end. -/
theorem decimalDigits_eq_trimmed (d : Decimal) : ∃ zeros : Nat,
    decimalDigits d.digits = (trimmed d).1 ++ List.replicate zeros '0' ∧
      (trimmed d).2 = d.exponent + zeros := by
  have hsplit := congrArg List.reverse
    (List.takeWhile_append_dropWhile (p := (· = '0')) (l := (decimalDigits d.digits).reverse))
  rw [List.reverse_append, List.reverse_reverse] at hsplit
  have hzeros : ∀ c ∈ ((decimalDigits d.digits).reverse.takeWhile (· = '0')).reverse, c = '0' := by
    intro c hc
    simpa using List.mem_takeWhile_imp (List.mem_reverse.mp hc)
  rw [List.eq_replicate_of_mem hzeros] at hsplit
  refine ⟨_, hsplit.symm, ?_⟩
  unfold trimmed
  dsimp only
  have hlength := congrArg List.length hsplit
  rw [List.length_append, List.length_replicate] at hlength
  omega

/-- The trimmed digits of the shortest decimal of a number: every decimal that has the same value,
with zeros appended or not, is read as the number. -/
theorem exists_trimmed_shortest (hpos : 0 < rank) (hfinite : rank < infinityRank) :
    ∃ first rest exponent, trimmed (shortest rank) = (first :: rest, exponent) ∧
      (∀ c ∈ first :: rest, c.isDigit = true) ∧ -(decimalShift : Int) ≤ exponent ∧
      ∀ negative (zeros : Nat),
        -(decimalShift : Int) ≤ exponent - zeros →
        ofDecimal negative (10 ^ zeros * Nat.ofDigitChars 10 (first :: rest) 0) (exponent - zeros) =
          ofRank negative rank := by
  obtain ⟨digits, last, hshortest, hnearest⟩ := exists_shortest hpos
  have hdigits : 0 < digits := by
    rw [Nat.pos_iff_ne_zero]
    rintro rfl
    have hlow := hnearest.low
    have hunits := unitsAt_strictMono hpos
    have := Nat.mul_pos (show 0 < unitsAt (rank - 1) + unitsAt rank by omega)
      (tenTo_pos decimalShift)
    simp only [Nat.zero_mul, Nat.mul_zero] at hlow
    omega
  obtain ⟨c, cs, hcons, hc⟩ := exists_decimalDigits_eq_cons hdigits
  obtain ⟨zeros, hsplit, hexponent⟩ := decimalDigits_eq_trimmed (shortest rank)
  have hdecimal : decimalDigits (shortest rank).digits = decimalDigits digits := by rw [hshortest]
  have hlast : (shortest rank).exponent = (last : Int) - decimalShift := by rw [hshortest]
  rw [hdecimal] at hsplit
  rw [hlast] at hexponent
  obtain ⟨rest, hkept⟩ : ∃ rest, (trimmed (shortest rank)).1 = c :: rest := by
    cases htrimmed : (trimmed (shortest rank)).1 with
    | nil =>
      rw [htrimmed, hcons, List.nil_append] at hsplit
      have hzero := List.eq_of_mem_replicate (hsplit ▸ List.mem_cons_self ..)
      exact absurd hc.1 (hzero ▸ by decide)
    | cons d rest =>
      rw [htrimmed, hcons, List.cons_append] at hsplit
      exact ⟨rest, by rw [(List.cons.inj hsplit).1]⟩
  rw [hkept] at hsplit
  have hvalue : 10 ^ zeros * Nat.ofDigitChars 10 (c :: rest) 0 = digits := by
    rw [← Nat.ofDigitChars_replicate_zero, ← Nat.ofDigitChars_append, ← hsplit,
      ofDigitChars_decimalDigits]
  refine ⟨c, rest, (trimmed (shortest rank)).2, Prod.ext hkept rfl, fun d hd => ?_, by omega,
    fun negative k hk => ?_⟩
  · exact isDigit_of_mem_decimalDigits (n := digits) (hsplit ▸ List.mem_append_left _ hd)
  · rw [hexponent] at hk ⊢
    refine ofDecimal_eq ?_ hk hfinite ?_ negative
    · exact Nat.mul_pos (Nat.pow_pos (by decide)) (Nat.pos_of_mul_pos_left (hvalue ▸ hdigits))
    · generalize hplace : ((last : Int) - decimalShift + zeros - k + decimalShift).toNat = place
      have hsum : place + k = zeros + last := by omega
      have hsame : 10 ^ k * Nat.ofDigitChars 10 (c :: rest) 0 * tenTo place =
          digits * tenTo last := by
        calc 10 ^ k * Nat.ofDigitChars 10 (c :: rest) 0 * tenTo place
            = Nat.ofDigitChars 10 (c :: rest) 0 * tenTo (place + k) := by
              rw [tenTo_add, tenTo_eq k]
              ring
          _ = 10 ^ zeros * Nat.ofDigitChars 10 (c :: rest) 0 * tenTo last := by
              rw [hsum, tenTo_add, tenTo_eq zeros]
              ring
          _ = digits * tenTo last := by rw [hvalue]
      rwa [hsame]

/-! ## Spellings -/

/-- The spellings of a magnitude. -/
inductive Spelling (rank : Nat) : List Char → Prop
  /-- Digits around a point, and maybe an exponent after them. -/
  | point (first : Char) (whole places tail : List Char) (exponent : Int)
      (hdigits : ∀ c ∈ first :: whole ++ places, c.isDigit = true)
      (htail : tail = [] ∧ exponent = 0 ∨ tail = 'e' :: exponentText exponent)
      (hvalue : ∀ negative, ofDecimal negative
        (Nat.ofDigitChars 10 (first :: whole ++ places) 0) (exponent - places.length) =
          ofRank negative rank) :
      Spelling rank (first :: whole ++ '.' :: (places ++ tail))
  /-- One digit and an exponent. -/
  | exponent (first : Char) (hdigit : first.isDigit = true) (exponent : Int) :
      Spelling rank (first :: 'e' :: exponentText exponent)

/-- Digits around a point without an exponent. -/
theorem Spelling.positional (first : Char) (whole places : List Char)
    (hdigits : ∀ c ∈ first :: whole ++ places, c.isDigit = true)
    (hvalue : ∀ negative, ofDecimal negative
      (Nat.ofDigitChars 10 (first :: whole ++ places) 0) (-(places.length : Int)) =
        ofRank negative rank) :
    Spelling rank (first :: whole ++ '.' :: places) := by
  have h := point first whole places [] 0 hdigits (.inl ⟨rfl, rfl⟩) (by simpa using hvalue)
  rwa [List.append_nil] at h

theorem ofDigitChars_zeros (zeros : Nat) (cs : List Char) :
    Nat.ofDigitChars 10 (List.replicate zeros '0' ++ cs) 0 = Nat.ofDigitChars 10 cs 0 := by
  rw [Nat.ofDigitChars_append, Nat.ofDigitChars_replicate_zero, Nat.mul_zero]

theorem isDigit_of_mem_zeros {c : Char} {zeros : Nat} (h : c ∈ List.replicate zeros '0') :
    c.isDigit = true := by
  rw [List.eq_of_mem_replicate h]
  rfl

section

variable {first : Char} {rest : List Char} {exponent : Int}
  (hdigits : ∀ c ∈ first :: rest, c.isDigit = true) (hshift : -(decimalShift : Int) ≤ exponent)
  (hvalue : ∀ negative (zeros : Nat), -(decimalShift : Int) ≤ exponent - zeros →
    ofDecimal negative (10 ^ zeros * Nat.ofDigitChars 10 (first :: rest) 0) (exponent - zeros) =
      ofRank negative rank)

include hdigits hvalue hshift

omit hdigits in
/-- The digits as they are, without zeros appended. -/
theorem ofDecimal_digits (negative : Bool) :
    ofDecimal negative (Nat.ofDigitChars 10 (first :: rest) 0) exponent = ofRank negative rank := by
  simpa using hvalue negative 0 (by simpa using hshift)

/-- Positional notation spells what its digits are worth. -/
theorem spelling_positional : Spelling rank (positional (first :: rest) exponent) := by
  have hself := ofDecimal_digits hshift hvalue
  unfold positional
  split
  next hexponent =>
    -- Zeros fill the places up to the point, and one more stands after it.
    have hsplit : first :: (rest ++ List.replicate exponent.toNat '0') ++ ['0'] =
        (first :: rest) ++ List.replicate (exponent.toNat + 1) '0' := by
      rw [List.replicate_succ', ← List.append_assoc]
      rfl
    refine .positional first (rest ++ List.replicate exponent.toNat '0') ['0'] (fun c hc => ?_)
      (fun negative => ?_)
    · rw [hsplit, List.mem_append] at hc
      exact hc.elim (hdigits c) isDigit_of_mem_zeros
    · rw [hsplit, Nat.ofDigitChars_append, Nat.ofDigitChars_replicate_zero,
        ← hvalue negative (exponent.toNat + 1) (by simp only [decimalShift]; omega)]
      congr 1
      simp only [List.length_singleton]
      omega
  next hexponent =>
    dsimp only
    split
    next hlength =>
      -- Zeros fill the places behind the point.
      generalize hzeros : exponent.natAbs - (first :: rest).length = zeros
      have hsplit : ['0'] ++ (List.replicate zeros '0' ++ first :: rest) =
          List.replicate (zeros + 1) '0' ++ first :: rest := by
        rw [List.replicate_succ, ← List.append_assoc]
        rfl
      refine .positional '0' [] (List.replicate zeros '0' ++ first :: rest) (fun c hc => ?_)
        (fun negative => ?_)
      · rw [hsplit, List.mem_append] at hc
        exact hc.elim isDigit_of_mem_zeros (hdigits c)
      · rw [hsplit, ofDigitChars_zeros, ← hself]
        congr 1
        rw [List.length_append, List.length_replicate]
        omega
    next hlength =>
      obtain ⟨m, hm⟩ : ∃ m, (first :: rest).length - exponent.natAbs = m + 1 :=
        ⟨(first :: rest).length - exponent.natAbs - 1, by omega⟩
      have hsplit : first :: rest.take m ++ rest.drop m = first :: rest := by
        rw [List.cons_append, List.take_append_drop]
      rw [hm]
      refine .positional first (rest.take m) (rest.drop m) (hsplit ▸ hdigits) (fun negative => ?_)
      rw [hsplit, ← hself]
      congr 1
      simp only [List.length_cons, List.length_drop] at hm ⊢
      omega

/-- Exponent notation spells what its digits are worth. -/
theorem spelling_scientific :
    Spelling rank (scientific (first :: rest) (exponent + (first :: rest).length - 1)) := by
  have hself := ofDecimal_digits hshift hvalue
  cases rest with
  | nil => exact .exponent first (hdigits first (List.mem_cons_self ..)) _
  | cons second rest =>
    refine .point first [] (second :: rest) _ _ hdigits (.inr rfl) fun negative => ?_
    rw [List.cons_append, List.nil_append, ← hself]
    congr 1
    simp only [List.length_cons]
    omega

end

/-- The text of a positive magnitude spells it. -/
theorem spelling_magnitudeText (hpos : 0 < rank) (hfinite : rank < infinityRank) :
    Spelling rank (magnitudeText rank) := by
  obtain ⟨first, rest, exponent, htrimmed, hdigits, hshift, hvalue⟩ :=
    exists_trimmed_shortest hpos hfinite
  unfold magnitudeText
  rw [htrimmed]
  dsimp only
  split
  · exact spelling_positional hdigits hshift hvalue
  · exact spelling_scientific hdigits hshift hvalue

/-- The text of a finite number spells its magnitude after the sign. -/
theorem exists_spelling_text (negative : Bool) {rank : Fin (infinityRank + 1)}
    (hfinite : rank.val < infinityRank) : ∃ cs, Spelling rank.val cs ∧
      (number negative rank).text = String.ofList (if negative then '-' :: cs else cs) := by
  by_cases hzero : rank.val = 0
  · have hspelling : Spelling 0 ['0', '.', '0'] := by
      refine .positional '0' [] ['0'] (List.all_eq_true.mp rfl) fun negative => ?_
      unfold ofDecimal
      exact if_pos (Or.inl rfl)
    exact ⟨['0', '.', '0'], by rwa [hzero], by simp only [text, if_pos hzero]⟩
  · refine ⟨magnitudeText rank.val, spelling_magnitudeText (Nat.pos_of_ne_zero hzero) hfinite, ?_⟩
    simp only [text, if_neg hzero, if_neg (Nat.ne_of_lt hfinite)]

/-- Whether a character can stand in the text of a number. -/
def isNumeralChar (c : Char) : Bool := c.isDigit || c = '.' || c = 'e' || c = '+' || c = '-'

theorem isNumeralChar_of_isDigit {c : Char} (h : c.isDigit = true) : isNumeralChar c = true := by
  simp [isNumeralChar, h]

theorem mem_exponentText {exponent : Int} {c : Char} (h : c ∈ exponentText exponent) :
    c.isDigit = true ∨ c = '-' ∨ c = '+' := by
  rcases List.mem_cons.mp h with rfl | h
  · split
    · exact Or.inr (Or.inl rfl)
    · exact Or.inr (Or.inr rfl)
  · exact Or.inl
      ((List.mem_append.mp h).elim isDigit_of_mem_zeros isDigit_of_mem_decimalDigits)

theorem isNumeralChar_of_mem_exponentText {exponent : Int} {c : Char}
    (h : c ∈ exponentText exponent) : isNumeralChar c = true := by
  rcases mem_exponentText h with h | rfl | rfl
  · exact isNumeralChar_of_isDigit h
  · rfl
  · rfl

/-- A spelling begins with a digit. -/
theorem Spelling.exists_cons {cs : List Char} (h : Spelling rank cs) :
    ∃ first rest, cs = first :: rest ∧ first.isDigit = true ∧
      ∀ c ∈ rest, isNumeralChar c = true := by
  cases h with
  | point first whole places tail exponent hdigits htail =>
    refine ⟨first, _, rfl, hdigits first (List.mem_cons_self ..), fun c hc => ?_⟩
    rcases List.mem_append.mp hc with hc | hc
    · exact isNumeralChar_of_isDigit
        (hdigits c (List.mem_append_left _ (List.mem_cons_of_mem _ hc)))
    rcases List.mem_cons.mp hc with rfl | hc
    · rfl
    rcases List.mem_append.mp hc with hc | hc
    · exact isNumeralChar_of_isDigit (hdigits c (List.mem_append_right _ hc))
    rcases htail with ⟨rfl, -⟩ | rfl
    · cases hc
    · rcases List.mem_cons.mp hc with rfl | hc
      · rfl
      · exact isNumeralChar_of_mem_exponentText hc
  | exponent first hdigit exponent =>
    refine ⟨first, _, rfl, hdigit, fun c hc => ?_⟩
    rcases List.mem_cons.mp hc with rfl | hc
    · rfl
    · exact isNumeralChar_of_mem_exponentText hc

end Binary64

end PolicyAuthoring
