import PolicyAuthoring.Number.Binary64
import Mathlib.Order.Monotone.Basic
import Mathlib.Tactic.Ring

/-!
# Rounding to the nearest number

`Binary64.nearestRank` finds the rank nearest to a quotient. This file says what nearest means
without the arithmetic of binades: `Binary64.Nearest` places the quotient between the midpoints to
the two neighbouring magnitudes, and lets it be a midpoint only if the rank is even. Every quotient
has one such rank and no more (`Binary64.nearestRank_eq`), so whoever can place a quotient between
two midpoints knows what it is rounded to.
-/

namespace PolicyAuthoring

/-- The rounded quotient is off by a half at most, and by a half only if it is even. -/
theorem roundQuotient_spec (num : Nat) {den : Nat} (hden : 0 < den) :
    2 * num ≤ 2 * (den * roundQuotient num den) + den ∧
      2 * (den * roundQuotient num den) ≤ 2 * num + den ∧
      (roundQuotient num den % 2 = 1 → 2 * num < 2 * (den * roundQuotient num den) + den ∧
        2 * (den * roundQuotient num den) < 2 * num + den) := by
  have hdiv := Nat.div_add_mod num den
  have hmod := Nat.mod_lt num hden
  simp only [roundQuotient]
  split
  · rw [Nat.mul_succ]
    omega
  · omega

theorem le_roundQuotient (num den : Nat) : num / den ≤ roundQuotient num den := by
  simp only [roundQuotient]
  split <;> omega

theorem roundQuotient_le (num den : Nat) : roundQuotient num den ≤ num / den + 1 := by
  simp only [roundQuotient]
  split <;> omega

namespace Binary64

/-! ## Magnitudes -/

theorem binadeSize_eq : binadeSize = 4503599627370496 := rfl

/-- Every rank is some steps of the binade that it lies in, of which all but the first start at the
half of their range. -/
theorem exists_binade (rank : Nat) : ∃ shift k, rank = shift * binadeSize + k ∧
    (shift = 0 ∨ binadeSize ≤ k) ∧ k < 2 * binadeSize := by
  simp only [binadeSize_eq]
  by_cases h : rank < 4503599627370496
  · exact ⟨0, rank, by omega, Or.inl rfl, by omega⟩
  · exact ⟨rank / 4503599627370496 - 1, 4503599627370496 + rank % 4503599627370496,
      by omega, by omega, by omega⟩

/-- The magnitude at a rank, counted in the steps of its binade. The end of a binade is the start of
the next one. -/
theorem unitsAt_binade {shift k : Nat} (hlow : shift = 0 ∨ binadeSize ≤ k)
    (hhigh : k ≤ 2 * binadeSize) : unitsAt (shift * binadeSize + k) = k * 2 ^ shift := by
  simp only [unitsAt, binadeSize_eq, Nat.shiftLeft_eq] at hlow hhigh ⊢
  rcases lt_or_ge k 4503599627370496 with hk | hk
  · obtain rfl : shift = 0 := by omega
    rw [if_pos (by omega), pow_zero, Nat.mul_one]
    omega
  rcases Nat.lt_or_eq_of_le hhigh with hk' | rfl
  · have hfield : (shift * 4503599627370496 + k) / 4503599627370496 = shift + 1 := by omega
    rw [if_neg (by omega), hfield, Nat.add_sub_cancel]
    congr 1
    omega
  · have hfield : (shift * 4503599627370496 + 2 * 4503599627370496) / 4503599627370496 =
        shift + 1 + 1 := by omega
    have hfraction :
        (shift * 4503599627370496 + 2 * 4503599627370496) % 4503599627370496 = 0 := by omega
    rw [if_neg (by omega), hfield, hfraction, Nat.add_sub_cancel, pow_succ]
    omega

/-- The next magnitude is one step of the binade away. -/
theorem unitsAt_succ {shift k : Nat} (hlow : shift = 0 ∨ binadeSize ≤ k)
    (hhigh : k < 2 * binadeSize) :
    unitsAt (shift * binadeSize + k + 1) = k * 2 ^ shift + 2 ^ shift := by
  rw [Nat.add_assoc, unitsAt_binade (hlow.imp_right (by omega)) hhigh, Nat.succ_mul]

/-- The next magnitude is at least one step of the binade away, also from the end of the binade. -/
theorem le_unitsAt_succ {shift k : Nat} (hlow : shift = 0 ∨ binadeSize ≤ k)
    (hhigh : k ≤ 2 * binadeSize) :
    k * 2 ^ shift + 2 ^ shift ≤ unitsAt (shift * binadeSize + k + 1) := by
  rcases Nat.lt_or_eq_of_le hhigh with hk | rfl
  · rw [unitsAt_succ hlow hk]
  · have hrank : shift * binadeSize + 2 * binadeSize = (shift + 1) * binadeSize + binadeSize := by
      ring
    rw [hrank, unitsAt_succ (Or.inr (Nat.le_refl _)) (by rw [binadeSize_eq]; omega), pow_succ,
      binadeSize_eq]
    omega

/-- A greater rank has a greater magnitude. -/
theorem unitsAt_strictMono : StrictMono unitsAt := by
  refine strictMono_nat_of_lt_succ fun rank => ?_
  obtain ⟨shift, k, rfl, hlow, hhigh⟩ := exists_binade rank
  rw [unitsAt_succ hlow hhigh, unitsAt_binade hlow hhigh.le]
  exact Nat.lt_add_of_pos_right (Nat.two_pow_pos shift)

@[simp] theorem unitsAt_zero : unitsAt 0 = 0 := rfl

/-! ## The nearest rank -/

/-- A quotient, in units of `2 ^ -1074`, lies between the midpoints to the magnitudes before and
after a rank. The midpoints belong to the rank if it is even. -/
structure Nearest (num den rank : Nat) : Prop where
  /-- The midpoint below. -/
  low : (unitsAt (rank - 1) + unitsAt rank) * den ≤ 2 * num
  /-- The midpoint above. -/
  high : 2 * num ≤ (unitsAt rank + unitsAt (rank + 1)) * den
  /-- Neither midpoint belongs to an odd rank. -/
  strict : rank % 2 = 1 → (unitsAt (rank - 1) + unitsAt rank) * den < 2 * num ∧
    2 * num < (unitsAt rank + unitsAt (rank + 1)) * den

variable {num den rank : Nat}

/-- A common factor does not matter. -/
theorem Nearest.cancel {factor : Nat} (hfactor : 0 < factor)
    (h : Nearest (num * factor) (den * factor) rank) : Nearest num den rank := by
  have hnum : 2 * (num * factor) = 2 * num * factor := by ring
  obtain ⟨hlow, hhigh, hstrict⟩ := h
  simp only [hnum, ← Nat.mul_assoc, Nat.mul_lt_mul_right hfactor,
    Nat.mul_le_mul_right_iff hfactor] at hlow hhigh hstrict
  exact ⟨hlow, hhigh, hstrict⟩

/-- A quotient is nearest to one rank only. -/
theorem Nearest.unique (hden : 0 < den) {other : Nat} (h : Nearest num den rank)
    (h' : Nearest num den other) : rank = other := by
  -- Between two ranks there is a midpoint that the quotient is on both sides of, so it is the
  -- midpoint of neighbours, and one of two neighbours is odd.
  have key {a b : Nat} (ha : Nearest num den a) (hb : Nearest num den b) : ¬a < b := by
    intro hab
    have hmono : unitsAt a + unitsAt (a + 1) ≤ unitsAt (b - 1) + unitsAt b :=
      Nat.add_le_add (unitsAt_strictMono.monotone (by omega))
        (unitsAt_strictMono.monotone (by omega))
    have hmid := Nat.mul_le_mul_right den hmono
    have ha' := ha.high
    have hb' := hb.low
    have heven : a % 2 = 0 ∧ b % 2 = 0 := by
      refine ⟨?_, ?_⟩ <;> by_contra hodd
      · have := (ha.strict (by omega)).2
        omega
      · have := (hb.strict (by omega)).1
        omega
    have heq : unitsAt a + unitsAt (a + 1) = unitsAt (b - 1) + unitsAt b :=
      Nat.eq_of_mul_eq_mul_right hden (by omega)
    have hb : a + 1 < b := by omega
    have h1 : unitsAt a < unitsAt (b - 1) := unitsAt_strictMono (by omega)
    have h2 : unitsAt (a + 1) < unitsAt b := unitsAt_strictMono (by omega)
    omega
  exact Nat.le_antisymm (Nat.le_of_not_lt (key h' h)) (Nat.le_of_not_lt (key h h'))

/-- The quotient rounded in the steps of its binade is nearest to the rank of the result. -/
theorem nearest_roundQuotient (hden : 0 < den) {shift : Nat}
    (hlow : shift = 0 ∨ binadeSize ≤ num / (den * 2 ^ shift))
    (hhigh : num / (den * 2 ^ shift) < 2 * binadeSize) :
    Nearest num den (shift * binadeSize + roundQuotient num (den * 2 ^ shift)) := by
  have hstep : 0 < den * 2 ^ shift := Nat.mul_pos hden (Nat.two_pow_pos shift)
  obtain ⟨habove, hbelow, hstrict⟩ := roundQuotient_spec num hstep
  have hfloor := le_roundQuotient num (den * 2 ^ shift)
  have hceil := roundQuotient_le num (den * 2 ^ shift)
  generalize roundQuotient num (den * 2 ^ shift) = k at *
  have hunits : unitsAt (shift * binadeSize + k) = k * 2 ^ shift :=
    unitsAt_binade (hlow.imp_right (by omega)) (by omega)
  have hparity : (shift * binadeSize + k) % 2 = k % 2 := by
    rw [binadeSize_eq]
    omega
  have hprod : (den * 2 ^ shift) * k = k * 2 ^ shift * den := by ring
  rw [hprod] at habove hbelow hstrict
  have hnext : k * 2 ^ shift * den + den * 2 ^ shift ≤
      unitsAt (shift * binadeSize + k + 1) * den := by
    rw [Nat.mul_comm den, ← Nat.add_mul]
    exact Nat.mul_le_mul_right den (le_unitsAt_succ (hlow.imp_right (by omega)) (by omega))
  -- Below the start of a binade the steps are smaller, but the quotient is not below the start.
  have hprev : k = 0 ∨ unitsAt (shift * binadeSize + k - 1) * den + den * 2 ^ shift =
      k * 2 ^ shift * den ∨ k % 2 = 0 ∧ k * 2 ^ shift * den ≤ num := by
    rcases Nat.eq_zero_or_pos k with rfl | hpos
    · exact Or.inl rfl
    right
    by_cases hstart : shift = 0 ∨ binadeSize < k
    · left
      have hrank : shift * binadeSize + k - 1 = shift * binadeSize + (k - 1) := by omega
      rw [hrank, unitsAt_binade (hstart.imp_right (by omega)) (by omega), Nat.mul_comm den,
        ← Nat.add_mul, ← Nat.succ_mul, Nat.succ_eq_add_one, Nat.sub_add_cancel hpos]
    · right
      push Not at hstart
      have hfloor' := hlow.resolve_left hstart.1
      obtain rfl : k = binadeSize := by omega
      rw [Nat.le_div_iff_mul_le hstep] at hfloor'
      exact ⟨by rw [binadeSize_eq], by rw [← hprod, Nat.mul_comm]; exact hfloor'⟩
  have hle : unitsAt (shift * binadeSize + k - 1) * den ≤ k * 2 ^ shift * den :=
    Nat.mul_le_mul_right den (hunits ▸ unitsAt_strictMono.monotone (Nat.sub_le _ 1))
  refine ⟨?_, ?_, fun hodd => ?_⟩ <;> rw [hunits, Nat.add_mul]
  · rcases hprev with rfl | hprev | ⟨-, hprev⟩ <;> omega
  · omega
  · obtain ⟨habove', hbelow'⟩ := hstrict (by omega)
    rw [Nat.add_mul]
    omega

/-- The rank that rounding finds is the nearest one. -/
theorem nearestRank_eq (hden : 0 < den) (h : Nearest (num * unitsPerOne) den rank)
    (hrank : rank ≤ infinityRank) : nearestRank num den = rank := by
  simp only [nearestRank]
  generalize num * unitsPerOne = units at *
  rw [Nat.shiftLeft_eq]
  have hB : binadeSize = 2 ^ 52 := rfl
  have hquotient {shift : Nat} : units / (den * 2 ^ shift) = units / den / 2 ^ shift :=
    (Nat.div_div_eq_div_mul ..).symm
  have hlog : units / den < 2 ^ ((units / den).log2 + 1) := Nat.lt_log2_self
  -- The shift leaves a quotient of 53 bits, or all of it if it has no more.
  have hlow : (units / den).log2 - 52 = 0 ∨
      binadeSize ≤ units / (den * 2 ^ ((units / den).log2 - 52)) := by
    rw [or_iff_not_imp_left]
    intro hshift
    have hne : units / den ≠ 0 := by
      intro h
      simp [h] at hshift
    rw [hquotient, hB, Nat.le_div_iff_mul_le (Nat.two_pow_pos _), ← pow_add,
      Nat.add_sub_cancel' (by omega)]
    exact Nat.log2_self_le hne
  have hhigh : units / (den * 2 ^ ((units / den).log2 - 52)) < 2 * binadeSize := by
    rw [hquotient, hB, Nat.div_lt_iff_lt_mul (Nat.two_pow_pos _), ← pow_succ', ← pow_add]
    exact Nat.lt_of_lt_of_le hlog (Nat.pow_le_pow_right (by omega) (by omega))
  have hnearest := nearest_roundQuotient hden hlow hhigh
  rw [hnearest.unique hden h, Nat.min_eq_left hrank]

end Binary64

end PolicyAuthoring
