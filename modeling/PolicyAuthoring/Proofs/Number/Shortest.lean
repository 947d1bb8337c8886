import PolicyAuthoring.Number.Shortest
import PolicyAuthoring.Proofs.Number.Binary64

/-!
# Decimal text of numbers, read back

`Binary64.shortest` finds a decimal that is nearest to the number it was made for
(`Binary64.exists_shortest`): the search ends within its seventeen tries, for the step between
decimals of seventeen digits is smaller than the distance between the midpoints around the number.
`Binary64.ofDecimal` therefore reads every spelling of that decimal as the number
(`Binary64.ofDecimal_eq`).
-/

namespace PolicyAuthoring.Binary64

variable {w : Window} {value step rank place : Nat}

/-! ## Scales -/

theorem tenTo_eq (n : Nat) : tenTo n = 10 ^ n := by
  rw [tenTo]
  rfl

theorem tenTo_pos (n : Nat) : 0 < tenTo n := by
  rw [tenTo_eq]
  exact Nat.pow_pos (by decide)

theorem tenTo_add (m n : Nat) : tenTo (m + n) = tenTo m * tenTo n := by
  simp only [tenTo_eq, Nat.pow_add]

theorem tenTo_mono {m n : Nat} (h : m ≤ n) : tenTo m ≤ tenTo n := by
  simp only [tenTo_eq]
  exact Nat.pow_le_pow_right (by decide) h

theorem unitsPerOne_pos : 0 < unitsPerOne := by decide +kernel

/-- Steps are counted in halves of units. -/
theorem decimalStep_eq (place : Nat) : decimalStep place = 2 * (tenTo place * unitsPerOne) := by
  have hshift (t n : Nat) : t <<< (n + 1) = 2 * (t * 1 <<< n) := by
    rw [Nat.one_shiftLeft, ← Nat.shiftLeft_eq, ← Nat.shiftLeft_succ]
  exact hshift (tenTo place) 1074

-- The powers of ten and two are too large to be computed by unfolding.
attribute [local irreducible] tenTo unitsPerOne decimalStep

theorem decimalStep_pos (place : Nat) : 0 < decimalStep place := by
  rw [decimalStep_eq]
  exact Nat.mul_pos (by decide) (Nat.mul_pos (tenTo_pos place) unitsPerOne_pos)

theorem decimalStep_add (m n : Nat) : decimalStep (m + n) = tenTo m * decimalStep n := by
  rw [decimalStep_eq, decimalStep_eq, tenTo_add, Nat.mul_assoc, Nat.mul_left_comm]

/-- A positive number has more than `k` digits if it is not below the power of ten. -/
theorem lt_length_decimalDigits_iff {n : Nat} (hn : 0 < n) (k : Nat) :
    k < (decimalDigits n).length ↔ tenTo k ≤ n := by
  rw [tenTo_eq, decimalDigits]
  rcases Nat.eq_zero_or_pos k with rfl | hk
  · simpa using ⟨fun _ => hn, fun _ => Nat.length_toDigits_pos⟩
  · have := Nat.length_toDigits_le_iff (b := 10) (n := n) (by decide) hk
    omega

/-- Sixteen digits are room for the smallest magnitude above the end of the scale. -/
theorem tenTo_mul_unitsPerOne_le : tenTo 16 * unitsPerOne ≤ tenTo decimalShift := by
  decide +kernel

/-- The greatest finite magnitude is below the other end of the scale. -/
theorem unitsAt_infinityRank_lt : unitsAt infinityRank < tenTo 309 * unitsPerOne := by
  decide +kernel

/-! ## Windows -/

/-- The decimals in the window of a rank are those nearest to it. -/
theorem contains_windowAt_iff {num : Nat} :
    (windowAt rank).contains (2 * num) = true ↔ Nearest num (tenTo decimalShift) rank := by
  simp only [Window.contains, Bool.or_eq_true, Bool.and_eq_true, decide_eq_true_eq]
  simp only [windowAt, decide_eq_true_eq]
  have hmid : (unitsAt (rank - 1) + unitsAt rank) * tenTo decimalShift ≤
      (unitsAt rank + unitsAt (rank + 1)) * tenTo decimalShift := by
    refine Nat.mul_le_mul_right _ (Nat.add_le_add ?_ ?_) <;>
      exact unitsAt_strictMono.monotone (by omega)
  refine ⟨fun h => ⟨?_, ?_, ?_⟩, fun ⟨hlow, hhigh, hstrict⟩ => ?_⟩ <;> omega

/-- The multiple that is found lies in the window. -/
theorem contains_of_multiple? {digits : Nat}
    (h : w.multiple? value step = some digits) : w.contains (digits * step) = true := by
  have hrounded : roundQuotient value step = value / step ∨
      roundQuotient value step = value / step + 1 := by
    have := le_roundQuotient value step
    have := roundQuotient_le value step
    omega
  unfold Window.multiple? at h
  dsimp only at h
  split at h
  next hlower hupper =>
    rw [← Option.some.inj h]
    rcases hrounded with hr | hr <;> rwa [hr]
  next hlower _ =>
    rw [← Option.some.inj h]
    exact hlower
  next _ hupper =>
    rw [← Option.some.inj h]
    exact hupper
  next => cases h

/-- A window that is wider than the step has a multiple of it next to every value inside. -/
theorem exists_multiple? (hstep : 0 < step) (hlow : w.low < value) (hhigh : value < w.high)
    (hwide : w.low + step < w.high) : ∃ digits, w.multiple? value step = some digits := by
  have hdiv := Nat.div_add_mod value step
  have hmod := Nat.mod_lt value hstep
  -- One of the two multiples around the value is strictly between the ends.
  have hinside : w.contains (value / step * step) = true ∨
      w.contains ((value / step + 1) * step) = true := by
    simp only [Window.contains, Bool.or_eq_true, Bool.and_eq_true, decide_eq_true_eq]
    rw [Nat.add_mul, Nat.mul_comm (value / step) step]
    omega
  unfold Window.multiple?
  dsimp only
  split
  · exact ⟨_, rfl⟩
  · exact ⟨_, rfl⟩
  · exact ⟨_, rfl⟩
  next hlower hupper => simp [hlower, hupper] at hinside

/-! ## The search -/

section
attribute [local irreducible] Window.multiple?

theorem shortestFrom_succ (w : Window) (value tries place : Nat) :
    shortestFrom w value (tries + 1) place =
      match w.multiple? value (decimalStep place) with
      | some digits => ⟨digits, (place : Int) - decimalShift⟩
      | none => shortestFrom w value tries (place - 1) := rfl

end

/-- The search ends as soon as the step is smaller than the window. -/
theorem exists_shortestFrom (hlow : w.low < value) (hhigh : value < w.high) {tries : Nat}
    (hplace : tries ≤ place) (hwide : w.low + decimalStep (place - tries) < w.high) :
    ∃ digits last : Nat, shortestFrom w value (tries + 1) place =
      ⟨digits, (last : Int) - decimalShift⟩ ∧ w.contains (digits * decimalStep last) = true := by
  induction tries generalizing place with
  | zero =>
    obtain ⟨digits, h⟩ := exists_multiple? (decimalStep_pos place) hlow hhigh hwide
    exact ⟨digits, place, by rw [shortestFrom_succ, h], contains_of_multiple? h⟩
  | succ tries ih =>
    cases h : w.multiple? value (decimalStep place) with
    | some digits =>
      exact ⟨digits, place, by rw [shortestFrom_succ, h],
        contains_of_multiple? h⟩
    | none =>
      rw [shortestFrom_succ, h]
      exact ih (by omega) (by rwa [Nat.sub_sub, Nat.add_comm 1])

/-- The distance between the midpoints around a number is more than what a digit in the seventeenth
place is worth. -/
theorem two_mul_unitsAt_lt (hrank : 0 < rank) :
    2 * unitsAt rank + tenTo 16 * unitsAt (rank - 1) < tenTo 16 * unitsAt (rank + 1) := by
  have hten : tenTo 16 = 10000000000000000 := by decide +kernel
  obtain ⟨shift, k, rfl, hlow, hhigh⟩ := exists_binade rank
  rw [hten, unitsAt_succ hlow hhigh, unitsAt_binade hlow hhigh.le]
  by_cases hstart : shift = 0 ∨ binadeSize < k
  · have hpred : shift * binadeSize + k - 1 = shift * binadeSize + (k - 1) := by
      rcases hstart with rfl | h <;> omega
    have hpos : 0 < k := by
      rcases hstart with rfl | h <;> omega
    obtain ⟨m, rfl⟩ : ∃ m, k = m + 1 := ⟨k - 1, by omega⟩
    rw [hpred, unitsAt_binade (hstart.imp_right (by omega)) (by omega), Nat.add_sub_cancel,
      Nat.succ_mul m]
    rw [binadeSize_eq] at hhigh
    have hbelow : m * 2 ^ shift ≤ 9007199254740990 * 2 ^ shift :=
      Nat.mul_le_mul_right (2 ^ shift) (by omega)
    have := Nat.two_pow_pos shift
    omega
  · -- The steps below the start of a binade are half as wide, but its magnitude is the least one.
    push Not at hstart
    obtain rfl : k = binadeSize := by omega
    have := unitsAt_strictMono.monotone (Nat.sub_le (shift * binadeSize + binadeSize) 1)
    rw [unitsAt_binade hlow hhigh.le] at this
    have := Nat.two_pow_pos shift
    rw [binadeSize_eq] at *
    omega

/-- The shortest decimal of a number is one that the number is nearest to. -/
theorem exists_shortest (hrank : 0 < rank) : ∃ digits last : Nat,
    shortest rank = ⟨digits, (last : Int) - decimalShift⟩ ∧
      Nearest (digits * tenTo last * unitsPerOne) (tenTo decimalShift) rank := by
  have hscale := tenTo_pos decimalShift
  have hprev : unitsAt (rank - 1) < unitsAt rank := unitsAt_strictMono (by omega)
  have hnext : unitsAt rank < unitsAt (rank + 1) := unitsAt_strictMono (by omega)
  unfold shortest
  dsimp only
  generalize hvalue : 2 * unitsAt rank * tenTo decimalShift = value
  -- The leading digit stands high enough for sixteen places further down.
  have hroom : tenTo 16 ≤ value / decimalStep 0 := by
    rw [Nat.le_div_iff_mul_le (decimalStep_pos 0), ← decimalStep_add, decimalStep_eq, ← hvalue,
      Nat.mul_assoc]
    refine Nat.mul_le_mul_left 2 (tenTo_mul_unitsPerOne_le.trans ?_)
    exact Nat.le_mul_of_pos_left _ (Nat.zero_lt_of_lt hprev)
  have hdigits := lt_length_decimalDigits_iff (Nat.lt_of_lt_of_le (tenTo_pos 16) hroom)
  have hplace : 16 ≤ (decimalDigits (value / decimalStep 0)).length - 1 :=
    Nat.le_sub_one_of_lt ((hdigits 16).mpr hroom)
  have hlead : decimalStep ((decimalDigits (value / decimalStep 0)).length - 1) ≤ value := by
    have := (hdigits ((decimalDigits (value / decimalStep 0)).length - 1)).mp (by omega)
    rwa [Nat.le_div_iff_mul_le (decimalStep_pos 0), ← decimalStep_add, Nat.add_zero] at this
  generalize (decimalDigits (value / decimalStep 0)).length - 1 = lead at *
  have hwide : (windowAt rank).low + decimalStep (lead - 16) < (windowAt rank).high := by
    have hgap := Nat.mul_lt_mul_of_pos_right (two_mul_unitsAt_lt hrank) hscale
    rw [Nat.add_mul, hvalue, Nat.mul_assoc, Nat.mul_assoc] at hgap
    rw [← Nat.add_sub_cancel' hplace, decimalStep_add] at hlead
    have : tenTo 16 * (decimalStep (lead - 16) + unitsAt (rank - 1) * tenTo decimalShift) <
        tenTo 16 * (unitsAt (rank + 1) * tenTo decimalShift) := by
      rw [Nat.mul_add]
      omega
    have := Nat.lt_of_mul_lt_mul_left this
    simp only [windowAt, Nat.add_mul]
    omega
  have hvalue' : (windowAt rank).low < value ∧ value < (windowAt rank).high := by
    simp only [windowAt, ← hvalue]
    exact ⟨Nat.mul_lt_mul_of_pos_right (by omega) hscale,
      Nat.mul_lt_mul_of_pos_right (by omega) hscale⟩
  obtain ⟨digits, last, hsearch, hinside⟩ :=
    exists_shortestFrom hvalue'.1 hvalue'.2 hplace hwide
  refine ⟨digits, last, hsearch, contains_windowAt_iff.mp ?_⟩
  rwa [decimalStep_eq, Nat.mul_left_comm, ← Nat.mul_assoc digits] at hinside

/-! ## Reading decimals -/

theorem ofRank_val (negative : Bool) (rank : Fin (infinityRank + 1)) :
    ofRank negative rank.val = .number negative rank := by
  have : min rank.val infinityRank = rank.val := Nat.min_eq_left (Nat.le_of_lt_succ rank.isLt)
  simp only [ofRank, this]

/-- A decimal is read as the number that it is nearest to. -/
theorem ofDecimal_eq {digits : Nat} {exponent : Int} (hdigits : 0 < digits)
    (hexponent : -(decimalShift : Int) ≤ exponent) (hrank : rank < infinityRank)
    (h : Nearest (digits * tenTo (exponent + decimalShift).toNat * unitsPerOne)
      (tenTo decimalShift) rank) (negative : Bool) :
    ofDecimal negative digits exponent = ofRank negative rank := by
  have hshift : decimalShift = 400 := rfl
  have hlength : 0 < (decimalDigits digits).length := Nat.length_toDigits_pos
  -- The decimal is below `10 ^ 309`, which is above all finite numbers.
  have hlead : exponent + (decimalDigits digits).length ≤ decimalShift := by
    by_contra hlarge
    have hdecimal := (lt_length_decimalDigits_iff hdigits _).mp (Nat.sub_one_lt_of_lt hlength)
    have hbelow : unitsAt rank + unitsAt (rank + 1) < 2 * (tenTo 309 * unitsPerOne) := by
      have := unitsAt_strictMono.monotone hrank.le
      have := unitsAt_strictMono.monotone (show rank + 1 ≤ infinityRank from hrank)
      have := unitsAt_infinityRank_lt
      omega
    have hlow : 2 * (tenTo (309 + decimalShift) * unitsPerOne) ≤
        2 * (digits * tenTo (exponent + decimalShift).toNat * unitsPerOne) := by
      refine Nat.mul_le_mul_left 2 (Nat.mul_le_mul_right _ ?_)
      refine Nat.le_trans ?_ (Nat.mul_le_mul_right _ hdecimal)
      rw [← tenTo_add]
      exact tenTo_mono (by omega)
    have hhigh := Nat.lt_of_le_of_lt h.high
      (Nat.mul_lt_mul_of_pos_right hbelow (tenTo_pos decimalShift))
    rw [tenTo_add, Nat.mul_right_comm, ← Nat.mul_assoc 2] at hlow
    exact Nat.not_le_of_lt hhigh hlow
  unfold ofDecimal
  dsimp only
  rw [if_neg (by omega), if_neg (by omega)]
  split
  next hpos =>
    rw [nearest, nearestRank_eq Nat.one_pos ?_ hrank.le]
    refine Nearest.cancel (tenTo_pos decimalShift) ?_
    have hplace : (exponent + decimalShift).toNat = exponent.toNat + decimalShift := by omega
    rw [hplace, tenTo_add, ← Nat.mul_assoc, Nat.mul_right_comm] at h
    rwa [Nat.one_mul]
  next hneg =>
    rw [nearest, nearestRank_eq (tenTo_pos _) ?_ hrank.le]
    refine Nearest.cancel (tenTo_pos (exponent + decimalShift).toNat) ?_
    have hplace : decimalShift = exponent.natAbs + (exponent + decimalShift).toNat := by omega
    rwa [hplace, tenTo_add, ← hplace, Nat.mul_right_comm] at h

end PolicyAuthoring.Binary64
