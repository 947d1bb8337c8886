import PolicyAuthoring.Proofs.Number.Binary64
import PolicyAuthoring.Proofs.Value.Equality

/-!
# Equality of keys

A table compares keys by `Value.same`, under which a number is one key whether it is written as a
truth value, an integer or a float, and a point of time is one key wherever it is told. Among the
values that can be keys this is an equivalence. `same_congr` says so in one equation: equal keys
are equal to the same values.
-/

namespace PolicyAuthoring

namespace Binary64

variable {x y z : Binary64}

/-- Equal numbers have the same value. -/
theorem units?_eq_of_same (h : x.same y = true) : x.units? = y.units? := by
  cases x <;> cases y <;> simp only [same, Bool.false_eq_true] at h
  case nan.nan => rfl
  case number.number n r m s =>
    simp only [Bool.and_eq_true, Bool.or_eq_true, decide_eq_true_eq] at h
    obtain ⟨rfl, rfl | hzero⟩ := h
    · rfl
    · -- The two zeros have different signs and the same magnitude.
      cases n <;> cases m <;> simp [units?, hzero]

/-- Numbers with the same value are equal. -/
theorem same_of_units?_eq {units : Int} (hx : x.units? = some units) (hy : y.units? = some units) :
    x.same y = true := by
  cases x with
  | nan => cases hx
  | number n r =>
    cases y with
    | nan => cases hy
    | number m s =>
      rw [units?, Option.ite_none_right_eq_some, Option.some.injEq] at hx hy
      have hvalue := hx.2.trans hy.2.symm
      have hrank {a b : Fin (infinityRank + 1)} (h : unitsAt a.val = unitsAt b.val) : a = b :=
        Fin.ext (unitsAt_strictMono.injective h)
      have hzero {a : Fin (infinityRank + 1)} (h : unitsAt a.val = unitsAt 0) : a.val = 0 :=
        unitsAt_strictMono.injective h
      -- Values of different signs are the same only if both are zero.
      cases n <;> cases m <;> simp only [Bool.false_eq_true, if_false, if_true] at hvalue
      case false.false => simp [same, hrank (by omega : unitsAt s.val = unitsAt r.val)]
      case true.true => simp [same, hrank (by omega : unitsAt s.val = unitsAt r.val)]
      all_goals
        have hr := hzero (by rw [unitsAt_zero]; omega : unitsAt r.val = unitsAt 0)
        have hs := hzero (by rw [unitsAt_zero]; omega : unitsAt s.val = unitsAt 0)
        simp [same, hr, Fin.ext_iff, hs]

/-- Equal numbers are equal to the same numbers. -/
theorem same_congr (h : x.same y = true) (z : Binary64) : x.same z = y.same z := by
  cases x <;> cases y <;> simp only [same, Bool.false_eq_true] at h
  case nan.nan => rfl
  case number.number n r m s =>
    cases z with
    | nan => rfl
    | number l t =>
      simp only [Bool.and_eq_true, Bool.or_eq_true, decide_eq_true_eq] at h
      obtain ⟨rfl, rfl | hzero⟩ := h
      · rfl
      · simp [same, hzero]

/-- Equal numbers are the same integer, if they are integers. -/
theorem toInt?_eq_of_same (h : x.same y = true) : x.toInt? = y.toInt? := by
  rw [toInt?, toInt?, units?_eq_of_same h]

/-- A number that is an integer is equal to those that are the same integer. -/
theorem same_iff_of_toInt? {n : Int} (hx : x.toInt? = some n) :
    x.same y = true ↔ y.toInt? = some n := by
  refine ⟨fun h => (toInt?_eq_of_same h).symm.trans hx, fun hy => ?_⟩
  have hunits {z : Binary64} (hz : z.toInt? = some n) : z.units? = some (n * unitsPerOne) := by
    rw [toInt?] at hz
    split at hz
    next units heq =>
      rw [Option.ite_none_right_eq_some, Option.some.injEq] at hz
      rw [heq, ← hz.2, Int.ediv_mul_cancel (Int.dvd_of_emod_eq_zero hz.1)]
    next => cases hz
  exact same_of_units?_eq (hunits hx) (hunits hy)

end Binary64

/-- Equal points of time are equal to the same points of time. -/
theorem DateTime.same_congr {t u : DateTime} (h : t.same u = true) (w : DateTime) :
    t.same w = u.same w := by
  cases ht : t.offset <;> cases hu : u.offset <;>
    simp only [same, ht, hu, decide_eq_true_eq, Bool.false_eq_true] at h
  case none.none => simp only [same, ht, hu, h]
  case some.some p q => cases hw : w.offset <;> simp only [same, ht, hu, hw, h]

namespace Value

variable {u v w : Value}

/-- What stands for an integer is the same as what stands for that integer. -/
theorem same_iff_of_asInt? {n : Int} (hv : v.asInt? = some n) :
    v.same w = true ↔ w.asInt? = some n := by
  cases v with
  | bool b =>
    rw [asInt?, Option.some.injEq] at hv
    rw [same, decide_eq_true_eq, hv]
  | int m =>
    rw [asInt?, Option.some.injEq] at hv
    rw [same, decide_eq_true_eq, hv]
  | float x =>
    rw [asInt?] at hv
    cases w with
    | float y =>
      rw [same, Binary64.same_iff_of_toInt? hv]
      rfl
    | _ => simp [same, hv, eq_comm]
  | _ => cases hv

mutual

/-- A key and a value equal to it are equal to the same values. -/
theorem same_congr : ∀ (v : Value) {w : Value}, w.hashable = true → v.same w = true →
    ∀ u, v.same u = w.same u
  | .null, w, _, h, u => by
    cases w <;> simp_all [same, kind]
  | .bool b, w, _, h, u => by
    rw [same, decide_eq_true_eq] at h
    rw [Bool.eq_iff_iff, same_iff_of_asInt? h, same_iff_of_asInt? rfl]
  | .int n, w, _, h, u => by
    rw [same, decide_eq_true_eq] at h
    rw [Bool.eq_iff_iff, same_iff_of_asInt? h, same_iff_of_asInt? rfl]
  | .float x, w, _, h, u => by
    cases hx : x.toInt? with
    | some n =>
      have hv : (float x).asInt? = some n := hx
      rw [Bool.eq_iff_iff, same_iff_of_asInt? hv,
        same_iff_of_asInt? ((same_iff_of_asInt? hv).mp h)]
    | none =>
      -- A float that is no integer is equal to floats only.
      cases w with
      | float y =>
        rw [same] at h
        have hy := (Binary64.toInt?_eq_of_same h).symm.trans hx
        cases u <;> simp [same, hx, hy, Binary64.same_congr h]
      | _ => simp [same, hx] at h
  | .text s, w, _, h, u => by
    rw [(same_iff_of_isText rfl).mp h]
  | .unpaired codes, w, _, h, u => by
    rw [(same_iff_of_isText rfl).mp h]
  | .list _, w, hw, h, u => by
    cases w <;> simp_all [same, hashable, unhashablePart?]
  | .tuple items, w, hw, h, u => by
    cases w with
    | tuple ws =>
      rw [same] at h
      cases u with
      | tuple us =>
        rw [same, same]
        refine sameItems_congr items ?_ h us
        simpa [hashable, unhashablePart?] using hw
      | _ => simp [same]
    | _ => simp [same] at h
  | .mapping _, w, hw, h, u => by
    cases w <;> simp_all [same, hashable, unhashablePart?]
  | .set _, w, hw, h, u => by
    cases w <;> simp_all [same, hashable, unhashablePart?]
  | .date d, w, _, h, u => by
    cases w with
    | date e =>
      rw [same, decide_eq_true_eq] at h
      rw [h]
    | _ => simp [same] at h
  | .datetime t, w, _, h, u => by
    cases w with
    | datetime t' =>
      rw [same] at h
      cases u with
      | datetime t'' => exact DateTime.same_congr h t''
      | _ => simp [same]
    | _ => simp [same] at h
termination_by structural v => v

/-- Items that can be keys and items equal to them are equal to the same items. -/
theorem sameItems_congr : ∀ (vs : List Value) {ws : List Value}, firstUnhashable? ws = none →
    sameItems vs ws = true → ∀ us, sameItems vs us = sameItems ws us
  | [], ws, _, h, us => by
    cases ws with
    | nil => rfl
    | cons w ws => simp [sameItems] at h
  | v :: vs, ws, hws, h, us => by
    cases ws with
    | nil => simp [sameItems] at h
    | cons w ws =>
      rw [sameItems, Bool.and_eq_true] at h
      rw [firstUnhashable?] at hws
      split at hws
      next => cases hws
      next hw =>
        cases us with
        | nil => rfl
        | cons u us =>
          rw [sameItems, sameItems, same_congr v (by rw [hashable, hw]; rfl) h.1 u,
            sameItems_congr vs hws h.2 us]
termination_by structural vs => vs

end

/-- A value that is equal to a key is what the key is equal to. -/
theorem same_symm (hw : w.hashable = true) (h : v.same w = true) : w.same v = true := by
  rw [← same_congr v hw h v, same_self]

end Value

end PolicyAuthoring
