import PolicyAuthoring.Sentence
import PolicyAuthoring.Proofs.Value.Reading

/-!
# Cutting summaries

A summary that is too long is cut, and dots take the place of what is left out. The dots are part of
the length that is asked for, down to a length of three, below which there are only dots. What is
kept is `Registry.kept`; this file says how long it is, that it is a beginning of the summary, and
that more is kept where more is asked for.

A summary is never mistaken for one that was cut (`cutTo_eq_self_iff`): that could only happen to
the text of three dots, and every summary begins with the same two words
(`exists_eq_append_of_summary`).
-/

namespace PolicyAuthoring.Registry

variable {r : Registry} {d : Document} {maxLength longer : Int} {text short : CodePoints}

/-! ## What is kept -/

/-- What a text that is too long keeps in front of the dots. -/
def kept (maxLength : Int) (text : CodePoints) : CodePoints :=
  text.take (maxLength - ellipsis.length).toNat

/-- The dots take three places. -/
theorem length_ellipsis : (ellipsis.length : Int) = 3 := rfl

/-- What is kept is a beginning of the text. -/
theorem kept_prefix (maxLength : Int) (text : CodePoints) : kept maxLength text <+: text :=
  List.take_prefix _ _

/-- A greater length keeps at least as much. -/
theorem kept_prefix_of_le (h : maxLength ≤ longer) (text : CodePoints) :
    kept maxLength text <+: kept longer text := by
  apply List.take_prefix_take_left
  exact Int.toNat_le_toNat (Int.sub_le_sub_right h _)

/-- A text that is too long keeps as much as the dots leave room for. -/
theorem length_kept (h : maxLength < text.length) :
    ((kept maxLength text).length : Int) = max (maxLength - 3) 0 := by
  have hroom : (maxLength - 3).toNat ≤ text.length := by omega
  rw [kept, length_ellipsis, List.length_take_of_le hroom]
  omega

/-! ## Cutting -/

/-- A text that is not too long is not cut. -/
theorem cutTo_of_le (h : (text.length : Int) ≤ maxLength) : cutTo maxLength text = text :=
  if_pos h

/-- A text that is too long is cut to what is kept and the dots. -/
theorem cutTo_of_lt (h : maxLength < text.length) :
    cutTo maxLength text = kept maxLength text ++ ellipsis :=
  if_neg (Int.not_le.mpr h)

/-- A text that is cut has the length asked for, or that of the dots. -/
theorem length_cutTo_of_lt (h : maxLength < text.length) :
    ((cutTo maxLength text).length : Int) = max maxLength 3 := by
  rw [cutTo_of_lt h, List.length_append, Text.length_codes, Int.natCast_add, length_kept h,
    length_ellipsis]
  omega

/-- A text that is cut to a length with room for the dots is not longer. -/
theorem length_cutTo_le (h : 3 ≤ maxLength) (text : CodePoints) :
    ((cutTo maxLength text).length : Int) ≤ maxLength := by
  by_cases hlong : maxLength < text.length
  · have hlength := length_cutTo_of_lt hlong
    rw [Int.max_eq_left h] at hlength
    exact Int.le_of_eq hlength
  · have hfits := Int.not_lt.mp hlong
    rw [cutTo_of_le hfits]
    exact hfits

/-- A text that is longer than the dots changes exactly if it is cut. -/
theorem cutTo_eq_self_iff (h : 3 < text.length) :
    cutTo maxLength text = text ↔ (text.length : Int) ≤ maxLength := by
  refine ⟨fun hself => Int.not_lt.mp fun hlong => ?_, cutTo_of_le⟩
  -- A cut text has the length asked for or that of the dots, and this one has neither.
  have hlength := length_cutTo_of_lt hlong
  rw [hself] at hlength
  omega

/-! ## Summaries -/

/-- Every summary begins with the same words. -/
theorem exists_eq_append_of_summary (h : r.summary d = .ok text) :
    ∃ rest : CodePoints, text = "This policy " ++ rest := by
  rw [summary] at h
  split at h
  · obtain ⟨subjects, -, h⟩ := exists_of_bind_eq_ok h
    obtain ⟨actions, -, h⟩ := exists_of_bind_eq_ok h
    obtain ⟨resources, -, h⟩ := exists_of_bind_eq_ok h
    obtain ⟨attachments, -, h⟩ := exists_of_bind_eq_ok h
    cases h
    simp only [List.append_assoc]
    exact ⟨_, rfl⟩
  · obtain ⟨phrases, -, h⟩ := exists_of_bind_eq_ok h
    obtain ⟨attachments, -, h⟩ := exists_of_bind_eq_ok h
    cases h
    simp only [List.append_assoc]
    exact ⟨_, rfl⟩

/-- A summary is longer than the dots. -/
theorem three_lt_length_of_summary (h : r.summary d = .ok text) : 3 < text.length := by
  obtain ⟨rest, rfl⟩ := exists_eq_append_of_summary h
  have hwords : "This policy ".length = 12 := rfl
  rw [List.length_append, Text.length_codes, hwords]
  omega

/-- A short summary is the summary, cut. -/
theorem shortSummary_eq_ok_iff :
    r.shortSummary maxLength d = .ok short ↔
      ∃ text, r.summary d = .ok text ∧ short = cutTo maxLength text := by
  rw [shortSummary]
  constructor
  · intro h
    obtain ⟨text, htext, hshort⟩ := exists_of_bind_eq_ok h
    exact ⟨text, htext, (Except.ok.inj hshort).symm⟩
  · rintro ⟨text, htext, rfl⟩
    rw [htext]
    rfl

/-- Whatever length is asked for, a document with a summary has a short summary. It is the summary
exactly if the summary is not too long. Otherwise it is a beginning of the summary with dots after
it, which together have the length asked for, or three dots if that is less than three; and a
greater length for which the summary is still too long keeps at least that beginning. -/
theorem shortSummary_spec (h : r.summary d = .ok text) (maxLength : Int) :
    ∃ short, r.shortSummary maxLength d = .ok short ∧
      (short = text ↔ (text.length : Int) ≤ maxLength) ∧
      (maxLength < text.length →
        (short.length : Int) = max maxLength 3 ∧
        ∃ start : CodePoints, short = start ++ "..." ∧
          start <+: text ∧
          (start.length : Int) = max (maxLength - 3) 0 ∧ start.length < text.length ∧
          ∀ longer : Int, maxLength ≤ longer → longer < text.length →
            ∃ more : CodePoints, r.shortSummary longer d = .ok (more ++ "...") ∧
              start <+: more) := by
  have hlength := three_lt_length_of_summary h
  have hshort (m : Int) : r.shortSummary m d = .ok (cutTo m text) :=
    shortSummary_eq_ok_iff.mpr ⟨text, h, rfl⟩
  refine ⟨cutTo maxLength text, hshort maxLength, cutTo_eq_self_iff hlength, fun hlong => ?_⟩
  have hkept := length_kept hlong
  refine ⟨length_cutTo_of_lt hlong, kept maxLength text, cutTo_of_lt hlong,
    kept_prefix maxLength text, hkept, by omega, fun longer hle hcut => ?_⟩
  refine ⟨kept longer text, ?_, kept_prefix_of_le hle text⟩
  rw [hshort, cutTo_of_lt hcut]
  rfl

/-- A document without rules that says of which action it speaks. -/
def bookingDocument : Document :=
  { name := .text "Bookings", effect := .deny, actions := [.text "Book"] }

/-- The summary of the document. -/
def bookingSummary : String :=
  "This policy DENIES All users to perform book actions on any resource."

/-- Of a summary of 69 characters, a negative length leaves no more than the dots, and a length of
22 leaves 19 characters in front of them. -/
theorem shortSummary_spec_bookingDocument :
    summary {} bookingDocument = .ok bookingSummary ∧
      shortSummary {} (-1) bookingDocument = .ok "..." ∧
      shortSummary {} 22 bookingDocument = .ok "This policy DENIES ..." := by
  have htext : summary {} bookingDocument = .ok bookingSummary := rfl
  have hcut (maxLength : Int) (hlong : maxLength < 69) :
      ∃ start : CodePoints, shortSummary {} maxLength bookingDocument = .ok (start ++ "...") ∧
        start = (Text.codes bookingSummary).take (maxLength - 3).toNat := by
    obtain ⟨short, hshort, -, hcut⟩ := shortSummary_spec htext maxLength
    obtain ⟨-, start, rfl, hprefix, hlength, -⟩ := hcut hlong
    refine ⟨start, hshort, ?_⟩
    rw [List.prefix_iff_eq_take.mp hprefix]
    congr 1
    omega
  refine ⟨htext, ?_, ?_⟩
  · obtain ⟨start, hshort, hstart⟩ := hcut (-1) (by decide)
    rw [hshort, hstart]
    rfl
  · obtain ⟨start, hshort, hstart⟩ := hcut 22 (by decide)
    rw [hshort, hstart]
    rfl

end PolicyAuthoring.Registry
