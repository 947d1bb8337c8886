import PolicyAuthoring.Proofs.Value.Equality
import Mathlib.Data.List.Basic

/-!
# Stripping texts

Names and descriptions lose the blanks at their ends when a selection is compiled. Stripping a text
succeeds, `Value.stripped` says to what, and stripping what is stripped changes nothing.
-/

namespace PolicyAuthoring

/-! ## Trimming lists -/

namespace Text

variable {α : Type} (blank : α → Bool) (items : List α)

/-- Trimming leaves an initial segment of what is left when the front is trimmed. -/
theorem trimBlank_prefix_dropWhile : trimBlank blank items <+: items.dropWhile blank := by
  -- Trimming the end is trimming the front of the reversed list.
  have hsuffix := (items.dropWhile blank).reverse.dropWhile_suffix blank
  rw [trimBlank, ← List.reverse_suffix, List.reverse_reverse]
  exact hsuffix

/-- A trimmed list does not start with a blank. -/
theorem head?_trimBlank : ∀ a ∈ (trimBlank blank items).head?, blank a = false := by
  intro a ha
  obtain ⟨tail, htail⟩ := List.head?_eq_some_iff.mp ha
  obtain ⟨rest, hrest⟩ := trimBlank_prefix_dropWhile blank items
  have hhead := List.head?_dropWhile_not blank items
  rw [← hrest, htail] at hhead
  simpa using hhead

/-- A trimmed list does not end with a blank. -/
theorem getLast?_trimBlank : ∀ a ∈ (trimBlank blank items).getLast?, blank a = false := by
  intro a ha
  rw [trimBlank, List.getLast?_reverse] at ha
  have hlast := List.head?_dropWhile_not blank (items.dropWhile blank).reverse
  rw [Option.mem_def.mp ha] at hlast
  simpa using hlast

/-- Trimming a trimmed list changes nothing. -/
@[simp]
theorem trimBlank_trimBlank : trimBlank blank (trimBlank blank items) = trimBlank blank items :=
  trimBlank_eq_self (head?_trimBlank blank items) (getLast?_trimBlank blank items)

/-- Trimming commutes with a map that keeps blanks apart from the rest. -/
theorem trimBlank_map {β : Type} {blank : α → Bool} {blank' : β → Bool} {f : α → β}
    {items : List α} (h : ∀ a ∈ items, blank' (f a) = blank a)
    (htrim : trimBlank blank items = items) :
    trimBlank blank' (items.map f) = items.map f := by
  apply trimBlank_eq_self
  · intro b hb
    rw [List.head?_map] at hb
    obtain ⟨a, ha, rfl⟩ := Option.map_eq_some_iff.mp hb
    rw [h a (List.mem_of_mem_head? ha)]
    rw [← htrim] at ha
    exact head?_trimBlank blank items a ha
  · intro b hb
    rw [List.getLast?_map] at hb
    obtain ⟨a, ha, rfl⟩ := Option.map_eq_some_iff.mp hb
    rw [h a (List.mem_of_mem_getLast? ha)]
    rw [← htrim] at ha
    exact getLast?_trimBlank blank items a ha

end Text

namespace Value

variable {v : Value}

/-! ## Stripping values -/

/-- A text without blanks at its ends; any other value as it is. -/
def stripped : Value → Value
  | .text s => .text (Text.strip s)
  | .unpaired codes => ofCodes (Text.trimBlank blankCode codes)
  | v => v

/-- Stripping a text succeeds. -/
theorem strip_of_isText (hv : v.isText = true) : v.strip = .ok v.stripped := by
  rcases isText_iff.mp hv with ⟨s, rfl⟩ | ⟨codes, rfl⟩ <;> rfl

/-- Only texts can be stripped. -/
theorem isText_of_strip {w : Value} (h : v.strip = .ok w) : v.isText = true := by
  cases v with
  | text s => rfl
  | unpaired codes => rfl
  | _ => cases h

/-- A stripped text is a text. -/
theorem isText_stripped (hv : v.isText = true) : v.stripped.isText = true := by
  rcases isText_iff.mp hv with ⟨s, rfl⟩ | ⟨codes, rfl⟩
  · rfl
  · exact isText_ofCodes _

/-- A valid code point is blank when its character is. -/
theorem isBlank_ofNat {code : Nat} (h : code.isValidChar) :
    Text.isBlank (Char.ofNat code) = blankCode code := by
  have hcode : (Char.ofNat code).toNat = code := by
    rw [Char.ofNat, dif_pos h]
    rfl
  rw [Text.isBlank, blankCode, hcode]

/-- Code points without blanks at their ends make a text without blanks at its ends. -/
theorem stripped_ofCodes {codes : List Nat} (h : Text.trimBlank blankCode codes = codes) :
    (ofCodes codes).stripped = ofCodes codes := by
  -- Code points without surrogates become characters, and others stay code points.
  by_cases hvalid : codes.all Nat.isValidChar = true
  · have hchars : ∀ code ∈ codes, Text.isBlank (Char.ofNat code) = blankCode code := by
      intro code hcode
      exact isBlank_ofNat (by simpa using List.all_eq_true.mp hvalid code hcode)
    rw [ofCodes, if_pos hvalid, stripped, Text.strip, String.toList_ofList,
      Text.trimBlank_map hchars h]
  · rw [ofCodes, if_neg hvalid, stripped, h, ofCodes, if_neg hvalid]

/-- A stripped text that counts as missing is the empty text. -/
theorem orElse_stripped (hv : v.isText = true) : v.stripped.orElse (.text "") = v.stripped := by
  rw [orElse]
  split
  · rfl
  next hfalsy =>
    rcases isText_iff.mp hv with ⟨s, rfl⟩ | ⟨codes, rfl⟩
    · simpa [stripped] using hfalsy
    · rw [stripped, ofCodes] at hfalsy ⊢
      split at hfalsy
      next hvalid =>
        rw [if_pos hvalid]
        simpa using hfalsy
      next hvalid =>
        -- Without code points there would be no surrogate among them.
        have hnil : Text.trimBlank blankCode codes = [] := by simpa [truthy] using hfalsy
        rw [hnil] at hvalid
        exact absurd rfl hvalid

/-- Stripping a second time changes nothing. -/
@[simp]
theorem stripped_stripped (v : Value) : v.stripped.stripped = v.stripped := by
  cases v with
  | text s => simp [stripped, Text.strip]
  | unpaired codes => exact stripped_ofCodes (Text.trimBlank_trimBlank blankCode codes)
  | _ => rfl

/-- Stripping a value of any kind a second time succeeds or fails as the first time did. -/
theorem strip_stripped (v : Value) : v.stripped.strip = v.strip := by
  cases htext : v.isText with
  | true => rw [strip_of_isText htext, strip_of_isText (isText_stripped htext), stripped_stripped]
  | false =>
    -- What is no text is left as it is.
    cases v with
    | text s => cases htext
    | unpaired codes => cases htext
    | _ => rfl

/-- A fallback for missing values has its effect before stripping. -/
@[simp]
theorem orElse_stripped_orElse (v : Value) :
    (v.orElse (.text "")).stripped.orElse (.text "") = (v.orElse (.text "")).stripped := by
  cases htext : (v.orElse (.text "")).isText with
  | true => exact orElse_stripped htext
  | false =>
    have htruthy : v.truthy = true := by
      by_contra hfalsy
      rw [orElse, if_neg hfalsy] at htext
      cases htext
    have hkept : v.orElse (.text "") = v := if_pos htruthy
    rw [hkept] at htext ⊢
    cases v with
    | text s => cases htext
    | unpaired codes => cases htext
    | _ => exact if_pos htruthy

end Value

end PolicyAuthoring
