/-!
# Blank characters

White space in the sense of Unicode together with the four information separators, and the text
that is left when it is taken off both ends.
-/

namespace PolicyAuthoring.Text

/-- Whether a code point lies in one of the given inclusive ranges. -/
def inRanges (ranges : List (Nat × Nat)) (code : Nat) : Bool :=
  ranges.any fun r => r.1 ≤ code && code ≤ r.2

/-- The ranges of blank code points. -/
def blankRanges : List (Nat × Nat) :=
  [(0x9, 0xD), (0x1C, 0x20), (0x85, 0x85), (0xA0, 0xA0), (0x1680, 0x1680), (0x2000, 0x200A),
   (0x2028, 0x2029), (0x202F, 0x202F), (0x205F, 0x205F), (0x3000, 0x3000)]

/-- Whether a character is blank. -/
def isBlank (c : Char) : Bool := inRanges blankRanges c.toNat

/-- The elements between the blank ones at both ends. -/
def trimBlank {α : Type} (blank : α → Bool) (items : List α) : List α :=
  ((items.dropWhile blank).reverse.dropWhile blank).reverse

/-- The text without blanks at its ends. -/
def strip (s : String) : String := String.ofList (trimBlank isBlank s.toList)

/-- What has no blank at either end is left as it is. -/
theorem trimBlank_eq_self {α : Type} {blank : α → Bool} {items : List α}
    (first : ∀ a ∈ items.head?, blank a = false)
    (last : ∀ a ∈ items.getLast?, blank a = false) : trimBlank blank items = items := by
  have drop {l : List α} (h : ∀ a ∈ l.head?, blank a = false) : l.dropWhile blank = l := by
    cases l with
    | nil => rfl
    | cons a l => simp [h a (by simp)]
  rw [trimBlank, drop first, drop (by simpa using last), List.reverse_reverse]

end PolicyAuthoring.Text
