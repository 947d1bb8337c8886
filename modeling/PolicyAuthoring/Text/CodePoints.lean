/-!
# Code points

A text is a sequence of code points. Most texts are `String`s, but an escape in a file can write a
lone surrogate, which no `String` holds and which goes wherever its text goes: into labels, phrases
and sentences. So what is put together out of texts of files is a list of code points, and a
`String` counts as the list of its own.
-/

namespace PolicyAuthoring

/-- The code points of a text, among which there may be surrogates. -/
abbrev CodePoints := List Nat

namespace Text

/-- The code points of a string. -/
def codes (s : String) : CodePoints := s.toList.map Char.toNat

/-- A string counts as its code points. -/
instance : Coe String CodePoints := ⟨codes⟩

@[simp] theorem codes_empty : codes "" = [] := rfl

@[simp] theorem codes_append (s t : String) : codes (s ++ t) = codes s ++ codes t := by
  rw [codes, String.toList_append, List.map_append, codes, codes]

@[simp] theorem length_codes (s : String) : (codes s).length = s.length := by
  rw [codes, List.length_map, String.length_toList]

@[simp] theorem codes_eq_nil_iff (s : String) : codes s = [] ↔ s = "" := by
  rw [← List.length_eq_zero_iff, length_codes, String.length_eq_zero_iff]

/-- Texts one after the other with a separator between them. -/
def joinCodes (separator : String) (texts : List CodePoints) : CodePoints :=
  (codes separator).intercalate texts

variable {separator : String} {xs ys : List CodePoints}

@[simp] theorem joinCodes_nil (separator : String) : joinCodes separator [] = [] := rfl

@[simp] theorem joinCodes_singleton (separator : String) (text : CodePoints) :
    joinCodes separator [text] = text := List.intercalate_singleton

@[simp] theorem joinCodes_cons_cons (separator : String) (a b : CodePoints)
    (rest : List CodePoints) :
    joinCodes separator (a :: b :: rest) =
      a ++ codes separator ++ joinCodes separator (b :: rest) := List.intercalate_cons_cons

theorem joinCodes_cons (a : CodePoints) (hys : ys ≠ []) :
    joinCodes separator (a :: ys) = a ++ codes separator ++ joinCodes separator ys :=
  List.intercalate_cons_of_ne_nil hys

/-- Texts are joined to further texts with a separator between them. -/
theorem joinCodes_append (hxs : xs ≠ []) (hys : ys ≠ []) :
    joinCodes separator (xs ++ ys) =
      joinCodes separator xs ++ codes separator ++ joinCodes separator ys := by
  induction xs with
  | nil => exact absurd rfl hxs
  | cons a xs ih =>
    cases xs with
    | nil => rw [List.singleton_append, joinCodes_cons a hys, joinCodes_singleton]
    | cons b xs =>
      rw [List.cons_append, List.cons_append, joinCodes_cons_cons, ← List.cons_append,
        ih (List.cons_ne_nil _ _), joinCodes_cons_cons]
      simp only [List.append_assoc]

/-- Texts as lines, each of them ended. -/
def lines (texts : List CodePoints) : CodePoints := texts.flatMap fun text => text ++ codes "\n"

@[simp] theorem lines_nil : lines [] = [] := rfl

@[simp] theorem lines_cons (text : CodePoints) (texts : List CodePoints) :
    lines (text :: texts) = text ++ codes "\n" ++ lines texts := by
  rw [lines, List.flatMap_cons, lines]

end Text

end PolicyAuthoring
