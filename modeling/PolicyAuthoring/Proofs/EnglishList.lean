import PolicyAuthoring.Proofs.Sentence
import Mathlib.Data.List.Infix

/-!
# Reading English lists

An English list is written in four forms, for no word, one, two and more. The form can be told from
the text, and the words can be read back (`wordsOf_joinList`), if no word is empty and no word holds
a comma or an "and" (`Separable`). So lists of different words are different texts (`joinList_inj`).

A text is cut at its commas first. Only a list of three or more words has commas, and the "and" of
such a list stands right after the last one. Where there is no comma, an "and" between spaces is the
one between two words, since it cannot begin in the first of them (`not_and_before_end`).
-/

namespace PolicyAuthoring

namespace Sentence

open Text (codes joinCodes joinCodes_singleton joinCodes_cons_cons joinCodes_append)

/-- The code point of a comma. -/
def comma : Nat := ','.toNat

/-- A word that cannot be taken for a part of the list that it stands in. -/
structure Separable (word : CodePoints) : Prop where
  /-- The word is not empty. -/
  ne_nil : word ≠ []
  /-- There is no comma in the word. -/
  no_comma : comma ∉ word
  /-- There is no "and" in the word. -/
  no_and : ¬ codes "and" <:+: word

/-! ## The "and" between two words -/

/-- What stands before the first "and" between spaces, and what stands after it. -/
def cutAtAnd? : CodePoints → Option (CodePoints × CodePoints)
  | [] => none
  | c :: rest =>
    if codes " and " <+: c :: rest then some ([], rest.drop 4)
    else (cutAtAnd? rest).map fun cut => (c :: cut.1, cut.2)

variable {word rest : CodePoints}

theorem and_infix_spaced : codes "and" <:+: codes " and " := by decide

/-- If a later part of the spaced "and" begins with a space, then the part before it holds the whole
"and". -/
theorem and_infix_take_spaced : ∀ k ≤ (codes " and ").length, k ≠ 0 →
    ((codes " and ").drop k).head?.all (· = ' '.toNat) = true →
    codes "and" <:+: (codes " and ").take k := by decide

/-- The "and" after a word without "and" does not begin in the word. -/
theorem not_and_before_end (hne : word ≠ []) (h : ¬ codes "and" <:+: word) :
    ¬ codes " and " <+: word ++ (codes " and " ++ rest) := by
  intro hprefix
  rcases List.prefix_or_prefix_of_prefix hprefix (List.prefix_append word _) with hin | hout
  · exact h (and_infix_spaced.trans hin.isInfix)
  · -- What is left of the earlier "and" after the word begins with a space, as the later one does.
    obtain ⟨tail, htail⟩ := hout
    have hrest : tail <+: codes " and " ++ rest := by
      refine (List.prefix_append_right_inj word).mp ?_
      rwa [htail]
    have hspace : tail.head?.all (· = ' '.toNat) = true := by
      cases tail with
      | nil => rfl
      | cons c tail =>
        rw [(List.cons_prefix_cons.mp hrest).1]
        rfl
    have hlength : word.length ≤ (codes " and ").length := by
      rw [← htail, List.length_append]
      exact Nat.le_add_right _ _
    have hand := and_infix_take_spaced word.length hlength (mt List.length_eq_zero_iff.mp hne)
    rw [← htail, List.drop_left, List.take_left] at hand
    exact h (hand hspace)

/-- Nothing is cut where there is no "and". -/
theorem cutAtAnd?_eq_none (h : ¬ codes "and" <:+: word) : cutAtAnd? word = none := by
  induction word with
  | nil => rfl
  | cons c word ih =>
    rw [cutAtAnd?, if_neg (fun hand => h (and_infix_spaced.trans hand.isInfix)),
      ih (fun hand => h (List.infix_cons hand))]
    rfl

/-- The text is cut at the "and" after a word without "and". -/
theorem cutAtAnd?_append (h : ¬ codes "and" <:+: word) :
    cutAtAnd? (word ++ (codes " and " ++ rest)) = some (word, rest) := by
  -- The word is passed code point by code point, and what is left of it is without "and" too.
  induction word with
  | nil => rfl
  | cons c word ih =>
    rw [List.cons_append, cutAtAnd?, ← List.cons_append,
      if_neg (not_and_before_end (List.cons_ne_nil c word) h),
      ih (fun hand => h (List.infix_cons hand))]
    rfl

/-! ## The forms of a list -/

/-- The four forms in which words are listed. -/
inductive Form : List CodePoints → Prop
  | none : Form []
  | one (a : CodePoints) : Form [a]
  | two (a b : CodePoints) : Form [a, b]
  | more (first : CodePoints) {middle : List CodePoints} (last : CodePoints)
      (hmiddle : middle ≠ []) :
      Form (first :: (middle ++ [last]))

variable {first last : CodePoints} {middle words xs ys : List CodePoints}

theorem form (words : List CodePoints) : Form words := by
  match words with
  | [] => exact .none
  | [a] => exact .one a
  | [a, b] => exact .two a b
  | a :: b :: c :: words =>
    have hne : b :: c :: words ≠ [] := List.cons_ne_nil _ _
    rw [← List.dropLast_append_getLast hne]
    exact .more a _ (List.cons_ne_nil _ _)

theorem joinList_more (hmiddle : middle ≠ []) :
    joinList (first :: (middle ++ [last])) =
      joinCodes ", " (first :: middle) ++ codes ", and " ++ last := by
  rw [joinList]
  · rw [← List.cons_append, List.dropLast_concat, List.getLastD_concat]
  · simp
  · simp
  · simp [List.append_eq_singleton_iff, hmiddle]

/-! ## The parts between commas -/

/-- The parts of an English list between its commas. -/
def parts : List CodePoints → List CodePoints
  | [] => [[]]
  | [a] => [a]
  | [a, b] => [a ++ codes " and " ++ b]
  | a :: words => a :: words.dropLast.map (codes " " ++ ·) ++ [codes " and " ++ words.getLastD []]

/-- The words of an English list with these parts. -/
def wordsOfParts : List CodePoints → List CodePoints
  | [] => []
  | [part] =>
    if part = [] then []
    else ((cutAtAnd? part).map fun cut => [cut.1, cut.2]).getD [part]
  | part :: parts =>
    part :: parts.dropLast.map (List.drop (codes " ").length) ++
      [(parts.getLastD []).drop (codes " and ").length]

/-- The words of an English list. Only proofs read lists: to tell what a text was made of. -/
def wordsOf (text : CodePoints) : List CodePoints := wordsOfParts (text.splitOn comma)

theorem parts_more (hmiddle : middle ≠ []) :
    parts (first :: (middle ++ [last])) =
      first :: middle.map (codes " " ++ ·) ++ [codes " and " ++ last] := by
  rw [parts]
  · rw [List.dropLast_concat, List.getLastD_concat]
  · simp
  · simp [List.append_eq_singleton_iff, hmiddle]

theorem wordsOfParts_more (first last : CodePoints) (middle : List CodePoints) :
    wordsOfParts (first :: (middle ++ [last])) =
      first :: middle.map (List.drop (codes " ").length) ++
        [last.drop (codes " and ").length] := by
  rw [wordsOfParts]
  · rw [List.dropLast_concat, List.getLastD_concat]
  · simp

theorem joinCodes_comma_space (first : CodePoints) (words : List CodePoints) :
    joinCodes ", " (first :: words) = joinCodes "," (first :: words.map (codes " " ++ ·)) := by
  induction words generalizing first with
  | nil => rfl
  | cons b words ih =>
    -- The space after the comma is the first code point of the next part.
    have hb : joinCodes "," ((codes " " ++ b) :: words.map (codes " " ++ ·)) =
        codes " " ++ joinCodes "," (b :: words.map (codes " " ++ ·)) :=
      List.intercalate_cons_cons_left
    have hspace : codes ", " = codes "," ++ codes " " := rfl
    rw [joinCodes_cons_cons, ih, List.map_cons, joinCodes_cons_cons, hb, hspace]
    simp only [List.append_assoc]

/-- An English list is its parts with commas between them. -/
theorem joinList_eq_joinCodes_parts (words : List CodePoints) :
    joinList words = joinCodes "," (parts words) := by
  cases form words with
  | none => exact (joinCodes_singleton ..).symm
  | one a => exact (joinCodes_singleton ..).symm
  | two a b => exact (joinCodes_singleton ..).symm
  | @more first middle last hmiddle =>
    have hand : codes ", and " = codes "," ++ codes " and " := rfl
    rw [joinList_more hmiddle, parts_more hmiddle, joinCodes_comma_space, hand,
      joinCodes_append (List.cons_ne_nil _ _) (List.cons_ne_nil _ _), joinCodes_singleton]
    simp only [List.append_assoc]

theorem parts_ne_nil (words : List CodePoints) : parts words ≠ [] := by
  cases form words with
  | more first last hmiddle =>
    rw [parts_more hmiddle]
    exact List.cons_ne_nil _ _
  | _ => exact List.cons_ne_nil _ _

theorem comma_notMem_append {a b : CodePoints} (ha : comma ∉ a) (hb : comma ∉ b) :
    comma ∉ a ++ b := by
  rw [List.mem_append]
  exact not_or_intro ha hb

/-- No comma is in a part if none is in the words. -/
theorem comma_notMem_parts (h : ∀ word ∈ words, comma ∉ word) :
    ∀ part ∈ parts words, comma ∉ part := by
  have hand : comma ∉ codes " and " := by decide
  have hspace : comma ∉ codes " " := by decide
  cases form words with
  | none => exact List.forall_mem_singleton.mpr (by decide)
  | one a => exact h
  | two a b =>
    rw [List.forall_mem_cons, List.forall_mem_singleton] at h
    exact List.forall_mem_singleton.mpr (comma_notMem_append (comma_notMem_append h.1 hand) h.2)
  | more first last hmiddle =>
    rw [List.forall_mem_cons, List.forall_mem_append, List.forall_mem_singleton] at h
    obtain ⟨hfirst, hmiddles, hlast⟩ := h
    rw [parts_more hmiddle, List.cons_append, List.forall_mem_cons, List.forall_mem_append,
      List.forall_mem_map, List.forall_mem_singleton]
    exact ⟨hfirst, fun word hword => comma_notMem_append hspace (hmiddles word hword),
      comma_notMem_append hand hlast⟩

/-- Splitting an English list at its commas gives its parts. -/
theorem splitOn_joinList (h : ∀ word ∈ words, Separable word) :
    (joinList words).splitOn comma = parts words := by
  have hcomma := comma_notMem_parts fun word hword => (h word hword).no_comma
  rw [joinList_eq_joinCodes_parts]
  exact List.splitOn_intercalate comma hcomma (parts_ne_nil words)

/-- The words are those that the parts were made of. -/
theorem wordsOfParts_parts (h : ∀ word ∈ words, Separable word) :
    wordsOfParts (parts words) = words := by
  cases form words with
  | none => rfl
  | one a =>
    have ha := h a (List.mem_singleton_self a)
    rw [parts, wordsOfParts, if_neg ha.ne_nil, cutAtAnd?_eq_none ha.no_and]
    rfl
  | two a b =>
    have ha := h a (List.mem_cons_self ..)
    have hne : a ++ (codes " and " ++ b) ≠ [] := by simp
    rw [parts, wordsOfParts, List.append_assoc, if_neg hne, cutAtAnd?_append ha.no_and]
    rfl
  | @more first middle last hmiddle =>
    have hwords : middle.map (List.drop (codes " ").length ∘ (codes " " ++ ·)) = middle :=
      List.map_id'' (fun _ => List.drop_left) middle
    rw [parts_more hmiddle, List.cons_append, wordsOfParts_more, List.map_map, hwords,
      List.drop_left, List.cons_append]

/-- The words of an English list are the words that it was made of. -/
theorem wordsOf_joinList (h : ∀ word ∈ words, Separable word) :
    wordsOf (joinList words) = words := by
  rw [wordsOf, splitOn_joinList h, wordsOfParts_parts h]

/-- The same English list has the same words. -/
theorem eq_of_joinList_eq (hxs : ∀ word ∈ xs, Separable word) (hys : ∀ word ∈ ys, Separable word)
    (h : joinList xs = joinList ys) : xs = ys := by
  rw [← wordsOf_joinList hxs, h, wordsOf_joinList hys]

/-! ## Lists of labels and of phrases -/

/-- Labels that are texts are listed as those texts are. -/
theorem joinList_eq_of_joinLabels_eq
    (h : joinLabels (xs.map .ofCodes) = joinLabels (ys.map .ofCodes)) :
    joinList xs = joinList ys := by
  have hjoin (words : List CodePoints) :
      ∃ v, joinLabels (words.map .ofCodes) = .ok v ∧ v.display = joinList words := by
    have htext : ∀ v ∈ words.map Value.ofCodes, v.isText = true :=
      List.forall_mem_map.mpr fun word _ => Value.isText_ofCodes word
    obtain ⟨v, hv, -, hdisplay⟩ := joinLabels_of_isText (words.map .ofCodes) htext
    have hwords : (words.map Value.ofCodes).map Value.display = words := by
      rw [List.map_map]
      exact List.map_id'' Value.display_ofCodes words
    exact ⟨v, hv, by rw [hdisplay, hwords]⟩
  obtain ⟨v, hv, hxs⟩ := hjoin xs
  obtain ⟨w, hw, hys⟩ := hjoin ys
  rw [hv, hw, Except.ok.injEq] at h
  rw [← hxs, h, hys]

/-- A remark that is the same lists the same. -/
theorem joinList_eq_of_phrasesRemark_eq (hxs : ∀ word ∈ xs, word ≠ [])
    (hys : ∀ word ∈ ys, word ≠ []) {opening : String}
    (h : Registry.phrasesRemark opening xs = Registry.phrasesRemark opening ys) :
    joinList xs = joinList ys := by
  rw [Registry.phrasesRemark_eq hxs, Registry.phrasesRemark_eq hys] at h
  -- A remark is empty exactly if what it lists is.
  by_cases hx : joinList xs = [] <;> by_cases hy : joinList ys = []
  · rw [hx, hy]
  · rw [if_pos hx, if_neg hy] at h
    simp at h
  · rw [if_neg hx, if_pos hy] at h
    simp at h
  · rw [if_neg hx, if_neg hy] at h
    exact List.append_cancel_left (List.append_cancel_right h)

/-- English lists of words that are not empty and hold no comma and no "and" differ if the words do,
in number, in order or in any of them, whether they list words, labels that are texts, or phrases in
a remark. -/
theorem joinList_inj (hxs : ∀ word ∈ xs, Separable word) (hys : ∀ word ∈ ys, Separable word) :
    (joinList xs = joinList ys ↔ xs = ys) ∧
      (joinLabels (xs.map .ofCodes) = joinLabels (ys.map .ofCodes) ↔ xs = ys) ∧
      ∀ opening : String,
        Registry.phrasesRemark opening xs = Registry.phrasesRemark opening ys ↔ xs = ys := by
  refine ⟨⟨fun h => ?_, fun h => h ▸ rfl⟩, ⟨fun h => ?_, fun h => h ▸ rfl⟩,
    fun opening => ⟨fun h => ?_, fun h => h ▸ rfl⟩⟩
  · exact eq_of_joinList_eq hxs hys h
  · exact eq_of_joinList_eq hxs hys (joinList_eq_of_joinLabels_eq h)
  · have hne {words : List CodePoints} (hwords : ∀ word ∈ words, Separable word) :
        ∀ word ∈ words, word ≠ [] := fun word hword => (hwords word hword).ne_nil
    exact eq_of_joinList_eq hxs hys (joinList_eq_of_phrasesRemark_eq (hne hxs) (hne hys) h)

/-- A space at the end of the first word is told from one at the beginning of the second. -/
theorem joinList_inj_spaces :
    joinList ["Read ", "Write"] ≠ joinList ["Read", " Write"] ∧
      joinLabels [.text "Read ", .text "Write"] ≠ joinLabels [.text "Read", .text " Write"] ∧
      Registry.phrasesRemark "when " ["Read ", "Write"] ≠
        Registry.phrasesRemark "when " ["Read", " Write"] := by
  have hxs : ∀ word ∈ (["Read ", "Write"] : List CodePoints), Separable word := by
    rw [List.forall_mem_cons, List.forall_mem_singleton]
    exact ⟨⟨by decide, by decide, by decide⟩, ⟨by decide, by decide, by decide⟩⟩
  have hys : ∀ word ∈ (["Read", " Write"] : List CodePoints), Separable word := by
    rw [List.forall_mem_cons, List.forall_mem_singleton]
    exact ⟨⟨by decide, by decide, by decide⟩, ⟨by decide, by decide, by decide⟩⟩
  have hne : (["Read ", "Write"] : List CodePoints) ≠ ["Read", " Write"] := by decide
  obtain ⟨hlist, hlabels, hremark⟩ := joinList_inj hxs hys
  exact ⟨mt hlist.mp hne, mt hlabels.mp hne, mt (hremark "when ").mp hne⟩

/-- A word with "and" in it can be taken for two, and an empty word for none. -/
example : joinList ["Read and Write"] = joinList ["Read", "Write"] ∧
    joinList [""] = joinList [] := by decide

end Sentence

end PolicyAuthoring
