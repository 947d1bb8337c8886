import PolicyAuthoring.Sentence
import PolicyAuthoring.Proofs.Value.Reading

/-!
# Labels and phrases in sentences

Sentences are put together of labels, which are values, and phrases. If all labels are texts,
nothing fails on the way, and what is shown in the end is the labels as they are displayed with the
words between them: `joinLabels_of_isText` for lists of labels, `withRemark_of_isText` for labels
with a remark. A list of phrases is empty only if there is no phrase (`joinList_eq_nil_iff`), so a
remark is missing only if it has nothing to say.
-/

namespace PolicyAuthoring

/-! ## Labels -/

namespace Value

/-- A text has a form in lower case. -/
theorem lower_of_isText {v : Value} (hv : v.isText = true) :
    v.lower = .ok (Text.lowerCodes v.display) := by
  rcases isText_iff.mp hv with ⟨s, rfl⟩ | ⟨codes, rfl⟩ <;> rfl

/-- Only texts have a form in lower case. -/
theorem isText_of_lower {v : Value} {s : CodePoints} (h : v.lower = .ok s) : v.isText = true := by
  cases v with
  | text s => rfl
  | unpaired codes => rfl
  | _ => cases h

/-- A text with code points after it. -/
def followedBy (v : Value) (tail : CodePoints) : Value :=
  if tail = [] then v else .ofCodes (v.display ++ tail)

/-- A text with code points after it is a text. -/
theorem isText_followedBy {v : Value} (hv : v.isText = true) (tail : CodePoints) :
    (v.followedBy tail).isText = true := by
  rw [followedBy]
  split
  · exact hv
  · exact isText_ofCodes _

/-- A text with code points after it is displayed with the code points after it. -/
theorem display_followedBy (v : Value) (tail : CodePoints) :
    (v.followedBy tail).display = v.display ++ tail := by
  rw [followedBy]
  split
  next hnil => rw [hnil, List.append_nil]
  next => exact display_ofCodes _

/-- What is not blank is a text. -/
theorem isText_of_isNonBlankText {v : Value} (h : v.isNonBlankText = true) : v.isText = true := by
  cases v with
  | text s => rfl
  | unpaired codes => rfl
  | _ => cases h

end Value

namespace Sentence

variable {labels : List Value} {words : List CodePoints}

/-- A list of texts has no item that is no text. -/
theorem firstNonText?_eq_none (h : ∀ v ∈ labels, v.isText = true) (index : Nat) :
    firstNonText? index labels = none := by
  induction labels generalizing index with
  | nil => rfl
  | cons v labels ih =>
    rw [firstNonText?, if_pos (h v (List.mem_cons_self ..))]
    exact ih (fun w hw => h w (List.mem_cons_of_mem _ hw)) _

/-- Labels that are texts are joined to a text, in which they stand as they are displayed. -/
theorem joinLabels_of_isText (labels : List Value) (h : ∀ v ∈ labels, v.isText = true) :
    ∃ v, joinLabels labels = .ok v ∧ v.isText = true ∧
      v.display = joinList (labels.map Value.display) := by
  -- A single label is the only one that does not become part of a new text.
  by_cases hone : ∃ v, labels = [v]
  · obtain ⟨v, rfl⟩ := hone
    exact ⟨v, rfl, h v (List.mem_singleton_self v), rfl⟩
  · refine ⟨.ofCodes (joinList (labels.map Value.display)), ?_, Value.isText_ofCodes _,
      Value.display_ofCodes _⟩
    have hnone : (if 3 ≤ labels.length then firstNonText? 0 labels.dropLast else none) = none := by
      split
      · exact firstNonText?_eq_none (fun v hv => h v (List.dropLast_subset _ hv)) 0
      · rfl
    rw [joinLabels]
    · rw [hnone]
    · exact fun v hv => hone ⟨v, hv⟩

/-- A remark after a label that is a text stands in brackets, and an empty remark is left out. -/
theorem withRemark_of_isText {label : Value} (h : label.isText = true) (opening : String)
    (remark : CodePoints) :
    withRemark label opening remark =
      .ok (label.followedBy (if remark = [] then [] else " (" ++ opening ++ remark ++ ")")) := by
  rw [withRemark]
  by_cases hremark : remark = []
  · rw [if_pos hremark, if_pos hremark, Value.followedBy, if_pos rfl]
  · rw [if_neg hremark, if_neg hremark, Value.followedBy, if_neg (by simp)]
    rcases Value.isText_iff.mp h with ⟨s, rfl⟩ | ⟨codes, rfl⟩ <;> rfl

/-! ## Phrases -/

/-- A list of words is empty only if there is no word. -/
theorem joinList_eq_nil_iff (h : ∀ word ∈ words, word ≠ []) :
    joinList words = [] ↔ words = [] := by
  constructor
  · intro hempty
    match words with
    | [] => rfl
    | [a] => exact absurd hempty (h a (List.mem_singleton_self a))
    | [a, b] => simp [joinList] at hempty
    | a :: b :: c :: rest => simp [joinList] at hempty
  · rintro rfl
    rfl

/-- A phrase about an attribute is not empty. -/
theorem conditionPhrase_ne_nil (label : CodePoints) (operator : String) (value : Value) :
    conditionPhrase label operator value ≠ [] := by
  simp [conditionPhrase]

/-- Phrases about attributes differ if the labels do. -/
theorem conditionPhrase_inj {label label' : CodePoints} {operator : String} {value : Value} :
    conditionPhrase label operator value = conditionPhrase label' operator value ↔
      label = label' := by
  simp [conditionPhrase]

end Sentence

namespace Registry

open Sentence

/-- A remark that lists phrases is a remark on their list. -/
theorem phrasesRemark_eq {phrases : List CodePoints} (h : ∀ phrase ∈ phrases, phrase ≠ [])
    (opening : String) :
    phrasesRemark opening phrases =
      if joinList phrases = [] then ([] : CodePoints)
      else " (" ++ opening ++ joinList phrases ++ ")" := by
  by_cases hnil : phrases = []
  · rw [hnil]
    rfl
  · rw [phrasesRemark, List.isEmpty_eq_false_iff.mpr hnil, if_neg Bool.false_ne_true,
      if_neg (mt (joinList_eq_nil_iff h).mp hnil)]

end Registry

end PolicyAuthoring
