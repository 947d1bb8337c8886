import PolicyAuthoring.Operator
import PolicyAuthoring.Proofs.Value.Equality

/-!
# Settled operators

The operator of a condition goes into a document by its word and comes back as the author's choice.
A resolved operator is one that the attribute offers for the value: the author's choice exactly if
that is on offer (`word_resolve_eq_iff`), and the first on offer otherwise
(`resolve_of_not_offered`). So resolving a resolved operator again changes nothing
(`resolve_word_of_mem_domain`), also for another attribute of the same data type.

What is on offer for a value that is no sequence is what the menu of the attribute shows, whatever
the value; a sequence leaves no choice, unless the attribute is an array.
-/

namespace PolicyAuthoring.Operator

/-- The word of an operator stands for the operator. -/
@[simp]
theorem ofWord?_word (op : Operator) : ofWord? op.word = some op := by
  cases op <;> decide

/-- Different operators have different words. -/
theorem word_injective {op op' : Operator} (h : op.word = op'.word) : op = op' := by
  rw [← Option.some_inj, ← ofWord?_word op, h, ofWord?_word]

/-- The word of an operator counts as a choice. -/
@[simp]
theorem truthy_word (op : Operator) : (Value.text op.word).truthy = true := by
  cases op <;> rfl

/-- Attributes of the same data type offer the same operators. -/
theorem domain_congr {a b : Attribute} (h : a.dataType = b.dataType) (value : Value) :
    domain a value = domain b value := by
  rw [domain, domain, h]

/-- Resolving depends on no more of an attribute than its data type. -/
theorem resolve_congr {a b : Attribute} (h : a.dataType = b.dataType) (value chosen : Value) :
    resolve a value chosen = resolve b value chosen := by
  rw [resolve, resolve, default, default, domain_congr h]

/-- An operator that an attribute offers for a value is kept when it is chosen. -/
theorem resolve_word_of_mem_domain {a : Attribute} {value : Value} {op : Operator}
    (h : op ∈ domain a value) : resolve a value (.text op.word) = op := by
  rw [resolve, truthy_word, if_pos rfl]
  cases hfind : (domain a value).find? fun op' => (Value.text op'.word).same (.text op.word) with
  | none =>
    have := List.find?_eq_none.mp hfind op h
    simp at this
  | some op' =>
    have hword := List.find?_some hfind
    rw [Value.same_text, decide_eq_true_eq] at hword
    exact word_injective hword

/-! ## Choice and default -/

/-- Whether a choice is the word for an operator that an attribute offers for a value. -/
def Offered (a : Attribute) (value choice : Value) : Prop :=
  ∃ op ∈ domain a value, choice = .text op.word

variable {a : Attribute} {value choice : Value}

/-- The operator of a condition is on offer. -/
theorem offered_resolve (a : Attribute) (value choice : Value) :
    Offered a value (.text (resolve a value choice).word) :=
  ⟨_, resolve_mem_domain a value choice, rfl⟩

/-- The operator of a condition is what the author chose exactly if that is on offer. -/
theorem word_resolve_eq_iff :
    Value.text (resolve a value choice).word = choice ↔ Offered a value choice := by
  constructor
  · intro h
    rw [← h]
    exact offered_resolve a value choice
  · rintro ⟨op, hop, rfl⟩
    rw [resolve_word_of_mem_domain hop]

/-- The default is the first operator on offer. -/
theorem head?_domain (a : Attribute) (value : Value) :
    (domain a value).head? = some (default a value) := by
  rw [default, List.headD_eq_head?_getD]
  cases h : (domain a value).head? with
  | none => exact absurd (List.head?_eq_none_iff.mp h) (domain_ne_nil a value)
  | some op => rfl

/-- A choice that is not on offer leaves the default. -/
theorem resolve_of_not_offered (h : ¬ Offered a value choice) :
    resolve a value choice = default a value := by
  rw [resolve]
  split
  next htruthy =>
    have hnone : ((domain a value).find? fun op => (Value.text op.word).same choice) = none := by
      rw [List.find?_eq_none]
      intro op hop hsame
      exact h ⟨op, hop, ((Value.same_iff_of_isText rfl).mp hsame).symm⟩
    rw [hnone, Option.getD_none]
  next => rfl

/-! ## Sequences -/

/-- Only the word for arrays names the data type of arrays. -/
theorem ofValue?_eq_array_iff {v : Value} :
    DataType.ofValue? v = some .array ↔ v = .text DataType.array.name := by
  constructor
  · intro h
    unfold DataType.ofValue? at h
    split at h <;> first | rfl | cases h
  · rintro rfl
    rfl

/-- For a value that is no sequence an attribute offers what its menu shows. -/
theorem map_domain_eq_menu (a : Attribute) (hvalue : value.isSequence = false) :
    ((domain a value).map fun op => (op.word, op.label)) = menu a := by
  have hdomain : domain a value = domain a .null := by
    rw [domain, domain, hvalue]
    rfl
  rw [menu, hdomain]

/-- A sequence is compared by `in`, unless the attribute is an array. -/
theorem resolve_of_isSequence (hvalue : value.isSequence = true)
    (harray : a.dataType ≠ .text DataType.array.name) (choice : Value) :
    resolve a value choice = .isIn := by
  have hdomain : domain a value = [.isIn] := by
    rw [domain, hvalue]
    split
    next h => exact absurd (ofValue?_eq_array_iff.mp h) harray
    next => rfl
    next => rfl
  have hmem := resolve_mem_domain a value choice
  rw [hdomain] at hmem
  exact List.mem_singleton.mp hmem

end PolicyAuthoring.Operator
