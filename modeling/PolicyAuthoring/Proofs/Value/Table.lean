import PolicyAuthoring.Proofs.Value.Key
import Mathlib.Data.List.Induction

/-!
# Tables filled entry by entry

A table has at most one entry per key. The tables that the library makes arise by `Table.put` and
keep that property; a table that comes from outside is assumed to have it. `Table.Distinct` states
it, and this file says what `Table.ofEntries` makes of a list of entries in which keys may recur:
the keys are those of the list, each where it occurs first (`keys_ofEntries`), what is stored under
a key is what its last entry gives (`lookup_ofEntries`), and nothing changes if no key recurs.
-/

namespace PolicyAuthoring.Table

variable {α β : Type} {table : Table α} {entries : List (Value × α)} {key : Value}

/-- No two entries of a table have the same key. -/
def Distinct (table : Table α) : Prop := table.Pairwise fun e f => e.1.same f.1 = false

/-- Texts that differ are keys of different entries. -/
theorem distinct_of_nodup (htext : ∀ e ∈ table, e.1.isText = true)
    (hnodup : (table.map Prod.fst).Nodup) : table.Distinct := by
  rw [List.Nodup, List.pairwise_map] at hnodup
  refine List.Pairwise.imp_of_mem (fun {e f} he _ hne => ?_) hnodup
  rw [← Bool.not_eq_true, Value.same_iff_of_isText (htext e he)]
  exact hne

/-! ## Putting -/

/-- The key of an entry is the one just put or was there before. -/
theorem key_of_mem_put {a : α} {e : Value × α} (he : e ∈ table.put key a) :
    e.1 = key ∨ e.1 ∈ table.map Prod.fst := by
  induction table with
  | nil =>
    rw [put, List.mem_singleton] at he
    exact Or.inl (congrArg Prod.fst he)
  | cons entry rest ih =>
    rw [put] at he
    split at he
    · rcases List.mem_cons.mp he with rfl | he
      · exact Or.inr (List.mem_cons_self ..)
      · exact Or.inr (List.mem_map_of_mem (List.mem_cons_of_mem _ he))
    · rcases List.mem_cons.mp he with rfl | he
      · exact Or.inr (List.mem_cons_self ..)
      · exact (ih he).imp_right (List.mem_cons_of_mem _)

/-- An entry was there before, or what was just put is stored in it. -/
theorem mem_of_mem_put {a : α} {e : Value × α} (he : e ∈ table.put key a) :
    e ∈ table ∨ e.1.same key = true ∧ e.2 = a := by
  induction table with
  | nil =>
    rw [put, List.mem_singleton] at he
    subst he
    exact Or.inr ⟨Value.same_self key, rfl⟩
  | cons entry rest ih =>
    rw [put] at he
    split at he
    next hsame =>
      rcases List.mem_cons.mp he with rfl | he
      · exact Or.inr ⟨hsame, rfl⟩
      · exact Or.inl (List.mem_cons_of_mem _ he)
    next hsame =>
      rcases List.mem_cons.mp he with rfl | he
      · exact Or.inl (List.mem_cons_self ..)
      · exact (ih he).imp_left (List.mem_cons_of_mem _)

/-- Putting keeps the keys distinct. -/
theorem Distinct.put (hdistinct : table.Distinct) (a : α) : (table.put key a).Distinct := by
  induction table with
  | nil => exact List.pairwise_singleton _ _
  | cons entry rest ih =>
    obtain ⟨hentry, hrest⟩ := List.pairwise_cons.mp hdistinct
    rw [Table.put]
    split
    next hsame => exact List.pairwise_cons.mpr ⟨hentry, hrest⟩
    next hsame =>
      -- The first entry differs from the key just put and from all keys after it.
      refine List.pairwise_cons.mpr ⟨fun e he => ?_, ih hrest⟩
      rcases key_of_mem_put he with hkey | hkey
      · rw [hkey]
        simpa using hsame
      · obtain ⟨f, hf, hfe⟩ := List.mem_map.mp hkey
        rw [← hfe]
        exact hentry f hf

/-- A text is a key after putting if it was put or a key before. -/
theorem contains_put (hkey : key.isText = true) (k : Value) (a : α) :
    (table.put k a).contains key = (table.contains key || k.same key) := by
  induction table with
  | nil => simp [Table.put, contains]
  | cons entry rest ih =>
    rw [contains] at ih ⊢
    rw [Table.put]
    split
    next hsame =>
      -- The old key stays, and it is the same as the text looked for if the new one is that text.
      by_cases h : k.same key = true
      · have hk := (Value.same_iff_of_isText_right hkey).mp h
        subst hk
        simp [contains, hsame]
      · simp [contains, h]
    next hsame =>
      simp only [List.any_cons, contains] at ih ⊢
      rw [ih, Bool.or_assoc]

/-! ## Filling -/

/-- Filling a table with one more entry puts that entry last. -/
theorem ofEntries_concat (entries : List (Value × α)) (e : Value × α) :
    ofEntries (entries ++ [e]) = (ofEntries entries).put e.1 e.2 := by
  rw [ofEntries, List.foldl_append, List.foldl_cons, List.foldl_nil]
  rfl

/-- A table filled entry by entry has distinct keys. -/
theorem distinct_ofEntries (entries : List (Value × α)) : (ofEntries entries).Distinct := by
  induction entries using List.reverseRecOn with
  | nil => exact List.Pairwise.nil
  | append_singleton entries e ih =>
    rw [ofEntries_concat]
    exact ih.put e.2

/-- A table filled entry by entry has no other keys than the entries. -/
theorem key_of_mem_ofEntries {e : Value × α} (he : e ∈ ofEntries entries) :
    e.1 ∈ entries.map Prod.fst := by
  induction entries using List.reverseRecOn generalizing e with
  | nil => cases he
  | append_singleton entries last ih =>
    rw [ofEntries_concat] at he
    rw [List.map_append, List.mem_append]
    rcases key_of_mem_put he with hkey | hkey
    · exact Or.inr (by simp [hkey])
    · obtain ⟨f, hf, hfe⟩ := List.mem_map.mp hkey
      rw [← hfe]
      exact Or.inl (ih hf)

/-- What a table filled entry by entry stores under a key was given for an equal key. -/
theorem exists_of_mem_ofEntries {e : Value × α} (he : e ∈ ofEntries entries) :
    ∃ f ∈ entries, e.1.same f.1 = true ∧ e.2 = f.2 := by
  induction entries using List.reverseRecOn with
  | nil => cases he
  | append_singleton entries last ih =>
    rw [ofEntries_concat] at he
    rcases mem_of_mem_put he with hold | ⟨hkey, hvalue⟩
    · obtain ⟨f, hf, hfe⟩ := ih hold
      exact ⟨f, List.mem_append_left _ hf, hfe⟩
    · exact ⟨last, by simp, hkey, hvalue⟩

/-- The text keys of a table filled entry by entry are those of the entries. -/
theorem contains_ofEntries (hkey : key.isText = true) :
    (ofEntries entries).contains key = true ↔ key ∈ entries.map Prod.fst := by
  induction entries using List.reverseRecOn with
  | nil => simp [ofEntries, contains]
  | append_singleton entries e ih =>
    rw [ofEntries_concat, contains_put hkey, Bool.or_eq_true, ih, List.map_append, List.mem_append,
      Value.same_iff_of_isText_right hkey]
    simp [eq_comm]

/-- Entries with distinct keys are the table that they fill. -/
theorem ofEntries_eq_self (hdistinct : Distinct entries) : ofEntries entries = entries := by
  induction entries using List.reverseRecOn with
  | nil => rfl
  | append_singleton entries e ih =>
    obtain ⟨hentries, -, hlast⟩ := List.pairwise_append.mp hdistinct
    have hnew : contains entries e.1 = false := by
      rw [contains, List.any_eq_false]
      intro f hf
      simpa using hlast f hf e (List.mem_singleton_self e)
    rw [ofEntries_concat, ih hentries, put_of_not_contains hnew]

/-! ## Keys in order -/

/-- Keys, each at the place where it occurs first. -/
def firstKeys (keys : List Value) : List Value :=
  keys.eraseDupsBy fun key earlier => earlier.same key

@[simp] theorem firstKeys_nil : firstKeys [] = [] := rfl

/-- Another key comes last, unless it occurs before. -/
theorem firstKeys_concat (keys : List Value) (key : Value) :
    firstKeys (keys ++ [key]) =
      if (firstKeys keys).any fun k => k.same key then firstKeys keys
      else firstKeys keys ++ [key] := by
  -- The keys that have been found so far are kept in reverse.
  have hloop (keys found : List Value) :
      List.eraseDupsBy.loop (fun key earlier => earlier.same key) (keys ++ [key]) found =
        let others := List.eraseDupsBy.loop (fun key earlier => earlier.same key) keys found
        if others.any fun k => k.same key then others else others ++ [key] := by
    induction keys generalizing found with
    | nil =>
      simp only [List.nil_append, List.eraseDupsBy.loop, List.any_reverse]
      split <;> simp_all
    | cons k keys ih =>
      rw [List.cons_append, List.eraseDupsBy.loop, List.eraseDupsBy.loop]
      cases found.any fun earlier => earlier.same k <;> exact ih _
  exact hloop keys []

/-- Leaving out what recurs adds nothing. -/
theorem mem_of_mem_firstKeys {keys : List Value} (h : key ∈ firstKeys keys) : key ∈ keys := by
  induction keys using List.reverseRecOn with
  | nil => exact h
  | append_singleton keys last ih =>
    rw [firstKeys_concat] at h
    split at h
    · exact List.mem_append_left _ (ih h)
    · exact (List.mem_append.mp h).elim (List.mem_append_left _ ∘ ih) (List.mem_append_right _)

/-- Leaving out what recurs loses no text. -/
theorem mem_firstKeys_iff {keys : List Value} (hkey : key.isText = true) :
    key ∈ firstKeys keys ↔ key ∈ keys := by
  refine ⟨mem_of_mem_firstKeys, fun h => ?_⟩
  induction keys using List.reverseRecOn with
  | nil => exact h
  | append_singleton keys last ih =>
    rw [firstKeys_concat]
    rcases List.mem_append.mp h with h | h
    · split
      · exact ih h
      · exact List.mem_append_left _ (ih h)
    · obtain rfl := List.mem_singleton.mp h
      split
      next hbefore =>
        -- The key equal to the text is the text itself.
        obtain ⟨k, hk, hsame⟩ := List.any_eq_true.mp hbefore
        rw [← (Value.same_iff_of_isText_right hkey).mp hsame]
        exact hk
      next => exact List.mem_append_right _ h

/-- Leaving out keys and leaving out what recurs can be exchanged, if equal keys are left out
together. -/
theorem filter_firstKeys {p : Value → Bool} {keys : List Value}
    (hp : ∀ k ∈ keys, ∀ l ∈ keys, k.same l = true → p k = p l) :
    (firstKeys keys).filter p = firstKeys (keys.filter p) := by
  induction keys using List.reverseRecOn with
  | nil => rfl
  | append_singleton keys key ih =>
    have ih := ih fun k hk l hl =>
      hp k (List.mem_append_left _ hk) l (List.mem_append_left _ hl)
    have hany : p key = true → ((firstKeys keys).filter p).any (fun k => k.same key) =
        (firstKeys keys).any fun k => k.same key := by
      intro hkey
      rw [List.any_filter, Bool.eq_iff_iff, List.any_eq_true, List.any_eq_true]
      refine exists_congr fun k => and_congr_right fun hk => ?_
      rw [Bool.and_eq_true, and_iff_right_iff_imp]
      have hk := List.mem_append_left [key] (mem_of_mem_firstKeys hk)
      exact fun hsame => (hp k hk key (by simp) hsame).trans hkey
    rw [firstKeys_concat, List.filter_append, apply_ite (List.filter p), List.filter_append, ih]
    cases hkey : p key with
    | false => simp [hkey]
    | true =>
      rw [List.filter_cons_of_pos hkey, List.filter_nil, firstKeys_concat, ← ih, hany hkey]

/-- A key is put at the end, unless it is there. -/
theorem keys_put (table : Table α) (key : Value) (a : α) :
    (table.put key a).keys =
      if table.keys.any fun k => k.same key then table.keys else table.keys ++ [key] := by
  induction table with
  | nil => rfl
  | cons entry rest ih =>
    have hcons (e : Value × α) (others : Table α) : keys (e :: others) = e.1 :: others.keys := rfl
    rw [Table.put, hcons, List.any_cons]
    by_cases hsame : entry.1.same key = true
    · simp [hsame, hcons]
    · rw [if_neg hsame, hcons, ih]
      simp only [hsame, Bool.false_or]
      split <;> rfl

/-- The keys of a table filled entry by entry are those of the entries, each where it occurs
first. -/
theorem keys_ofEntries (entries : List (Value × α)) :
    (ofEntries entries).keys = firstKeys (entries.map Prod.fst) := by
  induction entries using List.reverseRecOn with
  | nil => rfl
  | append_singleton entries e ih =>
    rw [ofEntries_concat, keys_put, ih, List.map_append, List.map_singleton, firstKeys_concat]

/-! ## Looking up -/

/-- A key of a table with distinct keys leads to its entry. -/
theorem lookup_of_mem (hdistinct : table.Distinct) {e : Value × α} (he : e ∈ table) :
    table.lookup e.1 = some e.2 := by
  induction table with
  | nil => cases he
  | cons entry rest ih =>
    obtain ⟨hentry, hrest⟩ := List.pairwise_cons.mp hdistinct
    rw [lookup_cons]
    rcases List.mem_cons.mp he with rfl | he
    · rw [if_pos (Value.same_self _)]
    · rw [hentry e he, if_neg Bool.false_ne_true]
      exact ih hrest he

/-- Putting a key changes what it leads to, and nothing else. -/
theorem lookup_put {k : Value} (hk : k.hashable = true) (hkey : key.hashable = true)
    (table : Table α) (a : α) :
    (table.put k a).lookup key = if k.same key = true then some a else table.lookup key := by
  induction table with
  | nil => rw [Table.put, lookup_cons, lookup_nil]
  | cons entry rest ih =>
    rw [Table.put]
    split
    next hsame =>
      rw [lookup_cons, lookup_cons, Value.same_congr entry.1 hk hsame key]
      split <;> rfl
    next hsame =>
      rw [lookup_cons, lookup_cons, ih]
      by_cases hfound : entry.1.same key = true
      · -- The key looked for is not the one that was put, since the first entry has it.
        have hother : ¬ k.same key = true := fun h => hsame (by
          rw [Value.same_congr entry.1 hkey hfound k]
          exact Value.same_symm hkey h)
        rw [if_pos hfound, if_neg hother, if_pos hfound]
      · rw [if_neg hfound, if_neg hfound]

/-- A table filled entry by entry stores under a key what the last entry with that key gives. -/
theorem lookup_ofEntries (hentries : ∀ e ∈ entries, e.1.hashable = true)
    (hkey : key.hashable = true) :
    (ofEntries entries).lookup key =
      ((entries.filter fun e => e.1.same key).getLast?).map Prod.snd := by
  induction entries using List.reverseRecOn with
  | nil => rfl
  | append_singleton entries last ih =>
    have ih := ih fun e he => hentries e (List.mem_append_left _ he)
    rw [ofEntries_concat, lookup_put (hentries last (by simp)) hkey, ih, List.filter_append]
    by_cases hsame : last.1.same key = true <;> simp [hsame]

/-- A key that leads nowhere in a table leads on into the table after it. -/
theorem lookup_append (table rest : Table α) (key : Value) :
    lookup (table ++ rest) key = (lookup table key).or (lookup rest key) := by
  rw [lookup, lookup, lookup, List.find?_append, Option.map_or]

/-- Equal keys lead to the same. -/
theorem lookup_congr {k : Value} (hk : k.hashable = true) (hkey : key.hashable = true)
    (h : k.same key = true) (table : Table α) : table.lookup k = table.lookup key := by
  have hentry (v : Value) : v.same k = v.same key := by
    rw [Bool.eq_iff_iff]
    constructor
    · intro hv
      rw [Value.same_congr v hk hv key]
      exact h
    · intro hv
      rw [Value.same_congr v hkey hv k]
      exact Value.same_symm hkey h
  simp only [lookup, hentry]

/-- Putting under a key that must be new changes at most what that key leads to. -/
theorem lookup_putNew {k : Value} (hkey : key.hashable = true)
    (hk : k.same key = true → k.hashable = true) (table : Table α) (a : α) :
    (table.putNew k a).lookup key =
      (table.lookup key).or (if k.same key = true then some a else none) := by
  rw [putNew]
  cases hnew : table.contains k with
  | false =>
    rw [if_neg Bool.false_ne_true, put_of_not_contains hnew, lookup_append, lookup_cons, lookup_nil]
  | true =>
    rw [if_pos rfl]
    -- The key that was refused is the one looked for, or what is looked for does not depend on it.
    by_cases hsame : k.same key = true
    · have hfound := contains_eq_isSome table k
      rw [hnew, lookup_congr (hk hsame) hkey hsame] at hfound
      rw [Option.or_eq_left_of_isSome hfound.symm]
    · rw [if_neg hsame, Option.or_none]

end PolicyAuthoring.Table
