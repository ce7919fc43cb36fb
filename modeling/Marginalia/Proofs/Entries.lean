import Marginalia.Entries

/-
  Finite maps are determined by what is found in them.

  Main statements:
    * `lookup_insertByKey`
    * `AscendingKeys.ext`
    * `lookup_insertAll`
    * `Entries.get?_insert`
-/

namespace Marginalia

variable {β : Type}

------------------------------------------------------------
-- Insertions
------------------------------------------------------------

/- An insertion leaves something in the list. -/
theorem insertByKey_ne_nil
    {key : String}
    {value : β}
    {entries : List (String × β)} :
    insertByKey key value entries ≠ [] := by
  cases entries with
  | nil => exact List.cons_ne_nil _ _
  | cons head rest =>
      unfold insertByKey
      split
      · exact List.cons_ne_nil _ _
      · split
        · exact List.cons_ne_nil _ _
        · exact List.cons_ne_nil _ _

/- The first entry of a key is the one that is found. -/
theorem lookup_entry_cons
    (key other : String)
    (value : β)
    (rest : List (String × β)) :
    ((key, value) :: rest).lookup other =
      if other = key then some value
      else rest.lookup other := by
  rw [List.lookup_cons]
  by_cases hKey : other = key
  · rw [if_pos hKey, beq_iff_eq.mpr hKey]
  · rw [if_neg hKey, beq_eq_false_iff_ne.mpr hKey]

/- After an insertion, only its own key finds another value. -/
theorem lookup_insertByKey
    (key other : String)
    (value : β)
    (entries : List (String × β)) :
    (insertByKey key value entries).lookup other =
      if other = key then some value
      else entries.lookup other := by
  induction entries with
  | nil =>
      unfold insertByKey
      rw [lookup_entry_cons]
  | cons head rest ih =>
      rcases head with ⟨first, old⟩
      unfold insertByKey
      split
      · rw [lookup_entry_cons]
      · split
        · rename_i hEqual
          subst hEqual
          rw [lookup_entry_cons, lookup_entry_cons]
          split
          · rfl
          · rfl
        · rename_i hDifferent
          rw [lookup_entry_cons, lookup_entry_cons, ih]
          by_cases hFirst : other = first
          · subst hFirst
            rw [if_pos rfl, if_pos rfl,
              if_neg (Ne.symm hDifferent)]
          · rw [if_neg hFirst, if_neg hFirst]

/- A key of entries is found. -/
theorem isSome_lookup_iff
    {key : String}
    {entries : List (String × β)} :
    (entries.lookup key).isSome ↔
      key ∈ entries.map Prod.fst := by
  induction entries with
  | nil => simp
  | cons entry entries ih =>
      rcases entry with ⟨first, value⟩
      rw [lookup_entry_cons, List.map_cons, List.mem_cons,
        ← ih]
      by_cases hSame : key = first
      · simp [hSame]
      · simp [hSame]

/-
  Where a key is in no other entry, it does not matter if its
  entry is looked up before the others or after them.
-/
theorem lookup_or_insert
    {first : String}
    {value : β}
    {later : List (String × β)}
    (hFirst : first ∉ later.map Prod.fst)
    (key : String)
    (base : Option β) :
    (later.lookup key).or
        (if key = first then some value else base) =
      (((first, value) :: later).lookup key).or base := by
  rw [lookup_entry_cons]
  by_cases hSame : key = first
  · have hAbsent : later.lookup key = none := by
      rw [hSame, ← Option.not_isSome_iff_eq_none,
        isSome_lookup_iff]
      exact hFirst
    rw [if_pos hSame, if_pos hSame, hAbsent,
      Option.none_or, Option.some_or]
  · rw [if_neg hSame, if_neg hSame]

------------------------------------------------------------
-- Extensionality
------------------------------------------------------------

/- Below all keys nothing is found. -/
theorem lookup_eq_none_of_lt
    {key : String}
    {entries : List (String × β)}
    (hKey : ∀ entry ∈ entries, key < entry.1) :
    entries.lookup key = none := by
  rw [List.lookup_eq_none_iff]
  intro entry hEntry
  have hLess := hKey entry hEntry
  rw [bne_iff_ne]
  rintro rfl
  exact String.lt_irrefl _ hLess

/- Nor is it below the first key, where keys ascend. -/
theorem AscendingKeys.lookup_eq_none
    {first key : String}
    {value : β}
    {rest : List (String × β)}
    (hEntries : AscendingKeys ((first, value) :: rest))
    (hKey : key < first) :
    ((first, value) :: rest).lookup key = none := by
  apply lookup_eq_none_of_lt
  intro entry hEntry
  rcases List.mem_cons.mp hEntry with hFirst | hRest
  · rw [hFirst]
    exact hKey
  · have hLess :=
      (List.pairwise_cons.mp hEntries).1 entry hRest
    exact String.lt_trans hKey hLess

/- Two lists that begin alike begin with the same key. -/
theorem AscendingKeys.head_le
    {first second : String}
    {value value' : β}
    {rest rest' : List (String × β)}
    (hSecond : AscendingKeys ((second, value') :: rest'))
    (hLookup : ∀ key,
      ((first, value) :: rest).lookup key =
        ((second, value') :: rest').lookup key) :
    second ≤ first := by
  rw [← String.not_lt]
  intro hLess
  have hFound := hLookup first
  rw [hSecond.lookup_eq_none hLess,
    List.lookup_cons_self] at hFound
  cases hFound

/-
  Two lists in order of their keys are equal if every key
  finds the same in both.
-/
theorem AscendingKeys.ext
    {first second : List (String × β)}
    (hFirst : AscendingKeys first)
    (hSecond : AscendingKeys second)
    (hLookup : ∀ key,
      first.lookup key = second.lookup key) :
    first = second := by
  induction first generalizing second with
  | nil =>
      cases second with
      | nil => rfl
      | cons head rest =>
          have hFound := hLookup head.1
          rw [List.lookup_cons_self] at hFound
          cases hFound
  | cons head rest ih =>
      rcases head with ⟨key, value⟩
      cases second with
      | nil =>
          have hFound := hLookup key
          rw [List.lookup_cons_self] at hFound
          cases hFound
      | cons head' rest' =>
          rcases head' with ⟨key', value'⟩
          have hKey : key = key' :=
            String.le_antisymm
              (hFirst.head_le fun key => (hLookup key).symm)
              (hSecond.head_le hLookup)
          subst hKey
          have hValue := hLookup key
          rw [List.lookup_cons_self, List.lookup_cons_self]
            at hValue
          cases hValue
          have hFirst' := List.pairwise_cons.mp hFirst
          have hSecond' := List.pairwise_cons.mp hSecond
          have hRest : rest = rest' := by
            apply ih hFirst'.2 hSecond'.2
            intro other
            have hOther := hLookup other
            rw [lookup_entry_cons, lookup_entry_cons]
              at hOther
            by_cases hEqual : other = key
            · subst hEqual
              rw [lookup_eq_none_of_lt hFirst'.1,
                lookup_eq_none_of_lt hSecond'.1]
            · rw [if_neg hEqual, if_neg hEqual] at hOther
              exact hOther
          rw [hRest]

/- Where keys ascend, every entry is found under its key. -/
theorem AscendingKeys.lookup_eq_some_iff
    {entries : List (String × β)}
    (hEntries : AscendingKeys entries)
    {key : String}
    {value : β} :
    entries.lookup key = some value ↔
      (key, value) ∈ entries := by
  induction entries with
  | nil => simp
  | cons head rest ih =>
      rcases head with ⟨first, found⟩
      have hRest := List.pairwise_cons.mp hEntries
      rw [lookup_entry_cons, List.mem_cons]
      by_cases hKey : key = first
      · subst hKey
        have hLater : (key, value) ∉ rest := by
          intro hMember
          exact String.lt_irrefl key
            (hRest.1 (key, value) hMember)
        simp [hLater, eq_comm]
      · simp [hKey, ih hRest.2]

/- Where keys ascend, the last entry of a key is the first. -/
theorem AscendingKeys.lookup_reverse
    {entries : List (String × β)}
    (hEntries : AscendingKeys entries)
    (key : String) :
    entries.reverse.lookup key = entries.lookup key := by
  induction entries with
  | nil => rfl
  | cons head rest ih =>
      rcases head with ⟨first, value⟩
      have hRest := List.pairwise_cons.mp hEntries
      rw [List.reverse_cons, List.lookup_append,
        ih hRest.2, lookup_entry_cons, lookup_entry_cons]
      by_cases hKey : key = first
      · subst hKey
        rw [if_pos rfl, if_pos rfl,
          lookup_eq_none_of_lt hRest.1, Option.none_or]
      · rw [if_neg hKey, if_neg hKey, List.lookup_nil,
          Option.or_none]

/- Put entries into a map, one after another. -/
def insertAll
    (entries written : List (String × β)) :
    List (String × β) :=
  written.foldl
    (fun entries entry =>
      insertByKey entry.1 entry.2 entries)
    entries

/- What is inserted last for a key is found. -/
theorem lookup_insertAll
    (entries written : List (String × β))
    (key : String) :
    (insertAll entries written).lookup key =
      (written.reverse.lookup key).or
        (entries.lookup key) := by
  induction written generalizing entries with
  | nil => rfl
  | cons head rest ih =>
      rcases head with ⟨first, value⟩
      have hRest :=
        ih (insertByKey first value entries)
      rw [lookup_insertByKey] at hRest
      rw [List.reverse_cons, List.lookup_append,
        lookup_entry_cons, Option.or_assoc]
      apply hRest.trans
      by_cases hKey : key = first
      · rw [if_pos hKey, if_pos hKey, Option.some_or]
      · rw [if_neg hKey, if_neg hKey, List.lookup_nil,
          Option.none_or]

/- Insertions keep the keys ascending. -/
theorem AscendingKeys.insertAll
    (written : List (String × β))
    {entries : List (String × β)}
    (hEntries : AscendingKeys entries) :
    AscendingKeys
      (Marginalia.insertAll entries written) := by
  induction written generalizing entries with
  | nil => exact hEntries
  | cons head rest ih => exact ih hEntries.insertByKey

------------------------------------------------------------
-- Finite Maps
------------------------------------------------------------

namespace Entries

@[simp]
theorem get?_empty
    (key : String) :
    (empty : Entries β).get? key = none :=
  rfl

theorem get?_insert
    (entries : Entries β)
    (key other : String)
    (value : β) :
    (entries.insert key value).get? other =
      if other = key then some value
      else entries.get? other :=
  lookup_insertByKey key other value entries.toList

/- What holds of all entries holds after an insertion. -/
theorem forall_get?_insert
    {p : String → β → Prop}
    {entries : Entries β}
    {key : String}
    {value : β}
    (hEntries : ∀ other found,
      entries.get? other = some found → p other found)
    (hValue : p key value) :
    ∀ other found,
      (entries.insert key value).get? other = some found →
        p other found := by
  intro other found hFound
  rw [get?_insert] at hFound
  split at hFound
  · rename_i hSame
    cases hFound
    rw [hSame]
    exact hValue
  · exact hEntries other found hFound

/- Maps in which the same is found are the same. -/
theorem ext_get?
    {first second : Entries β}
    (hGet : ∀ key, first.get? key = second.get? key) :
    first = second := by
  apply Entries.ext
  exact first.ascending.ext second.ascending hGet

end Entries

end Marginalia
