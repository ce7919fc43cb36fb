/-
  Finite maps with text keys, listed by ascending key.

  Key definitions include:
    * `insertByKey`
    * `AscendingKeys`
    * `Entries`
    * `Entries.insert`
    * `Entries.get?`
-/

namespace Marginalia

------------------------------------------------------------
-- Lists with Ascending Keys
------------------------------------------------------------

variable {β : Type}

/-
  Put a value under a key. The list stays in the order of its
  keys, and an earlier value of the same key is replaced.
-/
def insertByKey
    (key : String)
    (value : β) :
    List (String × β) → List (String × β)
  | [] => [(key, value)]
  | (other, old) :: rest =>
      if key < other then
        (key, value) :: (other, old) :: rest
      else if key = other then
        (key, value) :: rest
      else
        (other, old) :: insertByKey key value rest

/- Every key is below all later ones. -/
def AscendingKeys
    (entries : List (String × β)) : Prop :=
  entries.Pairwise fun first second =>
    first.1 < second.1

instance
    (entries : List (String × β)) :
    Decidable (AscendingKeys entries) := by
  unfold AscendingKeys
  infer_instance

/-
  The keys after an insertion are the old ones and the new
  one.
-/
theorem mem_insertByKey
    {key : String}
    {value : β}
    {entries : List (String × β)}
    {entry : String × β}
    (hEntry : entry ∈ insertByKey key value entries) :
    entry = (key, value) ∨ entry ∈ entries := by
  induction entries with
  | nil =>
      simpa [insertByKey] using hEntry
  | cons head rest ih =>
      simp only [insertByKey] at hEntry
      split at hEntry
      · simpa using hEntry
      · split at hEntry
        · rcases List.mem_cons.mp hEntry with h | h
          · exact Or.inl h
          · exact Or.inr (List.mem_cons_of_mem _ h)
        · rcases List.mem_cons.mp hEntry with h | h
          · exact Or.inr (h ▸ List.mem_cons_self)
          · rcases ih h with h | h
            · exact Or.inl h
            · exact Or.inr (List.mem_cons_of_mem _ h)

/- Insertion keeps the keys ascending. -/
theorem AscendingKeys.insertByKey
    {key : String}
    {value : β}
    {entries : List (String × β)}
    (hEntries : AscendingKeys entries) :
    AscendingKeys
      (Marginalia.insertByKey key value entries) := by
  induction entries with
  | nil =>
      simp [Marginalia.insertByKey, AscendingKeys]
  | cons head rest ih =>
      obtain ⟨other, old⟩ := head
      have hHead := List.pairwise_cons.mp hEntries
      simp only [Marginalia.insertByKey]
      split
      · rename_i hLess
        refine List.pairwise_cons.mpr ⟨?_, hEntries⟩
        intro entry hEntry
        rcases List.mem_cons.mp hEntry with h | h
        · exact h ▸ hLess
        · exact String.lt_trans hLess (hHead.1 entry h)
      · rename_i hNotLess
        split
        · rename_i hEqual
          subst hEqual
          exact List.pairwise_cons.mpr hHead
        · rename_i hDifferent
          refine List.pairwise_cons.mpr
            ⟨?_, ih hHead.2⟩
          intro entry hEntry
          rcases mem_insertByKey hEntry with h | h
          · subst h
            exact Decidable.byContradiction
              fun hNotAbove =>
                hDifferent
                  (String.le_antisymm
                    (String.not_lt.mp hNotAbove)
                    (String.not_lt.mp hNotLess))
          · exact hHead.1 entry h

------------------------------------------------------------
-- Entries
------------------------------------------------------------

/- A finite map, as the list of its entries by ascending key. -/
structure Entries (β : Type) where
  toList : List (String × β)
  ascending : AscendingKeys toList

namespace Entries

@[ext]
theorem ext
    {first second : Entries β}
    (hList : first.toList = second.toList) :
    first = second := by
  cases first
  cases second
  simp_all

/- The map without entries. -/
def empty : Entries β :=
  ⟨[], List.Pairwise.nil⟩

instance : Inhabited (Entries β) :=
  ⟨empty⟩

instance
    [DecidableEq β] :
    DecidableEq (Entries β) :=
  fun first second =>
    decidable_of_iff
      (first.toList = second.toList)
      ⟨ext, fun h => h ▸ rfl⟩

/- The map with the value under the key. -/
def insert
    (entries : Entries β)
    (key : String)
    (value : β) : Entries β :=
  ⟨insertByKey key value entries.toList,
    entries.ascending.insertByKey⟩

/- The value under the key, if there is one. -/
def get?
    (entries : Entries β)
    (key : String) : Option β :=
  entries.toList.lookup key

/- The values, in the order of their keys. -/
def values
    (entries : Entries β) : List β :=
  entries.toList.map Prod.snd

end Entries

end Marginalia
