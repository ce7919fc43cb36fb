import Mathlib.Data.List.Forall2

/-
  When actions succeed that are made of others which can fail:
  sequences, and actions on all items of a list.

  Main statements:
    * `bind_eq_ok_iff`
    * `forM_eq_ok_iff`
    * `mapM_eq_ok_iff`
    * `exists_mapM_eq_ok_iff`
    * `exists_foldlM_eq_ok_iff`
-/

namespace Marginalia

variable {α β ε ε' : Type}

------------------------------------------------------------
-- Sequences
------------------------------------------------------------

/- A sequence succeeds if both of its parts do. -/
theorem bind_eq_ok_iff
    {first : Except ε α}
    {next : α → Except ε β}
    {result : β} :
    (first >>= next) = .ok result ↔
      ∃ value, first = .ok value ∧ next value = .ok result := by
  cases first with
  | error error => exact iff_of_false nofun nofun
  | ok value =>
      constructor
      · intro hNext
        exact ⟨value, rfl, hNext⟩
      · rintro ⟨_, ⟨⟩, hNext⟩
        exact hNext

/- Another wording of an error does not make a success. -/
theorem mapError_eq_ok_iff
    {result : Except ε α}
    {wrap : ε → ε'}
    {value : α} :
    result.mapError wrap = .ok value ↔
      result = .ok value := by
  cases result with
  | error error => simp [Except.mapError]
  | ok found => simp [Except.mapError]

/- A function of results makes successes of successes only. -/
theorem map_eq_ok_iff
    {result : Except ε α}
    {f : α → β}
    {value : β} :
    result.map f = .ok value ↔
      ∃ found, result = .ok found ∧ f found = value := by
  cases result with
  | error error => exact iff_of_false nofun nofun
  | ok found => simp [Except.map]

theorem map_eq_error_iff
    {result : Except ε α}
    {f : α → β}
    {error : ε} :
    result.map f = .error error ↔ result = .error error := by
  cases result with
  | error other => simp [Except.map]
  | ok found => simp [Except.map]

------------------------------------------------------------
-- Lists
------------------------------------------------------------

/- An action on all of a list succeeds where it does on each. -/
theorem forM_eq_ok_iff
    {check : α → Except ε Unit}
    {items : List α} :
    items.forM check = .ok () ↔
      ∀ item ∈ items, check item = .ok () := by
  induction items with
  | nil => simp [List.forM_nil, pure, Except.pure]
  | cons item items ih =>
      have hRun :
          (item :: items).forM check = (do
            check item
            items.forM check) :=
        rfl
      rw [hRun, bind_eq_ok_iff, List.forall_mem_cons, ← ih]
      constructor
      · rintro ⟨⟨⟩, hItem, hItems⟩
        exact ⟨hItem, hItems⟩
      · rintro ⟨hItem, hItems⟩
        exact ⟨(), hItem, hItems⟩

/- Each item gives one result, and none of them fails. -/
theorem mapM_eq_ok_iff
    {step : α → Except ε β}
    {items : List α}
    {results : List β} :
    items.mapM step = .ok results ↔
      List.Forall₂ (fun item result => step item = .ok result)
        items results := by
  induction items generalizing results with
  | nil =>
      rw [List.mapM_nil, List.forall₂_nil_left_iff]
      exact ⟨fun hOk => (Except.ok.inj hOk).symm,
        fun hNil => congrArg _ hNil.symm⟩
  | cons item items ih =>
      rw [List.mapM_cons, bind_eq_ok_iff,
        List.forall₂_cons_left_iff]
      constructor
      · rintro ⟨result, hItem, hRest⟩
        rcases bind_eq_ok_iff.mp hRest with
          ⟨later, hItems, ⟨⟩⟩
        exact ⟨result, later, hItem, ih.mp hItems, rfl⟩
      · rintro ⟨result, later, hItem, hItems, rfl⟩
        refine ⟨result, hItem, bind_eq_ok_iff.mpr ?_⟩
        exact ⟨later, ih.mpr hItems, rfl⟩

/- All items give results if each one does. -/
theorem exists_mapM_eq_ok_iff
    {step : α → Except ε β}
    {items : List α} :
    (∃ results, items.mapM step = .ok results) ↔
      ∀ item ∈ items, ∃ result, step item = .ok result := by
  simp only [mapM_eq_ok_iff]
  induction items with
  | nil =>
      exact iff_of_true ⟨[], .nil⟩ nofun
  | cons item items ih =>
      rw [List.forall_mem_cons, ← ih]
      constructor
      · rintro ⟨_, hResults⟩
        cases hResults with
        | cons hItem hItems =>
            exact ⟨⟨_, hItem⟩, ⟨_, hItems⟩⟩
      · rintro ⟨⟨result, hItem⟩, ⟨results, hItems⟩⟩
        exact ⟨result :: results, .cons hItem hItems⟩

/-
  If it does not depend on the state whether a step succeeds,
  steps succeed together if each one does.
-/
theorem exists_foldlM_eq_ok_iff
    {step : β → α → Except ε β}
    {Fits : α → Prop}
    (hStep : ∀ state item,
      (∃ after, step state item = .ok after) ↔ Fits item)
    (items : List α)
    (state : β) :
    (∃ after, items.foldlM step state = .ok after) ↔
      ∀ item ∈ items, Fits item := by
  induction items generalizing state with
  | nil => exact iff_of_true ⟨state, rfl⟩ nofun
  | cons item items ih =>
      simp only [List.foldlM_cons, bind_eq_ok_iff]
      rw [List.forall_mem_cons, ← hStep state item]
      constructor
      · rintro ⟨after, next, hItem, hItems⟩
        exact ⟨⟨next, hItem⟩, (ih next).mp ⟨after, hItems⟩⟩
      · rintro ⟨⟨next, hItem⟩, hFits⟩
        rcases (ih next).mpr hFits with ⟨after, hItems⟩
        exact ⟨after, next, hItem, hItems⟩

end Marginalia
