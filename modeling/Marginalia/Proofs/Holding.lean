import Marginalia.Target
import Marginalia.Proofs.Entries
import Marginalia.Proofs.Run
import Mathlib.Data.List.Forall2

/-
  Writing a value into a destination with a type of its own is
  exact: it succeeds if and only if some content of the type
  holds the value, and leaves that content.

  Key definitions include:
    * `Value.Ordered`
    * `Target.Holds`

  Main statements:
    * `Target.appendItems_eq_ok_iff`
    * `Target.renewEntries_eq_ok_iff`
    * `Target.setValue_eq_ok_iff_holds`
-/

namespace Marginalia

------------------------------------------------------------
-- Values and Contents
------------------------------------------------------------

/- At every level, maps list their entries by ascending key. -/
inductive Value.Ordered : Value → Prop
  | null : Ordered .null
  | bool (value : Bool) : Ordered (.bool value)
  | int (value : Int64) : Ordered (.int value)
  | uint (value : UInt64) : Ordered (.uint value)
  | string (value : String) : Ordered (.string value)
  | slice
      {items : List Value}
      (hItems : ∀ item ∈ items, Ordered item) :
      Ordered (.slice items)
  | map
      {entries : List (String × Value)}
      (hAscending : AscendingKeys entries)
      (hEntries : ∀ entry ∈ entries, Ordered entry.2) :
      Ordered (.map entries)

namespace Target

/-
  The content is what the value says, in the terms of the
  type: the same number, the same items one by one, the same
  keys with what they stand for. A destination without a type
  of its own holds the value itself.
-/
def Holds :
    (target : Target) → target.Content → Value → Prop
  | bool, (content : Bool), value => value = .bool content
  | int _, (member : IntType.Member _), value =>
      value.integer? = some member.val
  | string, (content : String), value =>
      value = .string content
  | dynamic, (content : Value), value => content = value
  | list item, (items : List item.Content), value =>
      ∃ values,
        value = .slice values ∧
          List.Forall₂ item.Holds items values
  | map _ item, (entries : Entries item.Content), value =>
      ∃ written,
        value = .map written ∧
          ∀ key,
            Option.Rel item.Holds (entries.get? key)
              (written.lookup key)
  | box inner, content, value => inner.Holds content value

------------------------------------------------------------
-- Single Writes
------------------------------------------------------------

theorem store_eq_ok_iff
    {δ : Type}
    {content old final : δ} :
    store content old = .ok () final ↔ final = content := by
  constructor
  · rintro ⟨⟩
    rfl
  · rintro rfl
    rfl

/- A number is written if it is a member of the type. -/
theorem setMember_eq_ok_iff
    {type : IntType}
    {n : Int}
    {old final : type.Member} :
    setMember type n old = .ok () final ↔ n = final.val := by
  unfold setMember IntType.member?
  by_cases hMember : type.low ≤ n ∧ n ≤ type.high
  · rw [dif_pos hMember]
    constructor
    · rintro ⟨⟩
      rfl
    · rintro rfl
      rfl
  · rw [dif_neg hMember]
    constructor
    · rintro ⟨⟩
    · rintro rfl
      exact absurd final.property hMember

end Target

/- A place is written as a destination of its own. -/
theorem Child.write_eq_ok_iff
    {α : Type}
    {target : Target}
    {child : Child target}
    {action : Write child.inner.Content α}
    {result : α}
    {old final : target.Content} :
    child.write action old = .ok result final ↔
      ∃ content,
        action child.inner.fresh = .ok result content ∧
          final = child.put content := by
  unfold Child.write
  cases action child.inner.fresh with
  | error rejection content => simp
  | ok found content =>
      constructor
      · rintro ⟨⟩
        exact ⟨content, rfl, rfl⟩
      · rintro ⟨_, ⟨⟩, rfl⟩
        rfl

------------------------------------------------------------
-- Items and Entries
------------------------------------------------------------

namespace Target

variable {item : Target}
variable {action : Write item.Content Unit}

theorem appendItem_eq_ok_iff
    {items final : List item.Content} :
    appendItem item action items = .ok () final ↔
      ∃ content,
        action item.fresh = .ok () content ∧
          final = items ++ [content] :=
  Child.write_eq_ok_iff

theorem renewEntry_eq_ok_iff
    {kind : MapKind}
    {key : String}
    {entries final : Entries item.Content} :
    renewEntry kind item key action entries =
        .ok () final ↔
      ∃ content,
        action item.fresh = .ok () content ∧
          final = entries.insert key content :=
  Child.write_eq_ok_iff

theorem holds_slice_iff
    {items : List item.Content}
    {values : List Value} :
    (list item).Holds items (.slice values) ↔
      List.Forall₂ item.Holds items values := by
  constructor
  · rintro ⟨_, ⟨⟩, hHolds⟩
    exact hHolds
  · intro hHolds
    exact ⟨values, rfl, hHolds⟩

theorem holds_map_iff
    {kind : MapKind}
    {entries : Entries item.Content}
    {written : List (String × Value)} :
    (map kind item).Holds entries (.map written) ↔
      ∀ key,
        Option.Rel item.Holds (entries.get? key)
          (written.lookup key) := by
  constructor
  · rintro ⟨_, ⟨⟩, hHolds⟩
    exact hHolds
  · intro hHolds
    exact ⟨written, rfl, hHolds⟩

/- The items that are appended are those that hold the values. -/
theorem appendItems_eq_ok_iff
    {values : List Value}
    (hItem : ∀ value ∈ values, ∀ final,
      item.setValue value item.fresh = .ok () final ↔
        item.Holds final value)
    (items final : List item.Content) :
    (values.forM fun value =>
        appendItem item (item.setValue value) :
      Write (list item).Content Unit) items = .ok () final ↔
      ∃ added,
        final = items ++ added ∧
          List.Forall₂ item.Holds added values := by
  induction values generalizing items with
  | nil =>
      constructor
      · rintro ⟨⟩
        exact ⟨[], (List.append_nil _).symm, .nil⟩
      · rintro ⟨_, rfl, ⟨⟩⟩
        rw [List.append_nil]
        rfl
  | cons value values ih =>
      rw [List.forall_mem_cons] at hItem
      constructor
      · intro hRun
        rcases run_bind_eq_ok.mp hRun with
          ⟨_, middle, hFirst, hRest⟩
        rcases appendItem_eq_ok_iff.mp hFirst with
          ⟨content, hContent, rfl⟩
        rcases (ih hItem.2 _).mp hRest with
          ⟨added, rfl, hAdded⟩
        exact ⟨content :: added, by simp,
          .cons ((hItem.1 content).mp hContent) hAdded⟩
      · rintro ⟨_, rfl, hHolds⟩
        cases hHolds with
        | @cons content _ added _ hContent hAdded =>
            have hFirst :
                appendItem item (item.setValue value) items =
                  .ok () (items ++ [content]) :=
              appendItem_eq_ok_iff.mpr
                ⟨content, (hItem.1 content).mpr hContent, rfl⟩
            have hRest :=
              (ih hItem.2 (items ++ [content])).mpr
                ⟨added, by simp, hAdded⟩
            exact run_bind_eq_ok.mpr
              ⟨(), items ++ [content], hFirst, hRest⟩

/-
  What stands under a key afterwards holds the value that is
  written there; if there is none, it is what stood before.
-/
def Renews
    (item : Target)
    (before after : Option item.Content) :
    Option Value → Prop
  | some value =>
      ∃ content,
        after = some content ∧ item.Holds content value
  | none => after = before

/- Where nothing stood before, all that is there is written. -/
theorem renews_none_iff
    {after : Option item.Content}
    {value? : Option Value} :
    Renews item none after value? ↔
      Option.Rel item.Holds after value? := by
  cases value? with
  | none =>
      constructor
      · rintro rfl
        exact .none
      · rintro ⟨⟩
        rfl
  | some value =>
      constructor
      · rintro ⟨content, rfl, hContent⟩
        exact .some hContent
      · rintro ⟨hContent⟩
        exact ⟨_, rfl, hContent⟩

/-
  To renew the first of several keys and then the others is to
  renew all of them, since the first one is not among the
  others.
-/
theorem renews_cons_iff
    {first : String}
    {value : Value}
    {written : List (String × Value)}
    {entries final : Entries item.Content}
    (hAbsent : written.lookup first = none) :
    (∀ key,
        Renews item (entries.get? key) (final.get? key)
          (((first, value) :: written).lookup key)) ↔
      ∃ content,
        item.Holds content value ∧
          ∀ key,
            Renews item
              ((entries.insert first content).get? key)
              (final.get? key) (written.lookup key) := by
  constructor
  · intro hKeys
    have hOwn := hKeys first
    rw [lookup_entry_cons, if_pos rfl] at hOwn
    rcases hOwn with ⟨content, hFound, hContent⟩
    refine ⟨content, hContent, fun key => ?_⟩
    have hKey := hKeys key
    rw [lookup_entry_cons] at hKey
    rw [Entries.get?_insert]
    by_cases hSame : key = first
    · subst hSame
      rw [if_pos rfl, hAbsent]
      exact hFound
    · rw [if_neg hSame] at hKey ⊢
      exact hKey
  · rintro ⟨content, hContent, hKeys⟩ key
    have hKey := hKeys key
    rw [Entries.get?_insert] at hKey
    rw [lookup_entry_cons]
    by_cases hSame : key = first
    · subst hSame
      rw [if_pos rfl, hAbsent] at hKey
      rw [if_pos rfl]
      exact ⟨content, hKey, hContent⟩
    · rw [if_neg hSame] at hKey ⊢
      exact hKey

/- The entries that are renewed hold the values under them. -/
theorem renewEntries_eq_ok_iff
    (kind : MapKind)
    {written : List (String × Value)}
    (hItem : ∀ entry ∈ written, ∀ final,
      item.setValue entry.2 item.fresh = .ok () final ↔
        item.Holds final entry.2)
    (hAscending : AscendingKeys written)
    (entries final : Entries item.Content) :
    (written.forM fun entry =>
        renewEntry kind item entry.1 (item.setValue entry.2) :
      Write (map kind item).Content Unit) entries =
        .ok () final ↔
      ∀ key,
        Renews item (entries.get? key) (final.get? key)
          (written.lookup key) := by
  induction written generalizing entries with
  | nil =>
      constructor
      · rintro ⟨⟩ key
        rfl
      · intro hSame
        rw [Entries.ext_get? hSame]
        rfl
  | cons entry written ih =>
      rcases entry with ⟨first, value⟩
      rw [List.forall_mem_cons] at hItem
      rcases List.pairwise_cons.mp hAscending with
        ⟨hFirst, hLater⟩
      rw [renews_cons_iff (lookup_eq_none_of_lt hFirst)]
      constructor
      · intro hRun
        rcases run_bind_eq_ok.mp hRun with
          ⟨_, middle, hWrite, hRest⟩
        rcases renewEntry_eq_ok_iff.mp hWrite with
          ⟨content, hContent, rfl⟩
        exact ⟨content, (hItem.1 content).mp hContent,
          (ih hItem.2 hLater _).mp hRest⟩
      · rintro ⟨content, hContent, hKeys⟩
        have hWrite :
            renewEntry kind item first (item.setValue value)
                entries =
              .ok () (entries.insert first content) :=
          renewEntry_eq_ok_iff.mpr
            ⟨content, (hItem.1 content).mpr hContent, rfl⟩
        have hRest := (ih hItem.2 hLater _).mpr hKeys
        exact run_bind_eq_ok.mpr ⟨(), _, hWrite, hRest⟩

------------------------------------------------------------
-- All Types
------------------------------------------------------------

/-
  A value is written if and only if there is a content of the
  type that holds it, and what is left is this content. It
  does not matter what was there before.
-/
theorem setValue_eq_ok_iff_holds
    {value : Value}
    (hValue : value.Ordered)
    (target : Target)
    (old final : target.Content) :
    target.setValue value old = .ok () final ↔
      target.Holds final value := by
  induction target generalizing value with
  | bool =>
      cases value with
      | bool value =>
          refine store_eq_ok_iff.trans ?_
          constructor
          · rintro rfl
            rfl
          · rintro ⟨⟩
            rfl
      | _ => exact iff_of_false nofun nofun
  | int type =>
      cases value with
      | int value =>
          exact setMember_eq_ok_iff.trans
            Option.some_inj.symm
      | uint value =>
          exact setMember_eq_ok_iff.trans
            Option.some_inj.symm
      | _ => exact iff_of_false nofun nofun
  | string =>
      cases value with
      | string value =>
          refine store_eq_ok_iff.trans ?_
          constructor
          · rintro rfl
            rfl
          · rintro ⟨⟩
            rfl
      | _ => exact iff_of_false nofun nofun
  | dynamic => exact store_eq_ok_iff
  | list item ih =>
      cases hValue with
      | @slice values hItems =>
          have hWrites :=
            appendItems_eq_ok_iff
              (fun value hMember final =>
                ih (hItems value hMember) item.fresh final)
              [] final
          refine (hWrites.trans ?_).trans holds_slice_iff.symm
          constructor
          · rintro ⟨added, rfl, hAdded⟩
            exact hAdded
          · intro hHolds
            exact ⟨final, rfl, hHolds⟩
      | _ => exact iff_of_false nofun nofun
  | map kind item ih =>
      cases hValue with
      | @map written hAscending hEntries =>
          have hWrites :=
            renewEntries_eq_ok_iff kind
              (fun entry hMember final =>
                ih (hEntries entry hMember) item.fresh final)
              hAscending Entries.empty final
          refine (hWrites.trans ?_).trans holds_map_iff.symm
          exact forall_congr' fun _ => renews_none_iff
      | _ => exact iff_of_false nofun nofun
  | box inner ih => exact ih hValue old final

/- Bytes from integers with a sign and without, under a key. -/
theorem setValue_eq_ok_iff_holds_bytes :
    ∃ value old final,
      value.Ordered ∧
        (map .hashed (list (int .u8))).Holds final value ∧
          (map .hashed (list (int .u8))).setValue value old =
            .ok () final := by
  let value : Value :=
    .map [("a", .slice [.uint 200, .int 3]), ("b", .slice [])]
  let old : Entries (List IntType.u8.Member) :=
    Entries.empty.insert "z" [IntType.u8.zero]
  let final : Entries (List IntType.u8.Member) :=
    (Entries.empty.insert "a"
      [⟨200, by decide⟩, ⟨3, by decide⟩]).insert "b" []
  have hValue : value.Ordered := by
    refine .map (by decide) ?_
    simp only [List.forall_mem_cons, List.not_mem_nil]
    exact ⟨.slice (by simp [Value.Ordered.uint,
      Value.Ordered.int]), .slice (by simp), nofun⟩
  have hRun :
      (map .hashed (list (int .u8))).setValue value old =
        .ok () final :=
    rfl
  exact ⟨value, old, final, hValue,
    (setValue_eq_ok_iff_holds hValue _ _ _).mp hRun, hRun⟩

end Target

end Marginalia
