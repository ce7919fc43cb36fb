import Marginalia.Proofs.Literal.Progress

/-
  Reading replaces what a destination held: two runs on one
  text, from different contents, end alike.

  Key definitions include:
    * `EndAlike`
    * `Replaces`

  Main statements:
    * the rules for single actions and sequences
    * `Target.replaces_setValue`
    * `Descriptor.replaces_fill`
    * `Descriptor.read_replaces`
-/

namespace Marginalia

variable {ε σ κ α β δ : Type}

------------------------------------------------------------
-- Pairs of Runs
------------------------------------------------------------

/-
  How two runs of one action end: with the same result and
  the same state, or with the same error. After an error the
  states may differ, except for the part that is looked at.
-/
inductive EndAlike
    (part : σ → κ) :
    EStateM.Result ε σ α → EStateM.Result ε σ α → Prop where
  | ok
      (result : α)
      (state : σ) :
      EndAlike part (.ok result state) (.ok result state)
  | error
      (error : ε)
      {first second : σ}
      (hPart : part first = part second) :
      EndAlike part (.error error first)
        (.error error second)

theorem EndAlike.refl
    (part : σ → κ)
    (run : EStateM.Result ε σ α) :
    EndAlike part run run := by
  cases run with
  | ok result state => exact .ok result state
  | error error state => exact .error error rfl

/-
  The action replaces all of the state but the part that is
  looked at: states that agree in this part have runs that
  end alike.
-/
def Replaces
    (part : σ → κ)
    (action : EStateM ε σ α) : Prop :=
  ∀ first second,
    part first = part second →
      EndAlike part (action first) (action second)

namespace Replaces

variable {part : σ → κ}

/- An error leaves the state as it was. -/
theorem throw
    (error : ε) :
    Replaces part
      (MonadExcept.throw error : EStateM ε σ α) :=
  fun _ _ hPart => .error error hPart

/- A new state depends on nothing. -/
theorem set
    (state : σ) :
    Replaces part (MonadStateOf.set state : EStateM ε σ _) :=
  fun _ _ _ => .ok _ state

/- What follows goes on from the same state in both runs. -/
theorem bind
    {action : EStateM ε σ α}
    {next : α → EStateM ε σ β}
    (hAction : Replaces part action) :
    Replaces part (action >>= next) := by
  intro first second hPart
  have hRuns := hAction first second hPart
  rw [run_bind, run_bind]
  generalize action first = run at hRuns
  generalize action second = run' at hRuns
  cases hRuns with
  | ok result state => exact .refl part (next result state)
  | error error hRest => exact .error error hRest

theorem ite
    {p : Prop}
    [Decidable p]
    {action action' : EStateM ε σ α}
    (hTrue : Replaces part action)
    (hFalse : Replaces part action') :
    Replaces part (if p then action else action') := by
  by_cases hp : p
  · rw [if_pos hp]
    exact hTrue
  · rw [if_neg hp]
    exact hFalse

end Replaces

------------------------------------------------------------
-- Writing
------------------------------------------------------------

/- Whatever is there, the action writes the same. -/
def Write.Replaces
    (action : Write δ α) : Prop :=
  Marginalia.Replaces (fun _ => ()) action

namespace Target

theorem replaces_store
    (content : δ) :
    Write.Replaces (store content) :=
  Replaces.set content

theorem replaces_refuse
    (target : Target)
    (offer : Offer) :
    Write.Replaces
      (target.refuse offer : Write target.Content α) :=
  .throw _

theorem replaces_setMember
    (type : IntType)
    (n : Int) :
    Write.Replaces (setMember type n) := by
  unfold setMember
  split
  · exact .set _
  · exact .throw _

theorem replaces_setBool
    (target : Target)
    (value : Bool) :
    Write.Replaces (target.setBool value) := by
  induction target with
  | bool => exact replaces_store value
  | dynamic => exact replaces_store (Value.bool value)
  | box inner ih => exact ih
  | _ => exact replaces_refuse _ _

theorem replaces_setSigned
    (target : Target)
    (value : Int64) :
    Write.Replaces (target.setSigned value) := by
  induction target with
  | int type => exact replaces_setMember type _
  | dynamic => exact replaces_store (Value.int value)
  | box inner ih => exact ih
  | _ => exact replaces_refuse _ _

theorem replaces_setUnsigned
    (target : Target)
    (value : UInt64) :
    Write.Replaces (target.setUnsigned value) := by
  induction target with
  | int type => exact replaces_setMember type _
  | dynamic => exact replaces_store (Value.ofUnsigned value)
  | box inner ih => exact ih
  | _ => exact replaces_refuse _ _

theorem replaces_setString
    (target : Target)
    (value : String) :
    Write.Replaces (target.setString value) := by
  induction target with
  | string => exact replaces_store value
  | dynamic => exact replaces_store (Value.string value)
  | box inner ih => exact ih
  | _ => exact replaces_refuse _ _

theorem replaces_beginSlice
    (target : Target) :
    Write.Replaces target.beginSlice := by
  induction target with
  | list item => exact replaces_store _
  | dynamic => exact replaces_store (Value.slice [])
  | box inner ih => exact ih
  | _ => exact replaces_refuse _ _

theorem replaces_beginMap
    (target : Target) :
    Write.Replaces target.beginMap := by
  induction target with
  | map kind item => exact replaces_store _
  | dynamic => exact replaces_store (Value.map [])
  | box inner ih => exact ih
  | _ => exact replaces_refuse _ _

/- The bytes come after the list has been emptied. -/
theorem replaces_setRaw
    (target : Target)
    (bytes : List UInt8) :
    Write.Replaces (target.setRaw bytes) := by
  induction target with
  | list item => exact (replaces_beginSlice _).bind
  | dynamic => exact replaces_store (Value.string _)
  | box inner ih => exact ih
  | _ => exact replaces_refuse _ _

/- Items come after the list has been emptied. -/
theorem replaces_setValue_slice
    (target : Target)
    (items : List Value) :
    Write.Replaces (target.setValue (.slice items)) := by
  induction target with
  | list item => exact (replaces_beginSlice _).bind
  | dynamic => exact replaces_store (Value.slice items)
  | box inner ih => exact ih
  | _ => exact replaces_refuse _ _

/- Entries come after the map has been emptied. -/
theorem replaces_setValue_map
    (target : Target)
    (entries : List (String × Value)) :
    Write.Replaces (target.setValue (.map entries)) := by
  induction target with
  | map kind item => exact (replaces_beginMap _).bind
  | dynamic => exact replaces_store (Value.map entries)
  | box inner ih => exact ih
  | _ => exact replaces_refuse _ _

theorem replaces_setValue
    (target : Target)
    (value : Value) :
    Write.Replaces (target.setValue value) := by
  induction target with
  | dynamic => exact replaces_store value
  | box inner ih => exact ih
  | _ =>
      cases value with
      | null => exact replaces_refuse _ _
      | bool value => exact replaces_setBool _ value
      | int value => exact replaces_setSigned _ value
      | uint value => exact replaces_setUnsigned _ value
      | string value => exact replaces_setString _ value
      | slice items => exact replaces_setValue_slice _ items
      | map entries => exact replaces_setValue_map _ entries

end Target

------------------------------------------------------------
-- Reading into a Destination
------------------------------------------------------------

namespace Replaces

/- What is read does not depend on the destination. -/
theorem read
    {action : Scan α}
    {next : α → Fill δ β}
    (hNext : ∀ result, Replaces Prod.fst (next result)) :
    Replaces Prod.fst (liftM action >>= next) := by
  rintro ⟨cursor, first⟩ ⟨_, second⟩ rfl
  rw [run_bind, run_bind, Fill.run_lift, Fill.run_lift]
  cases action cursor with
  | ok result cursor' => exact hNext result _ _ rfl
  | error error cursor' => exact .error error rfl

theorem store
    {action : Write δ α}
    (hAction : Write.Replaces action)
    (literal : String)
    (start : Nat) :
    Replaces Prod.fst
      (Fill.store (σ := Cursor) action literal start) := by
  rintro ⟨cursor, first⟩ ⟨_, second⟩ rfl
  have hRuns := hAction first second rfl
  rw [Fill.run_store, Fill.run_store]
  generalize action first = run at hRuns
  generalize action second = run' at hRuns
  cases hRuns with
  | ok result content => exact .ok result (cursor, content)
  | error rejection => exact .error _ rfl

theorem wrong
    (expected : Expected)
    (found : String)
    (start : Nat) :
    Replaces Prod.fst
      (liftM (Scan.wrong expected found start : Scan α) :
        Fill δ α) := by
  rintro ⟨cursor, first⟩ ⟨_, second⟩ rfl
  exact .error _ rfl

theorem unexpected
    (expected : Expected)
    (start : Nat) :
    Replaces Prod.fst
      (liftM (Scan.unexpected expected start : Scan α) :
        Fill δ α) := by
  rintro ⟨cursor, first⟩ ⟨_, second⟩ rfl
  rcases Scan.exists_run_unexpected expected start cursor
    with ⟨found, cursor', hRun⟩
  rw [Fill.run_lift, Fill.run_lift, hRun α]
  exact .error _ rfl

end Replaces

------------------------------------------------------------
-- The Grammars
------------------------------------------------------------

namespace Literal

theorem replaces_fillBool
    (target : Target) :
    Replaces Prod.fst (fillBool (σ := Cursor) target) := by
  rw [fillBool_eq]
  refine .read fun start => .read fun word => ?_
  unfold storeBool
  split
  · exact .store (target.replaces_setBool true) _ start
  · exact .store (target.replaces_setBool false) _ start
  · exact .unexpected _ start
  · exact .wrong _ _ start

theorem replaces_fillSigned
    (target : Target) :
    Replaces Prod.fst (fillSigned (σ := Cursor) target) := by
  rw [fillSigned_eq]
  refine .read fun start => .read fun negative =>
    .read fun digitsStart => .read fun digits => ?_
  refine .ite (.unexpected _ _) ?_
  unfold storeSigned
  refine .ite (.store ?_ _ start) (.throw _)
  exact target.replaces_setSigned _

theorem replaces_fillUnsigned
    (target : Target) :
    Replaces Prod.fst (fillUnsigned (σ := Cursor) target) := by
  rw [fillUnsigned_eq]
  refine .read fun start => .read fun first => ?_
  refine .ite (.unexpected _ _) ?_
  refine .read fun digits => .ite (.unexpected _ _) ?_
  unfold storeUnsigned
  refine .ite (.store ?_ _ start) (.throw _)
  exact target.replaces_setUnsigned _

theorem replaces_fillString
    (target : Target) :
    Replaces Prod.fst (fillString (σ := Cursor) target) :=
  .read fun start =>
    .read fun value =>
      .store (target.replaces_setString value) _ start

theorem replaces_fillRaw
    (frame : Frame)
    (target : Target) :
    Replaces Prod.fst
      (fillRaw (σ := Cursor) frame target) := by
  refine .read fun start => ?_
  cases frame with
  | whole =>
      exact .read fun raw =>
        .store (target.replaces_setRaw _) raw start
  | group | run =>
      exact .read fun raw =>
        .store (target.replaces_setRaw _) raw start

theorem replaces_fillAny
    (element : Scan Value)
    (frame : Frame)
    (target : Target) :
    Replaces Prod.fst (fillAny element frame target) :=
  .read fun start =>
    .read fun value =>
      .store (target.replaces_setValue value) _ start

/- Once a slice has begun, nothing of the old one is left. -/
theorem replaces_fillSlice
    (item : ItemReader)
    (frame : Frame)
    (target : Target) :
    Replaces Prod.fst (fillSlice item frame target) :=
  .read fun start =>
    .bind (.store target.replaces_beginSlice _ start)

theorem replaces_fillMap
    (item : ItemReader)
    (target : Target) :
    Replaces Prod.fst (fillMap item target) := by
  rw [fillMap_eq]
  refine .read fun start => .read fun first => ?_
  refine .ite ?_ (.unexpected _ _)
  exact .bind (.store target.replaces_beginMap _ start)

end Literal

------------------------------------------------------------
-- Descriptors
------------------------------------------------------------

namespace Descriptor

open Literal

theorem replaces_fillFlat
    (descriptor : Descriptor)
    (frame : Frame)
    (target : Target) :
    Replaces Prod.fst
      (descriptor.fillFlat (σ := Cursor) frame target) := by
  unfold fillFlat
  split
  · exact replaces_fillBool target
  · exact replaces_fillSigned target
  · exact replaces_fillUnsigned target
  · exact replaces_fillString target
  · exact replaces_fillRaw frame target
  · exact replaces_fillAny element frame target
  · exact .throw _
  · exact .throw _
  · exact .throw _

/- Every grammar replaces what the destination held. -/
theorem replaces_fill
    (descriptor : Descriptor)
    (frame : Frame)
    (target : Target) :
    Replaces Prod.fst
      (descriptor.fill (σ := Cursor) frame target) := by
  rw [fill_eq]
  refine .read fun _ => ?_
  split
  · exact replaces_fillSlice _ frame target
  · exact replaces_fillMap _ target
  · exact replaces_fillFlat _ frame target

/- Runs that end alike have the same outcome. -/
theorem outcomeOf_replaces
    {action : Fill δ Unit}
    (hAction : Replaces Prod.fst action)
    (cursor : Cursor)
    (first second : δ) :
    (outcomeOf action cursor first).result =
        (outcomeOf action cursor second).result ∧
      ((outcomeOf action cursor first).result = .ok () →
        (outcomeOf action cursor first).content =
          (outcomeOf action cursor second).content) := by
  have hRuns := hAction (cursor, first) (cursor, second) rfl
  unfold outcomeOf
  generalize action (cursor, first) = run at hRuns ⊢
  generalize action (cursor, second) = run' at hRuns ⊢
  cases hRuns with
  | ok result state => exact ⟨rfl, fun _ => rfl⟩
  | error error hCursor => exact ⟨rfl, nofun⟩

/-
  Reading a text into a destination gives the same result
  whatever the destination holds, and if it succeeds, then
  nothing of that is left.
-/
theorem read_replaces
    (descriptor : Descriptor)
    (text : String)
    (target : Target)
    (first second : target.Content) :
    (descriptor.read text target first).result =
        (descriptor.read text target second).result ∧
      ((descriptor.read text target first).result = .ok () →
        (descriptor.read text target first).content =
          (descriptor.read text target second).content) :=
  outcomeOf_replaces
    (replaces_fill descriptor .whole target).bind _ first
    second

/- A map with a key that comes again, and two old maps. -/
theorem read_replaces_renewed_key :
    ((nested .map (.plain .bool)).read
        "\x7ba:true, a:false\x7d" .dynamic
        Value.null).result = .ok () ∧
      ((nested .map (.plain .bool)).read
          "\x7ba:true, a:false\x7d" .dynamic
          Value.null).content =
        ((nested .map (.plain .bool)).read
          "\x7ba:true, a:false\x7d" .dynamic
          (Value.map [("a", .null), ("b", .null)])).content := by
  have hResult :
      ((nested .map (.plain .bool)).read
        "\x7ba:true, a:false\x7d" .dynamic
        Value.null).result = .ok () := by
    rfl
  exact ⟨hResult, (read_replaces _ _ _ _ _).2 hResult⟩

end Descriptor

end Marginalia
