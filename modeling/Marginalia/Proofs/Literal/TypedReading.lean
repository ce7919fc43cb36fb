import Marginalia.Proofs.Agreement
import Marginalia.Proofs.Embedding

/-
  Reading into a type and reading into a value agree: what
  the type holds is what the value is, unless an integer is
  too wide for the type.

  Main statements:
    * `Descriptor.fill_alike`
    * `Target.read_agrees`
-/

namespace Marginalia

namespace Literal

------------------------------------------------------------
-- Boxes
------------------------------------------------------------

variable {item : ItemReader}
variable {inner : Target}

/- The place inside of a box. -/
def inBox
    (child : Child inner) : Child (.box inner) :=
  ⟨child.inner, child.put⟩

theorem within_inBox
    {α : Type}
    (child : Child inner)
    (action : Fill child.inner.Content α) :
    Fill.within (inBox child) action =
      (Fill.within child action :
        Fill inner.Content α) := by
  funext ⟨cursor, content⟩
  unfold Fill.within
  dsimp only [inBox]
  cases action (cursor, child.inner.fresh) with
  | ok result state => rfl
  | error error state => rfl

theorem fillItem_box
    (item : ItemReader)
    (frame : Frame)
    (inner : Target) :
    fillItem item frame (.box inner) =
      (fillItem item frame inner :
        Fill inner.Content Unit) := by
  funext ⟨cursor, content⟩
  have hNext :
      (Target.box inner).nextItem content =
        (inner.nextItem content).map inBox :=
    rfl
  have hBox :=
    run_fillItem item frame (.box inner) cursor content
  have hInner :=
    run_fillItem item frame inner cursor content
  rw [hNext] at hBox
  cases hCase : inner.nextItem content with
  | ok child =>
      have hSame := within_inBox child
        (item frame child.inner)
      rw [hCase] at hBox hInner
      exact hBox.trans ((congrFun hSame _).trans hInner.symm)
  | error rejection =>
      rw [hCase] at hBox hInner
      exact hBox.trans hInner.symm

theorem sliceRound_box
    (item : ItemReader)
    (frame : Frame)
    (inner : Target) :
    sliceRound item frame (.box inner) =
      (sliceRound item frame inner :
        Fill inner.Content Bool) := by
  unfold sliceRound
  rw [fillItem_box]
  rfl

theorem fillSlice_box
    (item : ItemReader)
    (frame : Frame)
    (inner : Target) :
    fillSlice item frame (.box inner) =
      (fillSlice item frame inner :
        Fill inner.Content Unit) := by
  rw [fillSlice_eq, fillSlice_eq, fillItem_box,
    sliceRound_box]
  rfl

theorem fillUnder_box
    (item : ItemReader)
    (inner : Target)
    (key : String)
    (start : Nat) :
    fillUnder item (.box inner) key start =
      (fillUnder item inner key start :
        Fill inner.Content Unit) := by
  funext ⟨cursor, content⟩
  have hEntry :
      (Target.box inner).entryOf key content =
        (inner.entryOf key content).map inBox :=
    rfl
  have hBox :=
    run_fillUnder item (.box inner) key start cursor content
  have hInner :=
    run_fillUnder item inner key start cursor content
  rw [hEntry] at hBox
  cases hCase : inner.entryOf key content with
  | ok child =>
      have hSame := within_inBox child
        (item .group child.inner)
      rw [hCase] at hBox hInner
      exact hBox.trans ((congrFun hSame _).trans hInner.symm)
  | error rejection =>
      rw [hCase] at hBox hInner
      exact hBox.trans hInner.symm

theorem fillMap_box
    (item : ItemReader)
    (inner : Target) :
    fillMap item (.box inner) =
      (fillMap item inner : Fill inner.Content Unit) := by
  rw [fillMap_eq, fillMap_eq, fillEntry_eq, fillEntry_eq]
  simp only [fillUnder_box]
  rfl

------------------------------------------------------------
-- Scalars
------------------------------------------------------------

/-
  Whatever was there before, the type then holds what the
  value is.
-/
abbrev ReadAlike
    (target : Target)
    (typed : Fill target.Content Unit)
    (dynamic : Fill Value Unit) : Prop :=
  Agrees (fun _ _ => True) typed dynamic
    (fun content value => value = target.embed content)
    target.Exceeds

theorem fillBool_alike :
    ReadAlike .bool (fillBool .bool)
      (fillBool .dynamic) := by
  have hStore :
      ∀ value word start,
        ReadAlike .bool
          (Fill.store (Target.bool.setBool value) word start)
          (Fill.store (Target.dynamic.setBool value) word
            start) := by
    intro value word start
    apply Agrees.store
    intro content value' _
    exact ⟨(), value, .bool value, rfl, rfl, rfl⟩
  rw [fillBool_eq, fillBool_eq]
  apply Agrees.read
  intro start
  apply Agrees.read
  intro word
  unfold storeBool
  split
  · exact hStore true _ _
  · exact hStore false _ _
  · exact .unexpected _ _
  · exact .wrong _ _ _

theorem setMember_of_member
    {type : IntType}
    {n : Int}
    (hMember : type.low ≤ n ∧ n ≤ type.high)
    (content : type.Member) :
    Target.setMember type n content =
      .ok () ⟨n, hMember⟩ := by
  unfold Target.setMember IntType.member?
  rw [dif_pos hMember]
  rfl

theorem setMember_of_beyond
    {type : IntType}
    {n : Int}
    (hBeyond : ¬ (type.low ≤ n ∧ n ≤ type.high))
    (content : type.Member) :
    Target.setMember type n content =
      .error (.overflow type) content := by
  unfold Target.setMember IntType.member?
  rw [dif_neg hBeyond]
  rfl

/-
  An integer is written to an integer type if it is a member
  of it; the value is written anyhow.
-/
theorem store_member_alike
    {type : IntType}
    {n : Int}
    {value : Value}
    (hValue : Value.ofInteger n = value)
    (hAdmits :
      type.low ≤ n ∧ n ≤ type.high ↔
        type.shape.admits value = true)
    (literal : String)
    (start : Nat) :
    Agrees (fun _ _ => True)
      (Fill.store (Target.setMember type n) literal start)
      (Fill.store (Target.store value) literal start)
      (fun member value =>
        value = Value.ofInteger member.val)
      (Target.Exceeds (.int type)) := by
  by_cases hMember : type.low ≤ n ∧ n ≤ type.high
  · apply Agrees.store
    intro content other _
    exact ⟨(), ⟨n, hMember⟩, value,
      setMember_of_member hMember content, rfl,
      hValue.symm⟩
  · intro cursor content other _
    rw [Fill.run_store, Fill.run_store,
      setMember_of_beyond hMember]
    apply Paired.overflow
    · trivial
    · apply Or.inr
      intro position hBounds
      have hCheck :=
        (Target.checkBounds_int_iff type).mp hBounds
      exact hMember (hAdmits.mpr hCheck)

theorem fillSigned_alike
    {type : IntType}
    (hSigned : type.signed = true) :
    ReadAlike (.int type) (fillSigned (.int type))
      (fillSigned .dynamic) := by
  rw [fillSigned_eq, fillSigned_eq]
  apply Agrees.read
  intro start
  apply Agrees.read
  intro negative
  apply Agrees.read
  intro digitsStart
  apply Agrees.read
  intro digits
  apply Agrees.ite
  · intro _
    exact .unexpected _ _
  · intro _
    unfold storeSigned
    apply Agrees.ite
    · intro _
      exact store_member_alike (Target.ofInteger_toInt _)
        (Target.admits_int_iff hSigned _).symm _ _
    · intro _
      exact .throw _

theorem fillUnsigned_alike
    {type : IntType}
    (hSigned : type.signed = false) :
    ReadAlike (.int type) (fillUnsigned (.int type))
      (fillUnsigned .dynamic) := by
  have hAdmits :
      ∀ value : UInt64,
        type.low ≤ (value.toNat : Int) ∧
            (value.toNat : Int) ≤ type.high ↔
          type.shape.admits (.ofUnsigned value) = true := by
    intro value
    rw [Target.admits_ofUnsigned_iff hSigned]
    have hLow : type.low = 0 := by
      simp [IntType.low, hSigned]
    omega
  rw [fillUnsigned_eq, fillUnsigned_eq]
  apply Agrees.read
  intro start
  apply Agrees.read
  intro next
  apply Agrees.ite
  · intro _
    exact .unexpected _ _
  · intro _
    apply Agrees.read
    intro digits
    apply Agrees.ite
    · intro _
      exact .unexpected _ _
    · intro _
      unfold storeUnsigned
      apply Agrees.ite
      · intro _
        exact store_member_alike (Target.ofInteger_toNat _)
          (hAdmits _) _ _
      · intro _
        exact .throw _

theorem fillString_alike :
    ReadAlike .string (fillString .string)
      (fillString .dynamic) := by
  apply Agrees.read
  intro start
  apply Agrees.read
  intro value
  apply Agrees.store
  intro content other _
  exact ⟨(), value, .string value, rfl, rfl, rfl⟩

/- A value is read into a value. -/
theorem fillAny_alike
    (frame : Frame) :
    ReadAlike .dynamic (fillAny element frame .dynamic)
      (fillAny element frame .dynamic) := by
  apply Agrees.read
  intro start
  apply Agrees.read
  intro value
  apply Agrees.store
  intro content other _
  exact ⟨(), value, value, rfl, rfl, rfl⟩

/- A byte is appended to bytes. -/
theorem appendItem_byte
    (byte : UInt8)
    (bytes : List IntType.u8.Member) :
    ∃ member : IntType.u8.Member,
      Target.byteOf member = byte ∧
        Target.appendItem (.int .u8)
            (Target.setUnsigned (.int .u8) byte.toUInt64)
            bytes =
          .ok () (bytes ++ [member]) := by
  have hLess := byte.toNat_lt
  have hHigh : IntType.u8.high = 255 := by
    decide
  have hMember :
      IntType.u8.low ≤ (byte.toUInt64.toNat : Int) ∧
        (byte.toUInt64.toNat : Int) ≤ IntType.u8.high := by
    rw [hHigh, UInt8.toNat_toUInt64]
    exact ⟨Int.natCast_nonneg _, by omega⟩
  refine ⟨⟨byte.toUInt64.toNat, hMember⟩, ?_, ?_⟩
  · unfold Target.byteOf
    simp
  · have hRun :
        Target.setUnsigned (.int .u8) byte.toUInt64
            (@Target.itemAfter (.int .u8) bytes).inner.fresh =
          .ok () ⟨byte.toUInt64.toNat, hMember⟩ :=
      setMember_of_member hMember IntType.u8.zero
    unfold Target.appendItem Child.write
    rw [hRun]
    rfl

/- All bytes are appended. -/
theorem appendItems_bytes
    (bytes : List UInt8) :
    ∀ before : List IntType.u8.Member,
      ∃ members : List IntType.u8.Member,
        members.map Target.byteOf = bytes ∧
          (bytes.forM fun byte =>
            Target.appendItem (.int .u8)
              (Target.setUnsigned (.int .u8)
                byte.toUInt64)) before =
            .ok () (before ++ members) := by
  induction bytes with
  | nil =>
      intro before
      refine ⟨[], rfl, ?_⟩
      rw [List.append_nil]
      rfl
  | cons byte bytes ih =>
      intro before
      rcases appendItem_byte byte before with
        ⟨member, hByte, hRun⟩
      rcases ih (before ++ [member]) with
        ⟨members, hBytes, hRest⟩
      refine ⟨member :: members, ?_, ?_⟩
      · rw [List.map_cons, hByte, hBytes]
      · rw [List.append_assoc] at hRest
        exact (run_bind_of_ok hRun).trans hRest

/- A list of bytes takes all of them. -/
theorem setRaw_bytes
    (bytes : List UInt8)
    (content : List IntType.u8.Member) :
    ∃ members : List IntType.u8.Member,
      members.map Target.byteOf = bytes ∧
        Target.setRaw (.list (.int .u8)) bytes content =
          .ok () members := by
  rcases appendItems_bytes bytes [] with
    ⟨members, hBytes, hRun⟩
  exact ⟨members, hBytes, hRun⟩

theorem fillRaw_alike
    (frame : Frame) :
    ReadAlike (.list (.int .u8))
      (fillRaw frame (.list (.int .u8)))
      (fillRaw frame .dynamic) := by
  have hStore :
      ∀ (raw : String) (start : Nat),
        ReadAlike (.list (.int .u8))
          (Fill.store
            (Target.setRaw (.list (.int .u8))
              raw.toUTF8.data.toList) raw start)
          (Fill.store
            (Target.setRaw .dynamic
              raw.toUTF8.data.toList) raw start) := by
    intro raw start
    apply Agrees.store
    intro content other _
    rcases setRaw_bytes raw.toUTF8.data.toList content with
      ⟨members, hBytes, hRun⟩
    refine ⟨(), members, _, hRun, rfl, ?_⟩
    show _ = Value.string (String.ofList (Text.decodeLossy
      (List.map Target.byteOf members)))
    rw [hBytes]
  apply Agrees.read
  intro start
  cases frame with
  | whole => exact .read fun raw => hStore raw start
  | group => exact .read fun raw => hStore raw start
  | run => exact .read fun raw => hStore raw start

------------------------------------------------------------
-- Slices
------------------------------------------------------------

/- A slice in which some item has the property. -/
def SliceWith
    (p : Value → Prop) : Value → Prop
  | .slice items => ∃ item ∈ items, p item
  | _ => False

/- The slice has the items of the list. -/
def SliceAs
    (target : Target)
    (items : List target.Content)
    (value : Value) : Prop :=
  value = .slice (items.map target.embed)

/- Items are not taken out of a slice. -/
theorem fillItem_sliceWith
    (hItem : item.Leaves True fun _ => True)
    (p : Value → Prop)
    (frame : Frame) :
    Sound True (SliceWith p) (fillItem item frame .dynamic)
      (SliceWith p) := by
  refine fillItem_sound hItem ?_ ?_ frame
  · intro value hValue
    cases value with
    | slice items => exact ⟨items, rfl⟩
    | _ => exact hValue.elim
  · rintro items value ⟨other, hMember, hOther⟩ _
    exact ⟨other, List.mem_append_left _ hMember, hOther⟩

variable {target : Target}

theorem fillItem_alike
    (hItem : ∀ frame,
      ReadAlike target (item frame target)
        (item frame .dynamic))
    (frame : Frame) :
    Agrees (SliceAs target)
      (fillItem item frame (.list target))
      (fillItem item frame .dynamic) (SliceAs target)
      (SliceWith target.Exceeds) := by
  rintro cursor items _ rfl
  have hTyped :
      fillItem item frame (.list target) (cursor, items) =
        outward (fun content => items ++ [content])
          (item frame target (cursor, target.fresh)) :=
    run_within (Target.itemAfter items) (item frame target)
      cursor items
  have hDynamic :
      fillItem item frame .dynamic
          (cursor, Value.slice (items.map target.embed)) =
        outward
          (fun (value : Value) =>
            Value.slice (items.map target.embed ++ [value]))
          (item frame .dynamic (cursor, Value.null)) :=
    run_within (itemPlace (items.map target.embed))
      (item frame .dynamic) cursor Value.null
  have hPaired :=
    hItem frame cursor target.fresh Value.null trivial
  refine .of_eq hTyped hDynamic (hPaired.outward ?_ ?_)
  · rintro content _ rfl
    unfold SliceAs
    rw [List.map_append]
    rfl
  · intro value hValue
    have hMember :
        value ∈ items.map target.embed ++ [value] :=
      List.mem_append_right _ (List.mem_singleton_self _)
    exact ⟨value, hMember, hValue⟩

/- What ends a round of a run leaves the slice as it is. -/
theorem sliceEnd_sound
    (p : Value → Prop)
    (frame : Frame) :
    Sound True p
      (do
        Scan.skipBlanks (σ := Cursor)
        if frame = .run then
          return false
        else
          Scan.eat (σ := Cursor) ';' : Fill Value Bool)
      p := by
  apply Sound.scan (fun _ => .skipBlanks)
  intro _
  split
  · exact .pure fun _ h => h
  · exact .read_last fun _ => .eat _

theorem sliceRound_sliceWith
    (hItem : item.Leaves True fun _ => True)
    (p : Value → Prop)
    (frame : Frame) :
    Sound True (SliceWith p) (sliceRound item frame .dynamic)
      (SliceWith p) := by
  apply (fillItem_sliceWith hItem p .run).bind
  intro _
  exact sliceEnd_sound _ frame

theorem sliceRound_alike
    (hItem : ∀ frame,
      ReadAlike target (item frame target)
        (item frame .dynamic))
    (frame : Frame) :
    Agrees (SliceAs target)
      (sliceRound item frame (.list target))
      (sliceRound item frame .dynamic) (SliceAs target)
      (SliceWith target.Exceeds) := by
  apply (fillItem_alike hItem .run).bind
  · intro _
    apply Agrees.read
    intro _
    apply Agrees.ite
    · intro _
      exact .pure _ fun _ _ h => h
    · intro _
      exact .read_last _
  · intro _
    exact sliceEnd_sound _ frame

/- A slice and a list get the same items. -/
theorem fillSlice_sliceAs
    (hItem : ∀ frame,
      ReadAlike target (item frame target)
        (item frame .dynamic))
    (hLeaves : item.Leaves True fun _ => True)
    (frame : Frame) :
    Agrees (fun _ _ => True)
      (fillSlice item frame (.list target))
      (fillSlice item frame .dynamic) (SliceAs target)
      (SliceWith target.Exceeds) := by
  have hBegin :
      ∀ start,
        Agrees (fun _ _ => True)
          (Fill.store (Target.list target).beginSlice ""
            start)
          (Fill.store Target.dynamic.beginSlice "" start)
          (SliceAs target) (fun _ => False) := by
    intro start
    apply Agrees.store
    intro content value _
    exact ⟨(), [], .slice [], rfl, rfl, rfl⟩
  rw [fillSlice_eq, fillSlice_eq]
  apply Agrees.read
  intro start
  apply (hBegin start).bind
  · intro _
    apply Agrees.read
    intro next
    split
    · exact .group (fillItem_alike hItem .group)
        (fillItem_sliceWith hLeaves _ .group)
    · exact .pure _ fun _ _ h => h
    · exact .pure _ fun _ _ h => h
    · exact .pure _ fun _ _ h => h
    · exact .pure _ fun _ _ h => h
    · exact .loopWhile (sliceRound_alike hItem frame)
        (sliceRound_sliceWith hLeaves _ frame)
  · intro _ cursor content hFalse
    exact hFalse.elim

/- An item that is too wide makes the slice so. -/
theorem exceeds_of_sliceWith
    {value : Value}
    (hValue : SliceWith target.Exceeds value) :
    (Target.list target).Exceeds value := by
  cases value with
  | slice items =>
      rcases hValue with ⟨item, hMember, hMap | hBounds⟩
      · exact Or.inl hMap
      · apply Or.inr
        intro position hCheck
        have hItems :=
          Target.checkBounds_slice_iff.mp hCheck
        exact hBounds position (hItems item hMember)
  | _ => exact hValue.elim

theorem fillSlice_alike
    (hBytes : target ≠ .int .u8)
    (hItem : ∀ frame,
      ReadAlike target (item frame target)
        (item frame .dynamic))
    (hLeaves : item.Leaves True fun _ => True)
    (frame : Frame) :
    ReadAlike (.list target)
      (fillSlice item frame (.list target))
      (fillSlice item frame .dynamic) := by
  apply (fillSlice_sliceAs hItem hLeaves frame).imp
  · rintro items _ rfl
    rcases Target.embedList_cases target target.embed items
      with ⟨hSame, _⟩ | ⟨_, hItems⟩
    · exact absurd hSame hBytes
    · exact hItems.symm
  · intro value hValue
    exact exceeds_of_sliceWith hValue

------------------------------------------------------------
-- Maps
------------------------------------------------------------

/- The map has the entries of the destination. -/
def MapAs
    (target : Target)
    (entries : Entries target.Content)
    (value : Value) : Prop :=
  value = .map (entries.toList.map fun entry =>
    (entry.1, target.embed entry.2))

/- Entries are inserted at the same place. -/
theorem map_insertByKey
    {β γ : Type}
    (change : β → γ)
    (key : String)
    (content : β)
    (entries : List (String × β)) :
    (insertByKey key content entries).map
        (fun entry => (entry.1, change entry.2)) =
      insertByKey key (change content)
        (entries.map fun entry =>
          (entry.1, change entry.2)) := by
  induction entries with
  | nil => rfl
  | cons entry entries ih =>
      simp only [insertByKey, List.map_cons]
      split
      · rfl
      · split
        · rfl
        · rw [List.map_cons, ih]

theorem ascendingKeys_map
    {β γ : Type}
    (change : β → γ)
    {entries : List (String × β)}
    (hEntries : AscendingKeys entries) :
    AscendingKeys
      (entries.map fun entry => (entry.1, change entry.2)) :=
  List.pairwise_map.mpr hEntries

theorem fillUnder_alike
    (hItem : ∀ frame,
      ReadAlike target (item frame target)
        (item frame .dynamic))
    (kind : MapKind)
    (key : String)
    (start : Nat) :
    Agrees (MapAs target)
      (fillUnder item (.map kind target) key start)
      (fillUnder item .dynamic key start) (MapAs target)
      (MapOf fun _ => True) := by
  rintro cursor entries _ rfl
  have hTyped :
      fillUnder item (.map kind target) key start
          (cursor, entries) =
        outward (fun content => entries.insert key content)
          (item .group target (cursor, target.fresh)) :=
    run_within (@Target.entryUnder kind target key entries)
      (item .group target) cursor entries
  have hDynamic :=
    run_within
      (entryPlace key
        (entries.toList.map fun entry =>
          (entry.1, target.embed entry.2)))
      (item .group .dynamic) cursor Value.null
  have hAscending :=
    ascendingKeys_map target.embed entries.ascending
  have hPaired :=
    hItem .group cursor target.fresh Value.null trivial
  refine .of_eq hTyped hDynamic (hPaired.outward ?_ ?_)
  · rintro content _ rfl
    unfold MapAs
    exact congrArg Value.map
      (map_insertByKey target.embed key content
        entries.toList).symm
  · intro value _
    exact ⟨hAscending.insertByKey, fun _ _ => trivial⟩

theorem fillEntry_alike
    (hItem : ∀ frame,
      ReadAlike target (item frame target)
        (item frame .dynamic))
    (kind : MapKind) :
    Agrees (MapAs target)
      (fillEntry item (.map kind target))
      (fillEntry item .dynamic) (MapAs target)
      (MapOf fun _ => True) := by
  rw [fillEntry_eq, fillEntry_eq]
  apply Agrees.read
  intro keyStart
  apply Agrees.read
  intro key
  apply Agrees.read
  intro _
  apply Agrees.read
  intro colonStart
  apply Agrees.read
  intro colon
  apply Agrees.ite
  · intro _
    exact fillUnder_alike hItem kind key keyStart
  · intro _
    exact .unexpected _ _

/- A map and a destination for one get the same entries. -/
theorem fillMap_alike
    (hItem : ∀ frame,
      ReadAlike target (item frame target)
        (item frame .dynamic))
    (hLeaves : item.Leaves True fun _ => True)
    (kind : MapKind) :
    ReadAlike (.map kind target)
      (fillMap item (.map kind target))
      (fillMap item .dynamic) := by
  have hBegin :
      ∀ start,
        Agrees (fun _ _ => True)
          (Fill.store (Target.map kind target).beginMap ""
            start)
          (Fill.store Target.dynamic.beginMap "" start)
          (MapAs target) (fun _ => False) := by
    intro start
    apply Agrees.store
    intro content value _
    exact ⟨(), Entries.empty, .map [], rfl, rfl, rfl⟩
  have hEntries :
      Sound True (MapOf fun _ => True) (fillEntry item .dynamic)
        (MapOf fun _ => True) :=
    (fillEntry_filledMapOf hLeaves).imp fun _ h => h.mapOf
  have hGroup :
      Agrees (MapAs target)
        (Fill.group (fillEntry item (.map kind target)))
        (Fill.group (fillEntry item .dynamic))
        (MapAs target) (Target.map kind target).Exceeds := by
    apply (Agrees.group (fillEntry_alike hItem kind)
      hEntries).imp
    · exact fun _ _ h => h
    · exact fun _ _ => Or.inl trivial
  rw [fillMap_eq, fillMap_eq]
  apply Agrees.read
  intro start
  apply Agrees.read
  intro next
  apply Agrees.ite
  · intro _
    apply (hBegin start).bind
    · intro _
      exact hGroup
    · intro _ cursor content hFalse
      exact hFalse.elim
  · intro _
    exact .unexpected _ _

end Literal

namespace Descriptor

open Literal

/- A box is read like what is in it. -/
theorem fill_box
    (descriptor : Descriptor)
    (frame : Frame)
    (inner : Target) :
    descriptor.fill frame (.box inner) =
      (descriptor.fill frame inner :
        Fill inner.Content Unit) := by
  cases descriptor with
  | plain kind =>
      rw [fill_eq, fill_eq]
      cases kind <;> rfl
  | nested kind item =>
      cases kind with
      | slice =>
          rw [fill_eq, fill_eq]
          dsimp only
          rw [fillSlice_box]
          rfl
      | map =>
          rw [fill_eq, fill_eq]
          dsimp only
          rw [fillMap_box]
          rfl
      | _ =>
          rw [fill_eq, fill_eq]
          rfl

theorem wellFormed_of_describes
    {descriptor : Descriptor}
    {target : Target}
    (hDescribes : Target.Describes descriptor target) :
    descriptor.WellFormed := by
  induction hDescribes with
  | slice _ _ ih => exact ih
  | map _ _ ih => exact ih
  | box _ ih => exact ih
  | _ => exact ⟨by decide, by decide, by decide⟩

/- What the descriptor of a type reads is a value. -/
theorem leaves_of_describes
    {descriptor : Descriptor}
    {target : Target}
    (hDescribes : Target.Describes descriptor target) :
    ItemReader.Leaves descriptor.fill True fun _ => True := by
  have hWellFormed := wellFormed_of_describes hDescribes
  intro frame
  have hFits :=
    (fill_fits descriptor frame).mono
      fun (_ : True) => hWellFormed
  exact hFits.imp fun _ _ => trivial

/-
  Whatever type the descriptor is for, reading into the type
  and into a value agree.
-/
theorem fill_alike
    {descriptor : Descriptor}
    {target : Target}
    (hDescribes : Target.Describes descriptor target) :
    ∀ frame,
      ReadAlike target (descriptor.fill frame target)
        (descriptor.fill frame .dynamic) := by
  induction hDescribes with
  | bool =>
      intro frame
      rw [fill_eq, fill_eq]
      exact .read fun _ => fillBool_alike
  | signed hSigned =>
      intro frame
      rw [fill_eq, fill_eq]
      exact .read fun _ => fillSigned_alike hSigned
  | unsigned hSigned =>
      intro frame
      rw [fill_eq, fill_eq]
      exact .read fun _ => fillUnsigned_alike hSigned
  | string =>
      intro frame
      rw [fill_eq, fill_eq]
      exact .read fun _ => fillString_alike
  | any =>
      intro frame
      rw [fill_eq]
      exact .read fun _ => fillAny_alike frame
  | raw =>
      intro frame
      rw [fill_eq, fill_eq]
      exact .read fun _ => fillRaw_alike frame
  | slice hBytes hItem ih =>
      intro frame
      rw [fill_eq, fill_eq]
      apply Agrees.read
      intro _
      exact fillSlice_alike hBytes ih
        (leaves_of_describes hItem) frame
  | map kind hItem ih =>
      intro frame
      rw [fill_eq, fill_eq]
      apply Agrees.read
      intro _
      exact fillMap_alike ih (leaves_of_describes hItem) kind
  | box hInner ih =>
      intro frame
      rw [fill_box]
      exact ih frame

/- Reading all of a text into the type or into a value. -/
theorem read_alike
    {descriptor : Descriptor}
    {target : Target}
    (hDescribes : Target.Describes descriptor target) :
    ReadAlike target
      (do
        descriptor.fill .whole target
        expectEnd)
      (do
        descriptor.fill .whole .dynamic
        expectEnd) := by
  apply (fill_alike hDescribes .whole).bind
  · intro _
    exact .read_last _
  · intro _
    exact .read_last fun _ => expectEnd_advances

/- The outcomes of actions whose runs are paired. -/
theorem outcomeOf_paired
    {δ : Type}
    {typed : Fill δ Unit}
    {dynamic : Fill Value Unit}
    {post : δ → Value → Prop}
    {beyond : Value → Prop}
    {cursor : Cursor}
    {content : δ}
    {value : Value}
    (hPaired :
      Paired post beyond (typed (cursor, content))
        (dynamic (cursor, value))) :
    ((outcomeOf typed cursor content).result = .ok () ∧
        (outcomeOf dynamic cursor value).result = .ok () ∧
          post (outcomeOf typed cursor content).content
            (outcomeOf dynamic cursor value).content) ∨
      ∃ error,
        (outcomeOf typed cursor content).result =
            .error error ∧
          ((outcomeOf dynamic cursor value).result =
              .error error ∨
            error.IsOverflow ∧
              ((outcomeOf dynamic cursor value).result =
                  .ok () →
                beyond
                  (outcomeOf dynamic cursor
                    value).content)) := by
  unfold outcomeOf
  generalize typed (cursor, content) = first at hPaired ⊢
  generalize dynamic (cursor, value) = second at hPaired ⊢
  cases hPaired with
  | ok result cursor' hPost =>
      exact Or.inl ⟨rfl, rfl, hPost⟩
  | error error state state' =>
      exact Or.inr ⟨error, rfl, Or.inl rfl⟩
  | @overflow error _ hError state hEnds =>
      refine Or.inr ⟨error, rfl, Or.inr ⟨hError, ?_⟩⟩
      intro hOk
      cases second with
      | ok result state' => exact hEnds
      | error error state' => cases hOk

end Descriptor

namespace Target

open Literal

variable {target : Target}
variable {descriptor : Descriptor}

/- Only the contents of a successful reading are returned. -/
theorem read_eq
    (hShape :
      Descriptor.ofShape target.shape = .ok descriptor)
    (text : String) :
    target.read text =
      match
        (descriptor.read text target target.fresh).result
        with
      | .ok _ =>
          .ok (descriptor.read text target
            target.fresh).content
      | .error error => .error error := by
  unfold read
  rw [hShape]
  cases hResult :
    (descriptor.read text target target.fresh).result with
  | ok result => simp [bind, Except.bind, hResult]; rfl
  | error error => simp [bind, Except.bind, hResult]

/- Both readings succeed or fail alike, up to the widths. -/
theorem read_paired
    (hShape :
      Descriptor.ofShape target.shape = .ok descriptor)
    (text : String) :
    (∃ content,
      target.read text = .ok content ∧
        (descriptor.readValue text).result = .ok () ∧
          (descriptor.readValue text).content =
            target.embed content) ∨
      ∃ error,
        target.read text = .error error ∧
          ((descriptor.readValue text).result =
              .error error ∨
            error.IsOverflow ∧
              ((descriptor.readValue text).result = .ok () →
                target.Exceeds
                  (descriptor.readValue text).content)) := by
  have hDescribes := describes_of_ofShape hShape
  have hPaired :=
    Descriptor.read_alike hDescribes (.ofText text)
      target.fresh Value.null trivial
  rw [read_eq hShape text]
  rcases Descriptor.outcomeOf_paired hPaired with
    ⟨hTyped, hDynamic, hContent⟩ | ⟨error, hTyped, hDynamic⟩
  · have hResult :
        (descriptor.read text target target.fresh).result =
          .ok () :=
      hTyped
    rw [hResult]
    exact Or.inl ⟨_, rfl, hDynamic, hContent⟩
  · have hResult :
        (descriptor.read text target target.fresh).result =
          .error error :=
      hTyped
    rw [hResult]
    exact Or.inr ⟨error, rfl, hDynamic⟩

/-
  Reading a text into a type and into a value agree. What the
  type takes is the value, within the bounds of the type; a
  value within these is taken, unless the type has maps, and
  no failure is due to the type.
-/
theorem read_agrees
    (hShape :
      Descriptor.ofShape target.shape = .ok descriptor)
    (text : String) :
    (∀ content,
      target.read text = .ok content →
        (descriptor.readValue text).result = .ok () ∧
          (descriptor.readValue text).content =
            target.embed content ∧
          ∀ position,
            target.shape.checkBounds (target.embed content)
              position = .ok ()) ∧
      ((descriptor.readValue text).result = .ok () →
        target.shape.checkBounds
            (descriptor.readValue text).content 0 =
          .ok () →
          (∃ content,
            target.read text = .ok content ∧
              target.embed content =
                (descriptor.readValue text).content) ∨
            target.HasMap ∧
              ∃ error,
                target.read text = .error error ∧
                  error.IsOverflow) ∧
      ∀ error,
        target.read text = .error error →
          error.Lexical := by
  have hEnds :=
    Descriptor.readValue_ends
      (Descriptor.wellFormed_of_ofShape hShape) text
  rcases read_paired hShape text with
    ⟨content, hRead, hOk, hContent⟩ | ⟨error, hRead, hError⟩
  · rw [hRead]
    refine ⟨?_, ?_, nofun⟩
    · rintro _ ⟨⟩
      exact ⟨hOk, hContent, checkBounds_embed target content⟩
    · intro _ _
      exact Or.inl ⟨content, rfl, hContent.symm⟩
  · rw [hRead]
    refine ⟨nofun, ?_, ?_⟩
    · intro hOk hBounds
      rcases hError with hSame | ⟨hOverflow, hExceeds⟩
      · rw [hSame] at hOk
        cases hOk
      · rcases hExceeds hOk with hMap | hWide
        · exact Or.inr ⟨hMap, error, rfl, hOverflow⟩
        · exact absurd hBounds (hWide 0)
    · rintro _ ⟨⟩
      rcases hError with hSame | ⟨hOverflow, _⟩
      · rcases hEnds with
          ⟨other, hOther, hLexical⟩ | ⟨hOk, _⟩
        · rw [hSame] at hOther
          cases hOther
          exact hLexical
        · rw [hSame] at hOk
          cases hOk
      · cases error with
        | overflow => trivial
        | _ => exact hOverflow.elim

/- A run of integers is read into bytes in boxes. -/
theorem read_agrees_boxed_bytes :
    Descriptor.ofShape
          (Target.list (.box (.int .u8))).shape =
        .ok (.nested .slice (.plain .unsigned)) ∧
      (Descriptor.readValue
        (.nested .slice (.plain .unsigned))
        "1; 2").content =
          .slice [.int 1, .int 2] := by
  have hShape :
      Descriptor.ofShape
          (Target.list (.box (.int .u8))).shape =
        .ok (.nested .slice (.plain .unsigned)) :=
    rfl
  have hMember :
      IntType.u8.low ≤ 2 ∧ 2 ≤ IntType.u8.high := by
    decide
  have hOne :
      IntType.u8.low ≤ 1 ∧ 1 ≤ IntType.u8.high := by
    decide
  have hRead :
      Target.read (.list (.box (.int .u8))) "1; 2" =
        .ok [⟨1, hOne⟩, ⟨2, hMember⟩] :=
    rfl
  exact ⟨hShape, ((read_agrees hShape "1; 2").1 _ hRead).2.1⟩

end Target

end Marginalia
