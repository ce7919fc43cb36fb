import Marginalia.Proofs.Entries
import Marginalia.Proofs.Integers
import Marginalia.Proofs.Literal.Fitting
import Marginalia.Proofs.Literal.Progress
import Marginalia.Proofs.Probe

/-
  Reading into a value is sound: it fails for a reason that
  lies in the text, or leaves a value that fits the
  descriptor at every level.

  Key definitions include:
    * `Sound`

  Main statements:
    * `Sound.group_or_empty`
    * `Literal.inferElement_inferable`
    * `Descriptor.fill_fits`
    * `Descriptor.readValue_fits`
-/

namespace Marginalia

open ReadError (Lexical Answers)

variable {α β δ : Type}

------------------------------------------------------------
-- Reasons in the Text
------------------------------------------------------------

/-
  The reason is neither the type nor the destination. Lack of
  rounds is excluded elsewhere.
-/
def ReadError.OfText
    (error : ReadError) : Prop :=
  error.Lexical ∨ error = .exhausted

theorem ReadError.OfText.lexical
    {error : ReadError}
    (hOfText : error.OfText)
    (hAnswers : error.Answers) :
    error.Lexical := by
  rcases hOfText with hLexical | hExhausted
  · exact hLexical
  · exact absurd hExhausted hAnswers

/- What a reading action finds there has the property. -/
def Scan.FindsAt
    (p : α → Prop)
    (action : Scan α)
    (cursor : Cursor) : Prop :=
  Ends (fun result _ => p result)
    (fun error _ => error.OfText)
    (action cursor)

/- What a reading action finds has the property. -/
def Scan.Finds
    (p : α → Prop)
    (action : Scan α) : Prop :=
  ∀ cursor, Scan.FindsAt p action cursor

/-
  An action on a destination: where the first property holds
  before it, the second one holds after it. An orderly action
  fails only for a reason that lies in the text.
-/
def Sound
    (orderly : Prop)
    (pre : δ → Prop)
    (action : Fill δ α)
    (post : δ → Prop) : Prop :=
  ∀ cursor content,
    pre content →
      Ends (fun _ state => post state.2)
        (fun error _ => orderly → error.OfText)
        (action (cursor, content))

------------------------------------------------------------
-- Reading without a Destination
------------------------------------------------------------

namespace Scan.FindsAt

variable {p : α → Prop}
variable {cursor : Cursor}

/- What is known of its moves tells how an action fails. -/
theorem of_advancesFrom
    {action : Scan α}
    {passes : α → Prop}
    (hAction :
      AdvancesFrom id Lexical passes action cursor) :
    Scan.FindsAt (fun _ => True) action cursor :=
  Ends.imp hAction (fun _ _ _ => trivial)
    (fun _ _ hError => Or.inl hError.1)

/- What is read with any result may be given another form. -/
theorem map
    {change : β → α}
    {action : Scan β}
    (hChange : ∀ result, p (change result))
    (hAction :
      Scan.FindsAt (fun _ => True) action cursor) :
    Scan.FindsAt p
      (do
        let result ← action
        return change result)
      cursor := by
  apply Ends.bind hAction
  intro result _ _
  exact hChange result

theorem imp
    {p' : α → Prop}
    {action : Scan α}
    (hAction : Scan.FindsAt p action cursor)
    (hResult : ∀ result, p result → p' result) :
    Scan.FindsAt p' action cursor :=
  Ends.imp hAction (fun result _ => hResult result)
    (fun _ _ h => h)

theorem ite
    {c : Prop}
    [Decidable c]
    {action action' : Scan α}
    (hTrue : c → Scan.FindsAt p action cursor)
    (hFalse : ¬ c → Scan.FindsAt p action' cursor) :
    Scan.FindsAt p (if c then action else action') cursor := by
  by_cases hc : c
  · rw [if_pos hc]
    exact hTrue hc
  · rw [if_neg hc]
    exact hFalse hc

/- The cursor tells what goes on. -/
theorem get
    {next : Cursor → Scan α}
    (hNext : Scan.FindsAt p (next cursor) cursor) :
    Scan.FindsAt p (MonadState.get >>= next) cursor :=
  hNext

/- A look at the next character tells what goes on. -/
theorem peek
    {next : Option Char → Scan α}
    (hNext : Scan.FindsAt p (next cursor.peek) cursor) :
    Scan.FindsAt p (Scan.peek >>= next) cursor :=
  hNext

/- A destination of its own is what is found. -/
theorem collect
    {p : δ → Prop}
    {action : Fill δ Unit}
    {content : δ}
    (hAction :
      Ends (fun _ state => p state.2)
        (fun error _ => error.OfText)
        (action (cursor, content))) :
    Scan.FindsAt p (Fill.collect content action) cursor :=
  Fill.ends_collect.mpr hAction

end Scan.FindsAt

namespace Scan.Finds

variable {p : α → Prop}
variable {q : β → Prop}

theorem pure
    {result : α}
    (hResult : p result) :
    Scan.Finds p (Pure.pure result) :=
  fun _ => hResult

theorem throw
    {error : ReadError}
    (hError : error.OfText) :
    Scan.Finds p (MonadExcept.throw error) :=
  fun _ => hError

theorem bind
    {first : Scan α}
    {next : α → Scan β}
    (hFirst : Scan.Finds p first)
    (hNext : ∀ result, p result → Scan.Finds q (next result)) :
    Scan.Finds q (first >>= next) := by
  intro cursor
  apply Ends.bind (hFirst cursor)
  intro result cursor' hResult
  exact hNext result hResult cursor'

theorem of_advances
    {action : Scan α}
    {passes : α → Prop}
    (hAction : ∀ bound,
      Advances id Lexical bound passes action) :
    Scan.Finds (fun _ => True) action :=
  fun cursor => .of_advancesFrom
    (hAction _ cursor (Nat.lt_succ_self _))

theorem loop
    {body : β → Scan (Step β α)}
    {start : β}
    (hBody : ∀ round,
      q round →
        Scan.Finds
          (fun step =>
            match step with
            | .again next => q next
            | .done result => p result)
          (body round))
    (hStart : q start) :
    Scan.Finds p (Scan.loop body start) := by
  intro cursor
  refine ends_iterate_of_stuck (fun round _ => q round)
    ?_ ?_ _ start cursor hStart
  · intro _ _ _
    exact Or.inr rfl
  · intro round cursor' hRound
    refine Ends.imp (hBody round hRound cursor') ?_
      (fun _ _ h => h)
    intro step _ hStep
    cases step with
    | again next => exact hStep
    | done result => exact hStep

end Scan.Finds

------------------------------------------------------------
-- Reading into a Destination
------------------------------------------------------------

namespace Sound

variable {orderly : Prop}
variable {pre mid post : δ → Prop}

theorem pure
    {result : α}
    (hPost : ∀ content, pre content → post content) :
    Sound orderly pre (Pure.pure result) post :=
  fun _ content hPre => hPost content hPre

theorem throw
    {error : ReadError}
    (hError : error.OfText) :
    Sound orderly pre
      (MonadExcept.throw error :
        Fill δ α)
      post :=
  fun _ _ _ _ => hError

theorem imp
    {post' : δ → Prop}
    {action : Fill δ α}
    (hAction : Sound orderly pre action post)
    (hPost : ∀ content, post content → post' content) :
    Sound orderly pre action post' := by
  intro cursor content hPre
  exact Ends.imp (hAction cursor content hPre)
    (fun _ state => hPost state.2) (fun _ _ h => h)

theorem bind
    {first : Fill δ α}
    {next : α → Fill δ β}
    (hFirst : Sound orderly pre first mid)
    (hNext : ∀ result, Sound orderly mid (next result) post) :
    Sound orderly pre (first >>= next) post := by
  intro cursor content hPre
  apply (hFirst cursor content hPre).bind
  intro result state hMid
  exact hNext result state.1 state.2 hMid

/- Less may be said of failures. -/
theorem mono
    {orderly' : Prop}
    {action : Fill δ α}
    (hAction : Sound orderly pre action post)
    (hOrderly : orderly' → orderly) :
    Sound orderly' pre action post := by
  intro cursor content hPre
  exact Ends.imp (hAction cursor content hPre)
    (fun _ _ h => h) (fun _ _ h hOwn => h (hOrderly hOwn))

/- Reading leaves the destination to what follows. -/
theorem read
    {p : α → Prop}
    {action : Scan α}
    {next : α → Fill δ β}
    (hAction : Scan.Finds p action)
    (hNext : ∀ result,
      p result → Sound orderly pre (next result) post) :
    Sound orderly pre (liftM action >>= next) post := by
  intro cursor content hPre
  have hEnds := hAction cursor
  unfold Scan.FindsAt at hEnds
  rw [run_bind, Fill.run_lift]
  cases hRun : action cursor with
  | ok result cursor' =>
      rw [hRun] at hEnds
      exact hNext result hEnds cursor' content hPre
  | error error cursor' =>
      rw [hRun] at hEnds
      exact fun _ => hEnds

/- Reading of which only the moves are known. -/
theorem scan
    {passes : α → Prop}
    {action : Scan α}
    {next : α → Fill δ β}
    (hAction : ∀ bound,
      Advances id Lexical bound passes action)
    (hNext : ∀ result, Sound orderly pre (next result) post) :
    Sound orderly pre (liftM action >>= next) post :=
  .read (.of_advances hAction) fun result _ => hNext result

/- Reading at the end, where its result is the answer. -/
theorem read_last
    {passes : α → Prop}
    {action : Scan α}
    (hAction : ∀ bound,
      Advances id Lexical bound passes action) :
    Sound orderly pre (liftM action : Fill δ α) pre := by
  intro cursor content hPre
  apply Fill.ends_lift.mpr
  exact Ends.imp (Scan.Finds.of_advances hAction cursor)
    (fun _ _ _ => hPre) (fun _ _ h _ => h)

/- A text that does not fit ends the reading. -/
theorem unexpected
    (expected : Expected)
    (start : Nat) :
    Sound orderly pre
      (liftM (Scan.unexpected expected start : Scan α) :
        Fill δ α)
      post := by
  intro cursor content _
  rcases Scan.exists_run_unexpected expected start cursor
    with ⟨found, cursor', hRun⟩
  rw [Fill.run_lift, hRun α]
  exact fun _ => Or.inl trivial

/- Writing that is not refused. -/
theorem store
    {action : Write δ α}
    {literal : String}
    {start : Nat}
    (hAction : ∀ content,
      pre content →
        ∃ result content',
          action content = .ok result content' ∧
            post content') :
    Sound orderly pre (Fill.store action literal start) post := by
  intro cursor content hPre
  rcases hAction content hPre with
    ⟨result, content', hRun, hPost⟩
  rw [Fill.run_store, hRun]
  exact hPost

------------------------------------------------------------
-- Groups
------------------------------------------------------------

/-
  The rule for repetition, where rounds may be lacking. There
  is a first round, after which the second property holds.
-/
theorem loopWhile
    {body : Fill δ Bool}
    (hPost : ∀ content, post content → pre content)
    (hBody : Sound orderly pre body post) :
    Sound orderly pre (Fill.loopWhile body) post := by
  intro cursor content hPre
  refine ends_iterate_of_stuck
    (fun _ state => pre state.2) ?_ ?_ _ () _ hPre
  · intro _ _ _ _
    exact Or.inr rfl
  · rintro _ ⟨cursor, content⟩ hPre
    apply (hBody cursor content hPre).bind
    intro another state hState
    cases another with
    | true => exact hPost state.2 hState
    | false => exact hState

/- What follows an element leaves the destination alone. -/
theorem closing
    (start : Nat) :
    Sound orderly pre (Fill.closing start) pre := by
  refine .scan (fun _ => .skipBlanks) fun _ => ?_
  refine .scan (fun _ => .peek) fun next => ?_
  split
  · refine .scan (fun _ => .skip) fun _ => ?_
    exact .pure fun _ h => h
  · refine .scan (fun _ => .skip) fun _ => ?_
    exact .pure fun _ h => h
  · exact .throw (Or.inl trivial)
  · refine .scan (fun _ => .position) fun place => ?_
    exact .unexpected _ _

theorem groupRound
    {element : Fill δ Unit}
    (hElement : Sound orderly pre element post)
    (start : Nat) :
    Sound orderly pre (Fill.groupRound element start) post := by
  refine .scan (fun _ => .skipBlanks) fun _ => ?_
  refine .scan (fun _ => .peek) fun next => ?_
  split
  · exact .throw (Or.inl trivial)
  · exact hElement.bind fun _ => closing start

/-
  A group whose elements keep what they are given leaves the
  property that they establish, unless it has none.
-/
theorem group_or_empty
    {element : Fill δ Unit}
    (hPost : ∀ content, post content → pre content)
    (hElement : Sound orderly pre element post)
    {cursor : Cursor}
    {content : δ}
    (hContent : pre content) :
    Ends
      (fun _ state =>
        post state.2 ∨
          state.2 = content ∧
            cursor.advance.skipBlanks.peek = some '}')
      (fun error _ => orderly → error.OfText)
      (Fill.group element (cursor, content)) := by
  rw [Fill.run_group]
  by_cases hPeek :
    cursor.advance.skipBlanks.peek = some '}'
  · rw [if_pos hPeek]
    exact Or.inr ⟨rfl, hPeek⟩
  · rw [if_neg hPeek]
    have hLoop :=
      loopWhile hPost (groupRound hElement cursor.position)
    exact Ends.imp (hLoop _ content hContent)
      (fun _ _ h => Or.inl h) (fun _ _ h => h)

/- A group, where the elements keep the property. -/
theorem group
    {element : Fill δ Unit}
    (hElement : Sound orderly pre element pre) :
    Sound orderly pre (Fill.group element) pre := by
  intro cursor content hPre
  refine Ends.imp
    (group_or_empty (fun _ h => h) hElement hPre) ?_
    (fun _ _ h => h)
  rintro _ ⟨cursor', content'⟩ (hPost | ⟨rfl, _⟩)
  · exact hPost
  · exact hPre

end Sound

namespace Literal

------------------------------------------------------------
-- Scalars
------------------------------------------------------------

/- Whatever was there before, a value with the property is. -/
abbrev Leaves
    (orderly : Prop)
    (action : Fill Target.dynamic.Content Unit)
    (p : Value → Prop) : Prop :=
  Sound orderly (fun _ => True) action p

variable {orderly : Prop}

theorem fillBool_fits :
    Leaves orderly (fillBool .dynamic) (Value.Fits (.plain .bool)) := by
  rw [fillBool_eq]
  refine .scan (fun _ => .position) fun start => ?_
  refine .scan (fun _ => .takeWhile _) fun word => ?_
  unfold storeBool
  split
  · exact .store fun _ _ => ⟨(), _, rfl, .bool true⟩
  · exact .store fun _ _ => ⟨(), _, rfl, .bool false⟩
  · exact .unexpected _ _
  · exact fun _ _ _ _ => Or.inl trivial

/- An integer of 64 bits is read as it is. -/
theorem fillSigned_fits :
    Leaves orderly (fillSigned .dynamic)
      (Value.Fits (.plain .signed)) := by
  rw [fillSigned_eq]
  refine .scan (fun _ => .position) fun start => ?_
  refine .scan (fun _ => .eat _) fun negative => ?_
  refine .scan (fun _ => .position) fun digitsStart => ?_
  refine .scan (fun _ => .takeWhile _) fun digits => ?_
  split
  · exact .unexpected _ _
  · unfold storeSigned
    split
    · exact .store fun _ _ => ⟨(), _, rfl, .signed _⟩
    · exact .throw (Or.inl trivial)

/- The signed form of an unsigned integer is not negative. -/
theorem ofUnsigned_fits
    (value : UInt64) :
    Value.Fits (.plain .unsigned) (.ofUnsigned value) := by
  unfold Value.ofUnsigned
  split
  · rename_i hFits
    have hRange := fitsSigned_iff.mp hFits
    refine .unsigned ?_
    rw [Int64.toInt_ofNat_of_lt (by omega)]
    omega
  · rename_i hFits
    refine .unsignedBeyond ?_
    rw [fitsSigned_iff] at hFits
    rw [Int64.toInt_maxValue]
    omega

theorem fillUnsigned_fits :
    Leaves orderly (fillUnsigned .dynamic)
      (Value.Fits (.plain .unsigned)) := by
  rw [fillUnsigned_eq]
  refine .scan (fun _ => .position) fun start => ?_
  refine .scan (fun _ => .peek) fun next => ?_
  split
  · exact .unexpected _ _
  · refine .scan (fun _ => .takeWhile _) fun digits => ?_
    split
    · exact .unexpected _ _
    · unfold storeUnsigned
      split
      · exact .store fun _ _ =>
          ⟨(), _, rfl, ofUnsigned_fits _⟩
      · exact .throw (Or.inl trivial)

theorem fillString_fits :
    Leaves orderly (fillString .dynamic)
      (Value.Fits (.plain .string)) := by
  refine .scan (fun _ => .position) fun start => ?_
  refine .scan (fun _ => string_advances _) fun value => ?_
  exact .store fun _ _ => ⟨(), _, rfl, .string value⟩

theorem fillRaw_fits
    (frame : Frame) :
    Leaves orderly (fillRaw frame .dynamic)
      (Value.Fits (.plain .raw)) := by
  refine .scan (fun _ => .position) fun start => ?_
  dsimp only
  split
  · refine .scan (fun _ => remainder_advances) fun raw => ?_
    exact .store fun _ _ => ⟨(), _, rfl, .raw _⟩
  · refine .scan (fun _ => balanced_advances _) fun raw => ?_
    exact .store fun _ _ => ⟨(), _, rfl, .raw _⟩

------------------------------------------------------------
-- Slices
------------------------------------------------------------

/- The reader leaves values with the property everywhere. -/
def ItemReader.Leaves
    (item : ItemReader)
    (orderly : Prop)
    (p : Value → Prop) : Prop :=
  ∀ frame, Literal.Leaves orderly (item frame .dynamic) p

/- A slice of values with the property. -/
def SliceOf
    (p : Value → Prop) : Value → Prop
  | .slice items => ∀ item ∈ items, p item
  | _ => False

/- A map of values with the property, in order of its keys. -/
def MapOf
    (p : Value → Prop) : Value → Prop
  | .map entries =>
      AscendingKeys entries ∧ ∀ entry ∈ entries, p entry.2
  | _ => False

/- A map that has entries. -/
def FilledMapOf
    (p : Value → Prop) : Value → Prop
  | .map entries =>
      AscendingKeys entries ∧
        (∀ entry ∈ entries, p entry.2) ∧ entries ≠ []
  | _ => False

variable {item : ItemReader}
variable {p : Value → Prop}

/- A slice keeps its items and gets one more. -/
theorem fillItem_sound
    {pre post : Value → Prop}
    (hItem : item.Leaves orderly p)
    (hSlice : ∀ value, pre value →
      ∃ items, value = .slice items)
    (hAppend : ∀ items value,
      pre (.slice items) → p value →
        post (.slice (items ++ [value])))
    (frame : Frame) :
    Sound orderly pre (fillItem item frame .dynamic) post := by
  intro cursor content hContent
  rcases hSlice content hContent with ⟨items, rfl⟩
  show Ends _ _
    (Fill.within (itemPlace items) (item frame .dynamic)
      (cursor, Value.null))
  apply Fill.ends_within.mpr
  apply Ends.imp (hItem frame cursor Value.null trivial)
  · intro _ state hValue
    exact hAppend items state.2 hContent hValue
  · exact fun _ _ h => h

theorem SliceOf.exists_items
    {value : Value}
    (hValue : SliceOf p value) :
    ∃ items, value = .slice items := by
  cases value with
  | slice items => exact ⟨items, rfl⟩
  | _ => exact hValue.elim

theorem fillItem_sliceOf
    (hItem : item.Leaves orderly p)
    (frame : Frame) :
    Sound orderly (SliceOf p) (fillItem item frame .dynamic)
      (SliceOf p) := by
  apply fillItem_sound hItem fun _ => SliceOf.exists_items
  intro items value hItems hValue other hMember
  rcases List.mem_append.mp hMember with hOld | hNew
  · exact hItems other hOld
  · rw [List.mem_singleton.mp hNew]
    exact hValue

/-
  A slice is one of values with the property, even if it is
  empty.
-/
theorem fillSlice_sliceOf
    (hItem : item.Leaves orderly p)
    (frame : Frame) :
    Leaves orderly (fillSlice item frame .dynamic) (SliceOf p) := by
  have hBegin :
      ∀ start,
        Sound orderly (fun _ => True)
          (Fill.store Target.dynamic.beginSlice "" start)
          (SliceOf p) :=
    fun start => .store fun _ _ => ⟨(), _, rfl, nofun⟩
  rw [fillSlice_eq]
  refine .scan (fun _ => .position) fun start => ?_
  apply (hBegin start).bind
  intro _
  refine .scan (fun _ => .peek) fun next => ?_
  split
  · exact .group (fillItem_sliceOf hItem _)
  · exact .pure fun _ h => h
  · exact .pure fun _ h => h
  · exact .pure fun _ h => h
  · exact .pure fun _ h => h
  · refine .loopWhile (fun _ h => h) ?_
    apply (fillItem_sliceOf hItem _).bind
    intro _
    refine .scan (fun _ => .skipBlanks) fun _ => ?_
    split
    · exact .pure fun _ h => h
    · exact .read_last (fun _ => .eat _)

------------------------------------------------------------
-- Maps
------------------------------------------------------------

/- A map keeps its entries or renews one, and is not empty. -/
theorem fillEntry_filledMapOf
    (hItem : item.Leaves orderly p) :
    Sound orderly (MapOf p) (fillEntry item .dynamic)
      (FilledMapOf p) := by
  rw [fillEntry_eq]
  refine .scan (fun _ => .position) fun keyStart => ?_
  refine .scan (fun _ => string_advances _) fun key => ?_
  refine .scan (fun _ => .skipBlanks) fun _ => ?_
  refine .scan (fun _ => .position) fun colonStart => ?_
  refine .scan (fun _ => .eat _) fun colon => ?_
  split
  · intro cursor content hContent
    cases content with
    | map entries =>
        show Ends _ _
          (Fill.within (entryPlace key entries)
            (item .group .dynamic) (cursor, Value.null))
        apply Fill.ends_within.mpr
        refine Ends.imp
          (hItem .group cursor Value.null trivial)
          ?_ (fun _ _ h => h)
        intro _ state hValue
        refine ⟨hContent.1.insertByKey, ?_, ?_⟩
        · intro entry hEntry
          rcases mem_insertByKey hEntry with hNew | hOld
          · rw [hNew]
            exact hValue
          · exact hContent.2 entry hOld
        · exact insertByKey_ne_nil
    | _ => exact hContent.elim
  · exact .unexpected _ _

theorem FilledMapOf.mapOf
    {value : Value}
    (hValue : FilledMapOf p value) :
    MapOf p value := by
  cases value with
  | map entries => exact ⟨hValue.1, hValue.2.1⟩
  | _ => exact hValue

/- A map has entries if it does not end where it begins. -/
theorem fillMap_filledMapOf
    (hItem : item.Leaves True p)
    {cursor : Cursor}
    {content : Value}
    (hOpen : cursor.peek = some '{')
    (hClose : cursor.advance.skipBlanks.peek ≠ some '}') :
    Ends (fun _ state => FilledMapOf p state.2)
      (fun error _ => error.OfText)
      (fillMap item .dynamic (cursor, content)) := by
  have hRun :
      fillMap item .dynamic (cursor, content) =
        Fill.group (fillEntry item .dynamic)
          (cursor, Value.map []) :=
    run_fillMap item .dynamic hOpen content
  have hEmpty : MapOf p (Value.map []) :=
    ⟨List.Pairwise.nil, nofun⟩
  rw [hRun]
  refine Ends.imp
    (Sound.group_or_empty (fun _ h => h.mapOf)
      (fillEntry_filledMapOf hItem) hEmpty)
    ?_ (fun _ _ h => h trivial)
  rintro _ state (hFilled | ⟨_, hEnd⟩)
  · exact hFilled
  · exact absurd hEnd hClose

/- A map is one of values with the property. -/
theorem fillMap_mapOf
    (hItem : item.Leaves orderly p) :
    Leaves orderly (fillMap item .dynamic) (MapOf p) := by
  have hBegin :
      ∀ start,
        Sound orderly (fun _ => True)
          (Fill.store Target.dynamic.beginMap "" start)
          (MapOf p) :=
    fun start => .store fun _ _ =>
      ⟨(), _, rfl, List.Pairwise.nil, nofun⟩
  rw [fillMap_eq]
  refine .scan (fun _ => .position) fun start => ?_
  refine .scan (fun _ => .peek) fun next => ?_
  split
  · apply (hBegin start).bind
    intro _
    exact .group ((fillEntry_filledMapOf hItem).imp
      fun _ h => h.mapOf)
  · exact .unexpected _ _

------------------------------------------------------------
-- Inference
------------------------------------------------------------

theorem inferToken_inferable
    (token : String)
    (start : Nat) :
    Scan.Finds Value.Inferable (inferToken token start) := by
  unfold inferToken
  split
  · exact .pure (.bool true)
  · exact .pure (.bool false)
  · split
    · split
      · exact .pure (.int _)
      · exact .throw (Or.inl trivial)
    · exact .pure (.string _)

/- A run is a slice of what its elements are. -/
theorem inferRun_inferable
    {element : Scan Value}
    (hElement : Scan.Finds Value.Inferable element)
    {first : Value}
    (hFirst : first.Inferable) :
    Scan.Finds Value.Inferable (inferRun element first) := by
  refine .loop
    (q := fun items => ∀ item ∈ items, item.Inferable) ?_ ?_
  · intro items hItems
    apply (Scan.Finds.of_advances fun _ => .eat _).bind
    intro another _
    split
    · refine hElement.bind fun item hItem => ?_
      refine (Scan.Finds.of_advances
        fun _ => .skipBlanks).bind ?_
      intro _ _
      refine .pure ?_
      intro value hValue
      rcases List.mem_cons.mp hValue with hNew | hOld
      · rw [hNew]
        exact hItem
      · exact hItems value hOld
    · refine .pure (.slice ?_)
      intro item hItem
      exact hItems item (List.mem_reverse.mp hItem)
  · intro item hItem
    rw [List.mem_singleton.mp hItem]
    exact hFirst

theorem inferWith_inferable
    {element : Scan Value}
    (hElement : Scan.Finds Value.Inferable element)
    (frame : Frame) :
    Scan.Finds Value.Inferable (inferWith element frame) := by
  refine hElement.bind fun first hFirst => ?_
  split
  · exact .pure hFirst
  · refine (Scan.Finds.of_advances
      fun _ => .skipBlanks).bind ?_
    intro _ _
    apply (Scan.Finds.of_advances fun _ => .peek).bind
    intro next _
    split
    · exact inferRun_inferable hElement hFirst
    · exact .pure hFirst

theorem fillAny_inferable
    {element : Scan Value}
    (hElement : Scan.Finds Value.Inferable element) :
    (fillAny element).Leaves orderly Value.Inferable := by
  intro frame
  refine .scan (fun _ => .position) fun start => ?_
  refine .read (inferWith_inferable hElement frame) ?_
  intro value hValue
  exact .store fun _ _ => ⟨(), _, rfl, hValue⟩

/- A slice or a filled map of what is inferable is so, too. -/
theorem inferable_of_sliceOf
    {value : Value}
    (hValue : SliceOf Value.Inferable value) :
    value.Inferable := by
  cases value with
  | slice items => exact .slice hValue
  | _ => exact hValue.elim

theorem inferable_of_filledMapOf
    {value : Value}
    (hValue : FilledMapOf Value.Inferable value) :
    value.Inferable := by
  cases value with
  | map entries => exact .map hValue.1 hValue.2.2 hValue.2.1
  | _ => exact hValue.elim

/-
  A group that is taken for a map has a colon, and so at
  least one entry.
-/
theorem inferGroup_inferable
    (hItem : item.Leaves True Value.Inferable)
    {cursor : Cursor}
    (hOpen : cursor.peek = some '{') :
    Scan.FindsAt Value.Inferable (inferGroup item)
      cursor := by
  refine .get (.ite (fun hColon => ?_) (fun _ => ?_))
  · refine .imp (.collect (fillMap_filledMapOf hItem hOpen ?_))
      fun _ h => inferable_of_filledMapOf h
    intro hClose
    rw [Cursor.hasTopLevel_of_empty hOpen hClose] at hColon
    cases hColon
  · refine .imp (.collect ?_)
      fun _ h => inferable_of_sliceOf h
    exact Ends.imp
      (fillSlice_sliceOf hItem .group cursor Value.null
        trivial)
      (fun _ _ h => h) (fun _ _ h => h trivial)

/- What is found out from a text is inferable. -/
theorem inferElement_inferable
    (depth : Nat) :
    Scan.Finds Value.Inferable (inferElement depth) := by
  induction depth with
  | zero => exact .throw (Or.inr rfl)
  | succ depth ih =>
      rw [inferElement_succ]
      refine (Scan.Finds.of_advances
        fun _ => .skipBlanks).bind ?_
      intro _ _ cursor
      refine .peek ?_
      split
      · rename_i hOpen
        refine inferGroup_inferable ?_ hOpen
        intro frame
        refine .scan (fun _ => .skipBlanks) fun _ => ?_
        exact fillAny_inferable ih frame
      · rename_i hPeek
        exact .map .string
          (.of_advancesFrom (quoted_advancesFrom hPeek))
      · rename_i hPeek
        exact .map .string
          (.of_advancesFrom (backtick_advancesFrom hPeek))
      · refine ((Scan.Finds.of_advances
          fun _ => .position).bind ?_) cursor
        intro start _
        refine (Scan.Finds.of_advances
          fun _ => bare_advances _).bind ?_
        intro token _
        exact inferToken_inferable _ _

theorem element_inferable :
    Scan.Finds Value.Inferable element := by
  intro cursor
  unfold element
  exact .get (inferElement_inferable _ cursor)

end Literal

------------------------------------------------------------
-- Descriptors
------------------------------------------------------------

namespace Descriptor

open Literal

theorem fits_of_sliceOf
    {item : Descriptor}
    {value : Value}
    (hValue : SliceOf (Value.Fits item) value) :
    Value.Fits (.nested .slice item) value := by
  cases value with
  | slice items => exact .slice hValue
  | _ => exact hValue.elim

theorem fits_of_mapOf
    {item : Descriptor}
    {value : Value}
    (hValue : MapOf (Value.Fits item) value) :
    Value.Fits (.nested .map item) value := by
  cases value with
  | map entries => exact .map hValue.1 hValue.2
  | _ => exact hValue.elim

/- Kinds without a grammar of their own refuse all texts. -/
theorem fillFlat_fits
    (descriptor : Descriptor)
    (frame : Frame) :
    Leaves (plain descriptor.kind).WellFormed
      (descriptor.fillFlat frame .dynamic)
      (Value.Fits (.plain descriptor.kind)) := by
  unfold fillFlat
  cases descriptor.kind with
  | any =>
      exact (fillAny_inferable element_inferable frame).imp
        fun _ h => .any h
  | bool => exact fillBool_fits
  | signed => exact fillSigned_fits
  | unsigned => exact fillUnsigned_fits
  | string => exact fillString_fits
  | raw => exact fillRaw_fits frame
  | invalid => exact fun _ _ _ h => absurd rfl h.1
  | slice => exact fun _ _ _ h => absurd rfl h.2.1
  | map => exact fun _ _ _ h => absurd rfl h.2.2

/-
  The grammars leave values that fit the cores of their
  descriptors, whether these are well formed or not.
-/
theorem fill_fits
    (descriptor : Descriptor) :
    descriptor.fill.Leaves descriptor.WellFormed
      (Value.Fits descriptor.core) := by
  induction descriptor with
  | plain kind =>
      intro frame
      rw [fill_eq]
      refine .scan (fun _ => .skipBlanks) fun _ => ?_
      exact fillFlat_fits (.plain kind) frame
  | nested kind item ih =>
      intro frame
      rw [fill_eq]
      refine .scan (fun _ => .skipBlanks) fun _ => ?_
      cases kind with
      | slice =>
          exact (fillSlice_sliceOf ih frame).imp
            fun _ h => fits_of_sliceOf h
      | map =>
          exact (fillMap_mapOf ih).imp
            fun _ h => fits_of_mapOf h
      | _ => exact (fillFlat_fits _ frame).mono nofun

/- The outcome of an action tells how its run ended. -/
theorem outcomeOf_ends
    {action : Fill δ Unit}
    {cursor : Cursor}
    {content : δ}
    {post : δ → Prop}
    {fail : ReadError → Prop}
    (hEnds :
      Ends (fun _ state => post state.2)
        (fun error _ => fail error)
        (action (cursor, content))) :
    (∃ error,
      (outcomeOf action cursor content).result =
          .error error ∧
        fail error) ∨
      (outcomeOf action cursor content).result = .ok () ∧
        post (outcomeOf action cursor content).content := by
  unfold outcomeOf
  cases hRun : action (cursor, content) with
  | ok result state =>
      rw [hRun] at hEnds
      exact Or.inr ⟨rfl, hEnds⟩
  | error error state =>
      rw [hRun] at hEnds
      exact Or.inl ⟨error, rfl, hEnds⟩

/- A well-formed descriptor leaves errors to the text. -/
theorem readValue_ends
    {descriptor : Descriptor}
    (hDescriptor : descriptor.WellFormed)
    (text : String) :
    (∃ error,
      (descriptor.readValue text).result = .error error ∧
        error.Lexical) ∨
      (descriptor.readValue text).result = .ok () ∧
        Value.Fits descriptor
          (descriptor.readValue text).content := by
  have hSound :
      Sound descriptor.WellFormed (fun _ => True)
        (do
          descriptor.fill .whole .dynamic
          expectEnd)
        (Value.Fits descriptor.core) :=
    (fill_fits descriptor .whole).bind
      fun _ => .read_last fun _ => expectEnd_advances
  have hEnds :=
    (hSound (.ofText text) Value.null trivial).and
      (descriptor.read_answers .dynamic
        (.ofText text, Value.null))
  rw [core_of_wellFormed hDescriptor] at hEnds
  exact outcomeOf_ends (Ends.imp hEnds
    (fun _ _ hValue => hValue.1)
    (fun _ _ hError =>
      (hError.1 hDescriptor).lexical hError.2))

/-
  Reading a text by the descriptor of a shape fails because
  of the text, or yields a value that fits the descriptor.
-/
theorem readValue_fits
    {shape : Shape}
    {descriptor : Descriptor}
    (hShape : ofShape shape = .ok descriptor)
    (text : String) :
    (∃ error,
      (descriptor.readValue text).result = .error error ∧
        error.Lexical) ∨
      (descriptor.readValue text).result = .ok () ∧
        Value.Fits descriptor
          (descriptor.readValue text).content :=
  readValue_ends (wellFormed_of_ofShape hShape) text

/- A group inside of a group is found out to be a slice. -/
theorem readValue_fits_nested_group :
    ofShape (.map .string (.pointer (.slice .any))) =
        .ok (.nested .map (.nested .slice (.plain .any))) ∧
      Value.Fits
        (.nested .map (.nested .slice (.plain .any)))
        (readValue
          (.nested .map (.nested .slice (.plain .any)))
          "\x7ba: \x7b1, x\x7d\x7d").content := by
  have hShape :
      ofShape (.map .string (.pointer (.slice .any))) =
        .ok (.nested .map (.nested .slice (.plain .any))) :=
    rfl
  refine ⟨hShape, ?_⟩
  rcases readValue_fits hShape "\x7ba: \x7b1, x\x7d\x7d" with
    ⟨error, hResult, _⟩ | ⟨_, hFits⟩
  · cases hResult
  · exact hFits

end Descriptor

end Marginalia
