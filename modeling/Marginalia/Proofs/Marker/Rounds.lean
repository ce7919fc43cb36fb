import Marginalia.Proofs.Entries
import Marginalia.Proofs.Literal.LookAhead
import Marginalia.Proofs.Marker.Heads

/-
  The arguments of a line, which are read one in a round.

  Key definitions include:
    * `Marker.argumentRounds`

  Main statements:
    * `Marker.nextArgumentBy_eq_some`
    * `Marker.nextArgumentBy_of_label`
    * `Marker.argumentRounds_succ_eq_ok`
    * `Marker.invariant_of_rounds`
    * `Marker.rounds_suffice`
    * `Marker.scanArgumentsBy_eq_ok`
    * `Marker.scanNoArguments_eq_ok`
-/

namespace Marginalia

namespace Marker

open Literal

------------------------------------------------------------
-- Listed Names
------------------------------------------------------------

/-
  A name is read where it begins behind blanks, and so is the
  sign behind the blanks after it.
-/
theorem scanName_of_ahead
    (text : String)
    {cursor : Cursor}
    {name : String}
    {blanks rest : List Char}
    (hName : IsName name)
    (hBlanks : Text.Blank blanks)
    (hAhead :
      cursor.skipBlanks.ahead =
        name.toList ++ (blanks ++ '=' :: rest)) :
    ∃ place,
      scanName text cursor = .ok name place ∧
        place.ahead = rest := by
  have hStop :
      ∀ c, (blanks ++ '=' :: rest).head? = some c →
        isNameChar c = false := by
    intro c hHead
    cases blanks with
    | nil =>
        cases hHead
        decide
    | cons d blanks =>
        cases hHead
        simp [isNameChar, hBlanks c List.mem_cons_self]
  have hTake := Text.takeWhile_front hName hStop
  have hDrop := Text.dropWhile_front hName hStop
  rw [← hAhead] at hTake hDrop
  have hLeft :
      (cursor.skipBlanks.span isNameChar).2.skipBlanks.ahead =
        '=' :: rest := by
    rw [Cursor.skipBlanks_ahead, Cursor.span_ahead, hDrop,
      Text.trimStart_append_of_blank hBlanks]
    exact Text.trimStart_cons (by decide) rest
  have hPeek := Cursor.peek_eq_some_iff.mpr ⟨rest, hLeft⟩
  have hRun :
      scanName text cursor =
        (do
          let found :=
            String.ofList (cursor.skipBlanks.span isNameChar).1
          if ← Scan.eat (σ := Cursor) '=' then
            return found
          else
            throw (.malformed text (.noEquals found)) :
          LineScan String)
          (cursor.skipBlanks.span isNameChar).2.skipBlanks :=
    rfl
  refine ⟨(cursor.skipBlanks.span
    isNameChar).2.skipBlanks.advance, ?_, ?_⟩
  · have hTaken :
        (cursor.skipBlanks.span isNameChar).1 =
          name.toList :=
      hTake
    rw [hRun, run_bind, run_eat, if_pos hPeek, hTaken]
    dsimp only
    rw [if_pos rfl, String.ofList_toList]
    rfl
  · rw [Cursor.advance_ahead, hLeft]
    rfl

------------------------------------------------------------
-- Next Arguments
------------------------------------------------------------

variable {look : Scan Bool}
variable {definition? : Option Definition}
variable {text marker name : String}
variable {cursor place : Cursor}
variable {value : Value}

/- At the end of a line there is no argument. -/
theorem run_nextArgumentBy
    (cursor : Cursor) :
    nextArgumentBy look text marker definition? cursor =
      if cursor.skipBlanks.ahead = [] then
        .ok none cursor.skipBlanks
      else
        listedArgumentBy look text marker definition?
          cursor.skipBlanks := by
  have hRun :
      nextArgumentBy look text marker definition? cursor =
        (if cursor.skipBlanks.atEnd = true then
          return none
        else
          listedArgumentBy look text marker definition?)
          cursor.skipBlanks :=
    rfl
  rw [hRun]
  by_cases hEnd : cursor.skipBlanks.ahead = []
  · have hAtEnd : cursor.skipBlanks.atEnd = true :=
      List.isEmpty_iff.mpr hEnd
    rw [if_pos hEnd, if_pos hAtEnd]
    rfl
  · have hAtEnd : ¬ cursor.skipBlanks.atEnd = true :=
      fun h => hEnd (List.isEmpty_iff.mp h)
    rw [if_neg hEnd, if_neg hAtEnd]

/- An argument is a comma, a name and a value. -/
theorem listedArgumentBy_eq_ok
    {cursor cursor' : Cursor}
    {next : Option (String × Value)} :
    listedArgumentBy look text marker definition? cursor =
        .ok next cursor' ↔
      cursor.peek = some ',' ∧
        ∃ name value place,
          next = some (name, value) ∧
            scanName text cursor.advance = .ok name place ∧
              scanNamedBy look text marker definition? name
                  place =
                .ok value cursor' := by
  unfold listedArgumentBy
  rw [run_bind, run_eat]
  by_cases hPeek : cursor.peek = some ','
  · rw [if_pos hPeek]
    dsimp only
    rw [if_pos rfl]
    constructor
    · intro hRun
      rcases run_bind_eq_ok.mp hRun with
        ⟨name, place, hName, hRest⟩
      rcases run_bind_eq_ok.mp hRest with
        ⟨value, place', hValue, hRest⟩
      cases hRest
      exact ⟨hPeek, name, value, place, rfl, hName, hValue⟩
    · rintro ⟨_, name, value, place, rfl, hName, hValue⟩
      rw [run_bind_of_ok hName, run_bind_of_ok hValue]
      rfl
  · rw [if_neg hPeek]
    constructor
    · intro hRun
      cases hRun
    · rintro ⟨hComma, _⟩
      exact absurd hComma hPeek

/- There is no other argument where only blanks are left. -/
theorem nextArgumentBy_eq_none :
    nextArgumentBy look text marker definition? cursor =
        .ok none place ↔
      cursor.skipBlanks.ahead = [] ∧
        place = cursor.skipBlanks := by
  rw [run_nextArgumentBy]
  split
  · rename_i hEnd
    constructor
    · rintro ⟨⟩
      exact ⟨hEnd, rfl⟩
    · rintro ⟨_, rfl⟩
      rfl
  · rename_i hMore
    rw [listedArgumentBy_eq_ok]
    constructor
    · rintro ⟨_, _, _, _, ⟨⟩, _⟩
    · rintro ⟨hEnd, _⟩
      exact absurd hEnd hMore

/- There is one where blanks, a comma and its name are next. -/
theorem nextArgumentBy_eq_some :
    nextArgumentBy look text marker definition? cursor =
        .ok (some (name, value)) place ↔
      cursor.skipBlanks.peek = some ',' ∧
        ∃ start,
          scanName text cursor.skipBlanks.advance =
              .ok name start ∧
            scanNamedBy look text marker definition? name
                start =
              .ok value place := by
  rw [run_nextArgumentBy]
  split
  · rename_i hEnd
    constructor
    · rintro ⟨⟩
    · rintro ⟨hPeek, _⟩
      rw [Cursor.peek_eq_none_iff.mpr hEnd] at hPeek
      cases hPeek
  · rw [listedArgumentBy_eq_ok]
    constructor
    · rintro ⟨hPeek, _, _, start, ⟨⟩, hName, hValue⟩
      exact ⟨hPeek, start, hName, hValue⟩
    · rintro ⟨hPeek, start, hName, hValue⟩
      exact ⟨hPeek, name, value, start, rfl, hName, hValue⟩

/-
  Behind a comma, a name and the sign after it, the value is
  read that is found there.
-/
theorem nextArgumentBy_of_label
    {before after rest : List Char}
    (hName : IsName name)
    (hBefore : Text.Blank before)
    (hAfter : Text.Blank after)
    (hAhead :
      Text.trimStart cursor.ahead =
        ',' ::
          (before ++
            (name.toList ++ (after ++ '=' :: rest)))) :
    ∃ start,
      start.ahead = rest ∧
        ∀ value place,
          scanNamedBy look text marker definition? name
                start =
              .ok value place →
            nextArgumentBy look text marker definition?
                cursor =
              .ok (some (name, value)) place := by
  have hComma := Cursor.skipBlanks_ahead cursor
  rw [hAhead] at hComma
  have hLabel :
      cursor.skipBlanks.advance.skipBlanks.ahead =
        Text.trimStart
          (name.toList ++ (after ++ '=' :: rest)) := by
    rw [Cursor.skipBlanks_ahead, Cursor.advance_ahead, hComma]
    exact Text.trimStart_append_of_blank hBefore _
  -- Where the name is empty, all blanks are before it.
  have hScan :
      ∃ start,
        scanName text cursor.skipBlanks.advance =
            .ok name start ∧
          start.ahead = rest := by
    by_cases hEmpty : name.toList = []
    · rw [hEmpty, List.nil_append,
        Text.trimStart_append_of_blank hAfter,
        Text.trimStart_cons (by decide)] at hLabel
      apply scanName_of_ahead text hName
        (List.forall_mem_nil _)
      rw [hLabel, hEmpty]
      rfl
    · rw [trimStart_name hName hEmpty] at hLabel
      exact scanName_of_ahead text hName hAfter hLabel
  rcases hScan with ⟨start, hRun, hStart⟩
  refine ⟨start, hStart, ?_⟩
  intro value place hValue
  exact nextArgumentBy_eq_some.mpr
    ⟨Cursor.peek_eq_some_iff.mpr ⟨_, hComma⟩, start, hRun,
      hValue⟩

------------------------------------------------------------
-- Progress
------------------------------------------------------------

theorem scanName_reaches
    {cursor place : Cursor}
    {name : String}
    (hRun : scanName text cursor = .ok name place) :
    cursor.Reaches place := by
  rcases run_bind_eq_ok.mp hRun with
    ⟨_, first, hBlanks, hRest⟩
  cases hBlanks
  rcases run_bind_eq_ok.mp hRest with
    ⟨taken, second, hTake, hRest⟩
  cases hTake
  rcases run_bind_eq_ok.mp hRest with
    ⟨_, third, hBlanks, hRest⟩
  cases hBlanks
  rcases run_bind_eq_ok.mp hRest with
    ⟨eaten, last, hEat, hRest⟩
  have hBefore :=
    ((Cursor.Reaches.skipBlanks cursor).trans
      (.span _ isNameChar)).trans (.skipBlanks _)
  rw [run_eat] at hEat
  split at hEat
  · cases hEat
    cases hRest
    exact hBefore.trans (.advance _)
  · cases hEat
    cases hRest

theorem scanDeclaredBy_reaches
    {cursor place : Cursor}
    {parameter? : Option Parameter}
    {value : Value}
    (hRun :
      scanDeclaredBy seesColon parameter? cursor =
        .ok value place) :
    cursor.Reaches place := by
  have hValue := (scanDeclaredBy_eq_ok.mp hRun).1
  rw [Descriptor.fillBy_seesColon] at hValue
  have hFill :=
    (declared parameter?).fill_advances _ .group .dynamic
      (cursor.skipBlanks, Value.null) (Nat.lt_succ_self _)
  have hAdvances := AdvancesFrom.collect Value.null hFill
  unfold AdvancesFrom at hAdvances
  unfold scanValue at hValue
  have hPlace := (Ends.of_ok hAdvances hValue).1
  exact (Cursor.Reaches.skipBlanks cursor).trans hPlace

theorem scanNamedBy_reaches
    {cursor place : Cursor}
    {name : String}
    {value : Value}
    (hRun :
      scanNamedBy seesColon text marker definition? name
          cursor =
        .ok value place) :
    cursor.Reaches place := by
  rcases scanNamedBy_eq_ok hRun with ⟨_, _, hScan, _⟩
  exact scanDeclaredBy_reaches hScan

/- An argument takes at least a comma. -/
theorem nextArgumentBy_length
    (hRun :
      nextArgumentBy seesColon text marker definition?
          cursor =
        .ok (some (name, value)) place) :
    place.ahead.length < cursor.ahead.length := by
  rcases nextArgumentBy_eq_some.mp hRun with
    ⟨hPeek, start, hName, hValue⟩
  have hRest :=
    (scanName_reaches hName).trans
      (scanNamedBy_reaches hValue)
  calc
    place.ahead.length ≤
        cursor.skipBlanks.advance.ahead.length :=
      hRest.length_le
    _ < cursor.skipBlanks.ahead.length :=
      Cursor.advance_length hPeek
    _ ≤ cursor.ahead.length :=
      (Cursor.Reaches.skipBlanks cursor).length_le

------------------------------------------------------------
-- Rounds
------------------------------------------------------------

/- The rounds in which arguments are put to earlier ones. -/
def argumentRounds
    (next : LineScan (Option (String × Value)))
    (rounds : Nat)
    (read : Arguments) : LineScan Arguments :=
  iterate (.literal .exhausted) (argumentRound next) rounds
    read

section Rounds

variable {next : LineScan (Option (String × Value))}
variable {rounds : Nat}
variable {read result : Arguments}
variable {final : Cursor}

/- An argument asks for another round. -/
theorem argumentRounds_of_some
    (hNext : next cursor = .ok (some (name, value)) place)
    (rounds : Nat)
    (read : Arguments) :
    argumentRounds next (rounds + 1) read cursor =
      argumentRounds next rounds (read.insert name value)
        place := by
  apply iterate_succ_of_again
  unfold argumentRound
  rw [run_bind_of_ok hNext]
  rfl

theorem argumentRounds_of_none
    (hNext : next cursor = .ok none place)
    (rounds : Nat)
    (read : Arguments) :
    argumentRounds next (rounds + 1) read cursor =
      .ok read place := by
  apply iterate_succ_of_done
  unfold argumentRound
  rw [run_bind_of_ok hNext]
  rfl

/- Rounds that succeed end at once, or go on likewise. -/
theorem argumentRounds_succ_eq_ok :
    argumentRounds next (rounds + 1) read cursor =
        .ok result final ↔
      next cursor = .ok none final ∧ result = read ∨
        ∃ name value place,
          next cursor = .ok (some (name, value)) place ∧
            argumentRounds next rounds
                (read.insert name value) place =
              .ok result final := by
  constructor
  · intro hRun
    rcases run_bind_eq_ok.mp hRun with
      ⟨step, place, hRound, hRest⟩
    rcases run_bind_eq_ok.mp hRound with
      ⟨found?, place', hNext, hStep⟩
    cases found? with
    | none =>
        left
        cases hStep
        cases hRest
        exact ⟨hNext, rfl⟩
    | some entry =>
        right
        cases hStep
        exact ⟨entry.1, entry.2, _, hNext, hRest⟩
  · rintro (⟨hNext, rfl⟩ | ⟨name, value, place, hNext, hRest⟩)
    · exact argumentRounds_of_none hNext rounds result
    · rw [argumentRounds_of_some hNext]
      exact hRest

/-
  What holds of arguments holds after all rounds, if every
  argument that is read keeps it.
-/
theorem invariant_of_rounds
    {holds : Arguments → Prop}
    (hNext : ∀ read cursor name value place,
      next cursor = .ok (some (name, value)) place →
        holds read → holds (read.insert name value))
    (hRun :
      argumentRounds next rounds read cursor =
        .ok result final)
    (hRead : holds read) :
    holds result := by
  induction rounds generalizing read cursor with
  | zero => cases hRun
  | succ rounds ih =>
      rcases argumentRounds_succ_eq_ok.mp hRun with
        ⟨_, rfl⟩ | ⟨name, value, place, hFound, hRest⟩
      · exact hRead
      · exact ih hRest (hNext _ _ _ _ _ hFound hRead)

/- What has been read stays, or is renewed. -/
theorem isSome_get?_of_rounds
    (hRun :
      argumentRounds next rounds read cursor =
        .ok result final)
    (hRead : (read.get? name).isSome) :
    (result.get? name).isSome := by
  apply invariant_of_rounds
    (fun read _ other value _ _ hRead => ?_) hRun hRead
  rw [Entries.get?_insert]
  split
  · rfl
  · exact hRead

end Rounds

/- Where only blanks are left, one round is enough. -/
theorem argumentRounds_of_end
    (hEnd : cursor.skipBlanks.ahead = [])
    (rounds : Nat)
    (read : Arguments) :
    argumentRounds
        (nextArgumentBy look text marker definition?)
        (rounds + 1) read cursor =
      .ok read cursor.skipBlanks :=
  argumentRounds_of_none
    (nextArgumentBy_eq_none.mpr ⟨hEnd, rfl⟩) rounds read

/- One round for each character and one more are enough. -/
theorem rounds_suffice
    {rounds rounds' : Nat}
    {read result : Arguments}
    {final : Cursor}
    (hRun :
      argumentRounds
          (nextArgumentBy seesColon text marker definition?)
          rounds read cursor =
        .ok result final)
    (hRounds : cursor.ahead.length < rounds') :
    argumentRounds
        (nextArgumentBy seesColon text marker definition?)
        rounds' read cursor =
      .ok result final := by
  apply iterate_eq_ok_of_measure
    (fun cursor : Cursor => cursor.ahead.length) ?_ hRun
    hRounds
  intro read cursor next cursor' hRound
  rcases run_bind_eq_ok.mp hRound with
    ⟨found?, place, hNext, hRest⟩
  cases found? with
  | none => cases hRest
  | some entry =>
      cases hRest
      exact nextArgumentBy_length hNext

/- The arguments are the first one and those of the rounds. -/
theorem scanArgumentsBy_eq_ok
    {final : Cursor}
    {result : Arguments} :
    scanArgumentsBy look text marker definition? name
          cursor =
        .ok result final ↔
      ∃ value place,
        scanNamedBy look text marker definition? name
              cursor =
            .ok value place ∧
          argumentRounds
              (nextArgumentBy look text marker definition?)
              (place.ahead.length + 1)
              (Entries.empty.insert name value) place =
            .ok result final := by
  unfold scanArgumentsBy
  constructor
  · intro hRun
    rcases run_bind_eq_ok.mp hRun with
      ⟨value, place, hValue, hRest⟩
    exact ⟨value, place, hValue, hRest⟩
  · rintro ⟨value, place, hValue, hRest⟩
    rw [run_bind_of_ok hValue]
    exact hRest

/- Without arguments there are only blanks after the name. -/
theorem scanNoArguments_eq_ok
    {read : Arguments}
    (hRun : scanNoArguments text cursor = .ok read place) :
    read = Entries.empty ∧ Text.Blank cursor.ahead := by
  rcases run_bind_eq_ok.mp hRun with
    ⟨_, start, hBlanks, hRest⟩
  cases hBlanks
  rcases run_bind_eq_ok.mp hRest with ⟨_, last, hGet, hEnd⟩
  cases hGet
  split at hEnd
  · rename_i hAtEnd
    cases hEnd
    exact ⟨rfl, List.dropWhile_eq_nil_iff.mp
      (List.isEmpty_iff.mp hAtEnd)⟩
  · cases hEnd

end Marker

end Marginalia
