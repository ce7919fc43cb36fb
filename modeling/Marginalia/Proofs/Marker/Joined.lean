import Marginalia.Proofs.Marker.Carrying

/-
  Two arguments that are read from lines of their own are read
  from a joined line, unless a look-ahead in the first one is
  misled by what follows it.

  Key definitions include:
    * `Marker.joinedLine`
    * `Marker.following`
    * `Marker.StandsAlone`
    * `Marker.Undisturbed`

  Main statements:
    * `Marker.scanArgumentsBy_joined`
    * `Marker.ofLine_joinedLine`
-/

namespace Marginalia

open Cursor (Before CommaNext)

namespace Marker

open Literal

------------------------------------------------------------
-- Required Arguments
------------------------------------------------------------

variable {marker name literal : String}
variable {definition? : Option Definition}

/- More arguments do no harm. -/
theorem missing?_eq_none
    {read read' : Arguments}
    (hMissing : missing? definition? read = none)
    (hMore : ∀ name,
      (read.get? name).isSome → (read'.get? name).isSome) :
    missing? definition? read' = none := by
  cases definition? with
  | none => rfl
  | some definition =>
      rw [missing?_eq_none_iff] at hMissing ⊢
      intro parameter hMember hRequired
      exact hMore _ (hMissing parameter hMember hRequired)

------------------------------------------------------------
-- Joined Arguments
------------------------------------------------------------

variable {look : Scan Bool}
variable {text text' : String}

/- A single argument is the only one that is not raw. -/
theorem rawFreeAt_of_single
    {value : Value}
    (hRawFree : RawFreeAt definition? name)
    (other : String)
    (hOther :
      ((Entries.empty.insert name value).get? other).isSome) :
    RawFreeAt definition? other := by
  rw [Entries.get?_insert] at hOther
  by_cases hSame : other = name
  · rw [hSame]
    exact hRawFree
  · rw [if_neg hSame] at hOther
    cases hOther

theorem Overlays.refl
    (read : Arguments) :
    Overlays Entries.empty read read := by
  intro name
  rw [Entries.get?_empty, Option.or_none]

theorem Overlays.eq
    {read read' : Arguments}
    (hOverlays : Overlays Entries.empty read read') :
    read' = read := by
  apply Entries.ext_get?
  intro name
  rw [hOverlays name, Entries.get?_empty, Option.or_none]

/- A single argument over others is put among them. -/
theorem Overlays.eq_insert
    {base read' : Arguments}
    {value : Value}
    (hOverlays :
      Overlays base (Entries.empty.insert name value) read') :
    read' = base.insert name value := by
  apply Entries.ext_get?
  intro other
  rw [hOverlays other, Entries.get?_insert,
    Entries.get?_insert, Entries.get?_empty]
  by_cases hSame : other = name
  · rw [if_pos hSame, if_pos hSame, Option.some_or]
  · rw [if_neg hSame, if_neg hSame, Option.none_or]

/- In one text there is nothing that look-aheads could miss. -/
theorem seesColon_carries :
    LookCarries [] seesColon seesColon := by
  rintro first second result state' ⟨hBefore, hPeek⟩ hRun
  have hAhead := (hBefore.ahead_of_peek hPeek).1
  have hNext := (hBefore.ahead_of_peek hPeek).2
  rw [List.append_nil] at hAhead
  cases hRun
  refine ⟨second, ?_, hBefore, hPeek⟩
  have hSame :
      second.hasTopLevel ':' = first.hasTopLevel ':' := by
    unfold Cursor.hasTopLevel
    rw [hAhead]
  rw [← hSame]
  rfl

/- The look-ahead that sees the tail sees all of both texts. -/
theorem seesColonBefore_carries
    (tail : List Char) :
    LookCarries tail (seesColonBefore tail) seesColon := by
  rintro first second result state' ⟨hBefore, hPeek⟩ hRun
  have hAhead := (hBefore.ahead_of_peek hPeek).1
  cases hRun
  refine ⟨second, ?_, hBefore, hPeek⟩
  rw [← hAhead]
  rfl

/-
  The rounds of the first text are followed by a round for the
  first argument of the second one, and by its rounds.
-/
theorem scanArgumentsBy_joined
    (textJoined : String)
    {tail : List Char}
    {other : String}
    {value value' : Value}
    {first second joined final final' : Cursor}
    (hTail :
      Text.trimStart tail =
        ',' :: ' ' :: (other.toList ++ '=' :: second.ahead))
    (hLook : LookCarries tail look seesColon)
    (hOther : IsName other)
    (hRawFree : RawFreeAt definition? name)
    (hRawFree' : RawFreeAt definition? other)
    (hFirst :
      scanArgumentsBy look text marker definition? name
          first =
        .ok (Entries.empty.insert name value) final)
    (hSecond :
      scanArgumentsBy seesColon text' marker definition? other
          second =
        .ok (Entries.empty.insert other value') final')
    (hJoined : joined.ahead = first.ahead ++ tail) :
    ∃ last,
      scanArgumentsBy seesColon textJoined marker definition?
          name joined =
        .ok ((Entries.empty.insert name value).insert other
          value') last := by
  have hComma : CommaNext tail := by
    intro c hHead
    rw [hTail] at hHead
    cases hHead
    rfl
  have hNone : CommaNext [] := nofun
  rcases scanArgumentsBy_eq_ok.mp hFirst with
    ⟨found, place, hValue, hRounds⟩
  rcases scanArgumentsBy_eq_ok.mp hSecond with
    ⟨found', place', hValue', hRounds'⟩
  rcases scanNamedBy_carries textJoined hComma hLook hRawFree
      first joined found place (Or.inl hJoined) hValue with
    ⟨start, hStart, hPlace⟩
  rcases rounds_carries textJoined hComma hLook hRounds
      (rawFreeAt_of_single hRawFree) hPlace
      (Overlays.refl _) with
    ⟨count, read, middle, hRead, hMiddle, hMore⟩
  rw [hRead.eq] at hMore
  -- The first argument of the second text is a round.
  rw [hTail, Cursor.skipBlanks_ahead] at hMiddle
  have hSpace : Text.Blank [' '] := by
    unfold Text.Blank
    decide
  rcases nextArgumentBy_of_label hOther hSpace
      (List.forall_mem_nil _) hMiddle with
    ⟨after, hAfter, hNext⟩
  have hSame : Before [] second after :=
    Or.inl (by rw [hAfter, List.append_nil])
  rcases scanNamedBy_carries textJoined hNone
      seesColon_carries hRawFree' second after found' place'
      hSame hValue' with
    ⟨start', hStart', hPlace'⟩
  -- The rounds of the second text come after it.
  have hBase :
      Overlays (Entries.empty.insert name value)
        Entries.empty (Entries.empty.insert name value) := by
    intro key
    rw [Entries.get?_empty, Option.none_or]
  rcases rounds_carries textJoined hNone seesColon_carries
      hRounds' (rawFreeAt_of_single hRawFree') hPlace'
      (hBase.insert other found') with
    ⟨count', read', last, hRead', hLast, hMore'⟩
  rw [hRead'.eq_insert] at hMore'
  refine ⟨last.skipBlanks, ?_⟩
  apply scanArgumentsBy_eq_ok.mpr
  refine ⟨found, start, hStart, ?_⟩
  apply rounds_suffice ?_ (Nat.lt_succ_self _)
  · exact 1 + count' + 1 + count
  · rw [hMore,
      argumentRounds_of_some (hNext found' start' hStart'),
      hMore', argumentRounds_of_end hLast]

------------------------------------------------------------
-- Joined Lines
------------------------------------------------------------

/- A line with two arguments. -/
def joinedLine
    (marker name literal other literal' : String) : String :=
  argumentLine marker name
    (literal ++ ", " ++ other ++ "=" ++ literal')

/- What a longer line has after the characters of a line. -/
def following
    (line longer : String) : List Char :=
  (Text.trim longer.toList).drop
    (Text.trim line.toList).length

variable {other literal' : String}

/- The second argument comes after the first one and blanks. -/
theorem following_joinedLine :
    Text.trimEnd
        (literal ++ ", " ++ other ++ "=" ++ literal').toList =
      Text.trimEnd literal.toList ++
        following (argumentLine marker name literal)
          (joinedLine marker name literal other literal') ∧
    Text.trimStart
        (following (argumentLine marker name literal)
          (joinedLine marker name literal other literal')) =
      ',' :: ' ' ::
        (other.toList ++ '=' :: Text.trimEnd literal'.toList) := by
  rcases Text.exists_trimEnd_append_blank literal.toList with
    ⟨blanks, hBlanks, hLiteral⟩
  have hTrimmed :
      Text.trimEnd
          (literal ++ ", " ++ other ++ "=" ++ literal').toList =
        Text.trimEnd literal.toList ++
          (blanks ++ ',' :: ' ' ::
            (other.toList ++
              '=' :: Text.trimEnd literal'.toList)) := by
    have hText :
        (literal ++ ", " ++ other ++ "=" ++ literal').toList =
          (literal.toList ++ ',' :: ' ' :: other.toList) ++
            '=' :: literal'.toList := by
      simp
    rw [hText, Text.trimEnd_append_cons (by decide)]
    conv_lhs => rw [hLiteral]
    simp
  have hFollowing :
      following (argumentLine marker name literal)
          (joinedLine marker name literal other literal') =
        blanks ++ ',' :: ' ' ::
          (other.toList ++
            '=' :: Text.trimEnd literal'.toList) := by
    unfold following joinedLine
    rw [trim_argumentLine, trim_argumentLine, hTrimmed]
    simp
  rw [hFollowing]
  constructor
  · exact hTrimmed
  · rw [Text.trimStart_append_of_blank hBlanks,
      Text.trimStart_cons (by decide)]

/-
  The argument is neither raw nor part of the name of a
  definition, and on a line of its own it has the value.
-/
structure StandsAlone
    (registry : Registry)
    (marker name literal : String)
    (value : Value) : Prop where
  isName : IsName name
  noColon : ':' ∉ name.toList
  free : registry.lookup? (marker ++ ":" ++ name) = none
  rawFree : RawFreeAt (registry.lookup? marker) name
  read :
    ∃ found,
      ofLine registry (argumentLine marker name literal) =
          .ok found ∧
        found.arguments = Entries.empty.insert name value

/-
  The line denotes the same if its look-aheads see what the
  longer line has after it.
-/
def Undisturbed
    (registry : Registry)
    (line longer : String) : Prop :=
  ofLineBy (seesColonBefore (following line longer)) registry
      line =
    ofLine registry line

/-
  Arguments are independent of each other, unless look-aheads
  in the first one are disturbed by the second one.
-/
theorem ofLine_joinedLine
    {registry : Registry}
    {value value' : Value}
    (hMarker : IsName marker)
    (hFirst :
      StandsAlone registry marker name literal value)
    (hSecond :
      StandsAlone registry marker other literal' value')
    (hLook :
      Undisturbed registry (argumentLine marker name literal)
        (joinedLine marker name literal other literal')) :
    ∃ joined,
      ofLine registry
          (joinedLine marker name literal other literal') =
        .ok joined ∧
      joined.arguments =
        (Entries.empty.insert name value).insert other
          value' := by
  rcases hFirst.read with ⟨first, hLine, hArguments⟩
  rcases hSecond.read with ⟨second, hLine', hArguments'⟩
  rcases @following_joinedLine marker name literal other
      literal' with
    ⟨hTrimmed, hTail⟩
  unfold Undisturbed at hLook
  generalize following (argumentLine marker name literal)
      (joinedLine marker name literal other literal') = tail
    at hLook hTrimmed hTail
  rw [hLine] at hLook
  rw [← ofLineBy_seesColon] at hLine'
  -- Each of the three lines is its arguments after a head.
  rcases ofLineBy_argumentLine (seesColonBefore tail) hMarker
      hFirst.isName hFirst.noColon hFirst.free literal with
    ⟨cursor, hAhead, _, hHead⟩
  rcases ofLineBy_argumentLine seesColon hMarker hSecond.isName
      hSecond.noColon hSecond.free literal' with
    ⟨cursor', hAhead', _, hHead'⟩
  rcases ofLineBy_argumentLine seesColon hMarker hFirst.isName
      hFirst.noColon hFirst.free
      (literal ++ ", " ++ other ++ "=" ++ literal') with
    ⟨place, hPlace, _, hJoined⟩
  rw [hHead] at hLook
  rw [hHead'] at hLine'
  rcases complete_eq_ok hLook with ⟨_, hRead, hMissing⟩
  rcases complete_eq_ok hLine' with ⟨_, hRead', _⟩
  rw [hArguments] at hRead hMissing
  rw [hArguments'] at hRead'
  rw [hTrimmed, ← hAhead] at hPlace
  rw [← hAhead'] at hTail
  rcases scanArgumentsBy_joined _ hTail
      (seesColonBefore_carries tail) hSecond.isName
      hFirst.rawFree hSecond.rawFree hRead hRead' hPlace with
    ⟨last, hAll⟩
  have hNone :
      missing? (registry.lookup? marker)
        ((Entries.empty.insert name value).insert other
          value') = none := by
    apply missing?_eq_none hMissing
    intro key hFound
    rw [Entries.get?_insert]
    split
    · rfl
    · exact hFound
  refine ⟨⟨marker, _, .nowhere,
    trimmed (joinedLine marker name literal other literal')⟩,
    ?_, rfl⟩
  rw [← ofLineBy_seesColon]
  unfold joinedLine
  rw [hJoined, hAll]
  unfold complete
  dsimp only
  rw [hNone]
  rfl

/- A colon in the second argument does not disturb a group. -/
theorem ofLine_joinedLine_nested_group :
    ∃ joined,
      ofLine Registry.empty
          (joinedLine "m" "A" "\x7ba, \x7bk: v\x7d\x7d" "B"
            "x:y") =
        .ok joined ∧
      joined.arguments =
        (Entries.empty.insert "A"
          (.slice
            [.string "a",
              .map [("k", .string "v")]])).insert "B"
          (.string "x:y") := by
  have hName : IsName "m" ∧ IsName "A" ∧ IsName "B" := by
    unfold IsName
    decide
  have hFirst :
      StandsAlone Registry.empty "m" "A"
        "\x7ba, \x7bk: v\x7d\x7d"
        (.slice
          [.string "a", .map [("k", .string "v")]]) :=
    ⟨hName.2.1, by decide, rfl, nofun, _, rfl, rfl⟩
  have hSecond :
      StandsAlone Registry.empty "m" "B" "x:y"
        (.string "x:y") :=
    ⟨hName.2.2, by decide, rfl, nofun, _, rfl, rfl⟩
  exact ofLine_joinedLine hName.1 hFirst hSecond rfl

/-
  A bracket in a bare string is none of the group structure,
  but the look-ahead counts it. So it passes the end of the
  first group and finds the colon of the second argument.
-/
theorem ofLine_joinedLine_disturbed :
    IsName "m" ∧
      StandsAlone Registry.empty "m" "A" "\x7ba[b\x7d"
        (.slice [.string "a[b"]) ∧
      StandsAlone Registry.empty "m" "B" "x:y"
        (.string "x:y") ∧
      ¬ Undisturbed Registry.empty
        (argumentLine "m" "A" "\x7ba[b\x7d")
        (joinedLine "m" "A" "\x7ba[b\x7d" "B" "x:y") ∧
      ofLine Registry.empty
          (joinedLine "m" "A" "\x7ba[b\x7d" "B" "x:y") =
        .error
          (.literal
            (.syntaxError (.character ':') "\x7d" 9)) := by
  have hName : IsName "m" ∧ IsName "A" ∧ IsName "B" := by
    unfold IsName
    decide
  refine ⟨hName.1, ?_, ?_, ?_, rfl⟩
  · exact ⟨hName.2.1, by decide, rfl, nofun, _, rfl, rfl⟩
  · exact ⟨hName.2.2, by decide, rfl, nofun, _, rfl, rfl⟩
  · intro hLook
    exact Bool.false_ne_true (congrArg Except.isOk hLook)

end Marker

end Marginalia
