import Marginalia.Proofs.Takes
import Marginalia.Proofs.Text

/-
  Reading in two texts whose places are aligned: what succeeds
  in the first text succeeds likewise in the second one.

  Key definitions include:
    * `Follows`
    * `Alignment`
    * `Alignment.next`
    * `OnContent`

  Main statements:
    * the rules for single actions, sequences and loops
-/

namespace Marginalia

variable {ε σ α β δ : Type}

------------------------------------------------------------
-- Pairs of Actions
------------------------------------------------------------

/-
  Whenever the first action succeeds, the second one does so
  with the same result, or it gets stuck. Nothing is said of
  failures of the first one.
-/
def Follows
    (stuck : ε → Prop)
    (pre : σ → σ → Prop)
    (action action' : EStateM ε σ α)
    (post : σ → σ → Prop) : Prop :=
  ∀ state other result state',
    pre state other →
      action state = .ok result state' →
        Ends
          (fun result' other' =>
            result' = result ∧ post state' other')
          (fun error _ => stuck error)
          (action' other)

namespace Follows

variable {stuck : ε → Prop}
variable {pre mid post : σ → σ → Prop}

theorem pure
    (result : α)
    (hPost : ∀ state other,
      pre state other → post state other) :
    Follows stuck pre (Pure.pure result : EStateM ε σ α)
      (Pure.pure result) post := by
  intro state other _ _ hPre hRun
  cases hRun
  exact ⟨rfl, hPost state other hPre⟩

/- There is nothing to follow a failure. -/
theorem fails
    {action action' : EStateM ε σ α}
    (hFails : ∀ state other result state',
      pre state other → action state ≠ .ok result state') :
    Follows stuck pre action action' post := by
  intro state other result state' hPre hRun
  exact absurd hRun (hFails state other result state' hPre)

theorem throw
    {error : ε}
    {action' : EStateM ε σ α} :
    Follows stuck pre (MonadExcept.throw error) action'
      post := by
  apply fails
  intro state other result state' _ hRun
  cases hRun

theorem result
    (result : α) :
    Follows stuck post (Pure.pure result : EStateM ε σ α)
      (Pure.pure result) post :=
  pure result fun _ _ hPost => hPost

/- More may be known of the states. -/
theorem of_pre
    {pre' : σ → σ → Prop}
    {action action' : EStateM ε σ α}
    (hAction : Follows stuck pre action action' post)
    (hPre : ∀ state other,
      pre' state other → pre state other) :
    Follows stuck pre' action action' post := by
  intro state other result state' hRel hRun
  exact hAction state other result state'
    (hPre state other hRel) hRun

/- Less may be asked of the states after the actions. -/
theorem imp
    {post' : σ → σ → Prop}
    {action action' : EStateM ε σ α}
    (hAction : Follows stuck pre action action' post)
    (hPost : ∀ state other,
      post state other → post' state other) :
    Follows stuck pre action action' post' := by
  intro state other result state' hPre hRun
  exact Ends.imp (hAction state other result state' hPre hRun)
    (fun _ other' h => ⟨h.1, hPost state' other' h.2⟩)
    (fun _ _ h => h)

theorem bind
    {first first' : EStateM ε σ α}
    {next next' : α → EStateM ε σ β}
    (hFirst : Follows stuck pre first first' mid)
    (hNext : ∀ result,
      Follows stuck mid (next result) (next' result) post) :
    Follows stuck pre (first >>= next) (first' >>= next')
      post := by
  intro state other result final hPre hRun
  rcases run_bind_eq_ok.mp hRun with
    ⟨middle, state', hStart, hRest⟩
  apply (hFirst state other middle state' hPre hStart).bind
  rintro _ other' ⟨rfl, hMid⟩
  exact hNext _ state' other' result final hMid hRest

theorem ite
    {c : Prop}
    [Decidable c]
    {first first' second second' : EStateM ε σ α}
    (hTrue : c → Follows stuck pre first first' post)
    (hFalse : ¬ c → Follows stuck pre second second' post) :
    Follows stuck pre (if c then first else second)
      (if c then first' else second') post := by
  by_cases hc : c
  · rw [if_pos hc, if_pos hc]
    exact hTrue hc
  · rw [if_neg hc, if_neg hc]
    exact hFalse hc

/-
  The rule for repetition. Where the first loop is bound to
  fail, no more has to be known of a round. The second loop
  has as many rounds as the first one, or may be stuck.
-/
theorem iterate
    {lack lack' : ε}
    {body body' : β → EStateM ε σ (Step β α)}
    (doomed : σ → Prop)
    (hDoomed : ∀ rounds round state result state',
      doomed state →
        Marginalia.iterate lack body rounds round state ≠
          .ok result state')
    (hBody : ∀ round,
      Follows stuck
        (fun state other => pre state other ∧ ¬ doomed state)
        (body round) (body' round) pre)
    {rounds : Nat} :
    ∀ rounds' round,
      stuck lack' ∨ rounds ≤ rounds' →
        Follows stuck pre
          (Marginalia.iterate lack body rounds round)
          (Marginalia.iterate lack' body' rounds' round)
          pre := by
  induction rounds with
  | zero =>
      intro rounds' round _
      exact .throw
  | succ rounds ih =>
      intro rounds' round hRounds state other result state'
        hPre hRun
      by_cases hState : doomed state
      · exact absurd hRun
          (hDoomed _ round state result state' hState)
      · cases rounds' with
        | zero =>
            rcases hRounds with hStuck | hFew
            · exact hStuck
            · omega
        | succ rounds' =>
            unfold Marginalia.iterate at hRun ⊢
            have hStep := hBody round
            refine (hStep.bind ?_) state other result state'
              ⟨hPre, hState⟩ hRun
            intro step
            cases step with
            | again next =>
                exact ih rounds' next
                  (hRounds.imp id fun h => by omega)
            | done result => exact .result _

end Follows

------------------------------------------------------------
-- Aligned Texts
------------------------------------------------------------

/-
  Places in two texts that correspond to each other. Behind
  blanks they are settled: then the same character is next in
  both texts, or the first text ends and the second one goes
  on with a comma at most. If the second text ends earlier,
  the first one has only blanks left. A loop in the second
  text may lack rounds, unless that text is not shorter.
-/
structure Alignment where
  rel : Cursor → Cursor → Prop
  settled : Cursor → Cursor → Prop
  lacks : Prop
  rel_of_settled :
    ∀ {first second},
      settled first second → rel first second
  settled_of_peek :
    ∀ {first second c},
      rel first second →
        first.peek = some c → second.peek = some c →
          settled first second
  peek_some :
    ∀ {first second c},
      rel first second → first.peek = some c →
        second.peek = some c ∨
          second.peek = none ∧ Text.Blank first.ahead
  peek_none :
    ∀ {first second c},
      rel first second → first.peek = none →
        second.peek = some c →
          Text.isBlank c = true ∨ c = ','
  settled_peek_some :
    ∀ {first second c},
      settled first second → first.peek = some c →
        second.peek = some c
  settled_peek_none :
    ∀ {first second},
      settled first second → first.peek = none →
        second.peek = none ∨ second.peek = some ','
  advance :
    ∀ {first second c},
      rel first second →
        first.peek = some c → second.peek = some c →
          rel first.advance second.advance
  skipBlanks :
    ∀ {first second},
      rel first second →
        settled first.skipBlanks second.skipBlanks
  span :
    ∀ {first second} {p : Char → Bool},
      (∀ c, Text.isBlank c = true → p c = false) →
        p ',' = false →
          rel first second →
            (second.span p).1 = (first.span p).1 ∧
              rel (first.span p).2 (second.span p).2
  spanBlank :
    ∀ {first second} {p : Char → Bool},
      (∀ c, Text.isBlank c = true → p c = true) →
        p ',' = false →
          rel first second →
            Text.trim (second.span p).1 =
                Text.trim (first.span p).1 ∧
              rel (first.span p).2 (second.span p).2
  spanUntil :
    ∀ {first second c} {p : Char → Bool},
      Text.isBlank c = false →
        rel first second →
          (first.span p).2.peek = some c →
            (second.span p).1 = (first.span p).1 ∧
              (second.span p).2.peek = some c ∧
                rel (first.span p).2 (second.span p).2
  length_le :
    ∀ {first second},
      ¬ lacks →
        rel first second →
          first.ahead.length ≤ second.ahead.length

namespace Alignment

/- The one way in which reading the second text may fail. -/
def stuck
    (A : Alignment)
    (error : ReadError) : Prop :=
  A.lacks ∧ error = .exhausted

/- The character is next in both texts. -/
def next
    (A : Alignment)
    (c : Char)
    (first second : Cursor) : Prop :=
  A.rel first second ∧
    first.peek = some c ∧ second.peek = some c

variable {A : Alignment}
variable {first second : Cursor}

theorem settled_of_next
    {c : Char}
    (hNext : A.next c first second) :
    A.settled first second :=
  A.settled_of_peek hNext.1 hNext.2.1 hNext.2.2

/- A character that is not blank is next in both texts. -/
theorem next_of_peek
    (hRel : A.rel first second)
    {c : Char}
    (hVisible : Text.isBlank c = false)
    (hPeek : first.peek = some c) :
    A.next c first second := by
  refine ⟨hRel, hPeek, ?_⟩
  rcases A.peek_some hRel hPeek with hSame | ⟨_, hBlank⟩
  · exact hSame
  · rcases Cursor.peek_eq_some_iff.mp hPeek with
      ⟨rest, hAhead⟩
    rw [hBlank c (by simp [hAhead])] at hVisible
    cases hVisible

/- There are rounds for as many characters, or it is stuck. -/
theorem rounds
    (hRel : A.rel first second) :
    A.stuck .exhausted ∨
      first.ahead.length + 1 ≤ second.ahead.length + 1 := by
  by_cases hLacks : A.lacks
  · exact Or.inl ⟨hLacks, rfl⟩
  · have hLength := A.length_le hLacks hRel
    exact Or.inr (by omega)

end Alignment

------------------------------------------------------------
-- Reading
------------------------------------------------------------

namespace Follows

variable {A : Alignment}
variable {pre post : Cursor → Cursor → Prop}

/- Where blanks have been passed, as much can be read. -/
theorem settled
    {action action' : Scan α}
    (hAction : Follows A.stuck A.rel action action' post) :
    Follows A.stuck A.settled action action' post :=
  hAction.of_pre fun _ _ hSettled =>
    A.rel_of_settled hSettled

/- The same where the next character is known. -/
theorem next_of_settled
    {c : Char}
    {action action' : Scan α}
    (hAction : Follows A.stuck A.settled action action' post) :
    Follows A.stuck (A.next c) action action' post :=
  hAction.of_pre fun _ _ hNext =>
    Alignment.settled_of_next hNext

/- Positions are of no concern. -/
theorem position
    {next next' : Nat → Scan α}
    (hNext : ∀ start start',
      Follows A.stuck pre (next start) (next' start') post) :
    Follows A.stuck pre (Scan.position >>= next)
      (Scan.position >>= next') post := by
  intro first second result state' hPre hRun
  exact hNext first.position second.position first second
    result state' hPre hRun

/- What is ahead may decide how to go on. -/
theorem get
    {next next' : Cursor → Scan α}
    (hNext : ∀ first second,
      pre first second →
        Follows A.stuck pre (next first) (next' second)
          post) :
    Follows A.stuck pre (MonadState.get >>= next)
      (MonadState.get >>= next') post := by
  intro first second result state' hPre hRun
  exact hNext first second hPre first second result state'
    hPre hRun

/- Past blanks, only a comma can follow the first text. -/
theorem peek
    {next next' : Option Char → Scan α}
    (hSome : ∀ c,
      Follows A.stuck (A.next c) (next (some c))
        (next' (some c)) post)
    (hNone : ∀ other,
      other = none ∨ other = some ',' →
        Follows A.stuck A.rel (next none) (next' other)
          post) :
    Follows A.stuck A.settled (Scan.peek >>= next)
      (Scan.peek >>= next') post := by
  intro first second result state' hPre hRun
  have hStart :
      (Scan.peek >>= next) first = next first.peek first :=
    rfl
  have hOther :
      (Scan.peek >>= next') second =
        next' second.peek second :=
    rfl
  have hRel := A.rel_of_settled hPre
  rw [hStart] at hRun
  rw [hOther]
  cases hPeek : first.peek with
  | none =>
      rw [hPeek] at hRun
      exact hNone _ (A.settled_peek_none hPre hPeek) first
        second result state' hRel hRun
  | some c =>
      rw [hPeek] at hRun
      have hSecond := A.settled_peek_some hPre hPeek
      rw [hSecond]
      exact hSome c first second result state'
        ⟨hRel, hPeek, hSecond⟩ hRun

/-
  Elsewhere, the next characters may differ, where they are
  blanks, commas or none. The same has to be done about them.
-/
theorem peekAny
    {next : Option Char → Scan α}
    {stop : Scan α}
    (hSome : ∀ c,
      Follows A.stuck (A.next c) (next (some c))
        (next (some c)) post)
    (hStop : ∀ other : Option Char,
      (∀ c, other = some c →
        Text.isBlank c = true ∨ c = ',') →
          next other = stop)
    (hEnd : Follows A.stuck A.rel stop stop post) :
    Follows A.stuck A.rel (Scan.peek >>= next)
      (Scan.peek >>= next) post := by
  intro first second result state' hPre hRun
  have hPeekRun :
      ∀ cursor : Cursor,
        (Scan.peek >>= next) cursor =
          next cursor.peek cursor :=
    fun _ => rfl
  rw [hPeekRun] at hRun ⊢
  by_cases hSame : second.peek = first.peek
  · cases hPeek : first.peek with
    | none =>
        rw [hSame]
        rw [hPeek] at hRun ⊢
        rw [hStop none nofun] at hRun ⊢
        exact hEnd first second result state' hPre hRun
    | some c =>
        rw [hSame]
        rw [hPeek] at hSame hRun ⊢
        exact hSome c first second result state'
          ⟨hPre, hPeek, hSame⟩ hRun
  · rw [hStop first.peek] at hRun
    · rw [hStop second.peek]
      · exact hEnd first second result state' hPre hRun
      · intro c hSecond
        cases hPeek : first.peek with
        | none => exact A.peek_none hPre hPeek hSecond
        | some d =>
            rcases A.peek_some hPre hPeek with
              hOther | ⟨hOther, _⟩
            · exact absurd (hOther.trans hPeek.symm) hSame
            · rw [hOther] at hSecond
              cases hSecond
    · intro c hPeek
      rcases A.peek_some hPre hPeek with
        hOther | ⟨_, hBlank⟩
      · exact absurd (hOther.trans hPeek.symm) hSame
      · rcases Cursor.peek_eq_some_iff.mp hPeek with
          ⟨rest, hAhead⟩
        exact Or.inl (hBlank c (by simp [hAhead]))

/- A character that is there is passed in both texts. -/
theorem skip
    {c : Char} :
    Follows A.stuck (A.next c) Scan.skip Scan.skip A.rel := by
  intro first second _ _ hPre hRun
  cases hRun
  exact ⟨rfl, A.advance hPre.1 hPre.2.1 hPre.2.2⟩

/-
  There is nothing to follow if no character is left, or if
  only blanks are left and fail.
-/
theorem next
    {next next' : Option Char → Scan α}
    (hRel : ∀ first second,
      pre first second → A.rel first second)
    (hSome : ∀ c,
      Follows A.stuck A.rel (next (some c)) (next' (some c))
        post)
    (hNone : ∀ first result state',
      next none first ≠ .ok result state')
    (hBlank : ∀ first second c result state',
      pre first second → first.peek = some c →
        Text.Blank first.ahead →
          next (some c) first.advance ≠
            .ok result state') :
    Follows A.stuck pre (Scan.next >>= next)
      (Scan.next >>= next') post := by
  intro first second result state' hPre hRun
  have hStart :
      (Scan.next >>= next) first =
        next first.peek first.advance :=
    rfl
  have hOther :
      (Scan.next >>= next') second =
        next' second.peek second.advance :=
    rfl
  rw [hStart] at hRun
  rw [hOther]
  cases hPeek : first.peek with
  | none =>
      rw [hPeek] at hRun
      exact absurd hRun (hNone _ _ _)
  | some c =>
      rw [hPeek] at hRun
      rcases A.peek_some (hRel first second hPre) hPeek with
        hSecond | ⟨_, hAhead⟩
      · rw [hSecond]
        exact hSome c first.advance second.advance result
          state'
          (A.advance (hRel first second hPre) hPeek hSecond)
          hRun
      · exact absurd hRun
          (hBlank first second c result state' hPre hPeek
            hAhead)

theorem skipBlanks :
    Follows A.stuck A.rel Scan.skipBlanks Scan.skipBlanks
      A.settled := by
  intro first second _ _ hPre hRun
  cases hRun
  exact ⟨rfl, A.skipBlanks hPre⟩

/- Neither blanks nor commas are part of the run. -/
theorem takeWhile
    {p : Char → Bool}
    (hBlank : ∀ c, Text.isBlank c = true → p c = false)
    (hComma : p ',' = false) :
    Follows A.stuck A.rel (Scan.takeWhile p)
      (Scan.takeWhile p) A.rel := by
  intro first second _ _ hPre hRun
  cases hRun
  exact A.span hBlank hComma hPre

theorem eat
    {c : Char}
    (hBlank : Text.isBlank c = false)
    (hComma : c ≠ ',') :
    Follows A.stuck A.rel (Scan.eat c) (Scan.eat c)
      A.rel := by
  intro first second result state' hPre hRun
  rw [Scan.run_eat] at hRun ⊢
  by_cases hPeek : first.peek = some c
  · have hNext := Alignment.next_of_peek hPre hBlank hPeek
    rw [if_pos hPeek] at hRun
    rw [if_pos hNext.2.2]
    cases hRun
    exact ⟨rfl, A.advance hPre hPeek hNext.2.2⟩
  · have hOther : second.peek ≠ some c := by
      intro hSecond
      cases hFirst : first.peek with
      | none =>
          rcases A.peek_none hPre hFirst hSecond with
            hVisible | hSame
          · rw [hVisible] at hBlank
            cases hBlank
          · exact hComma hSame
      | some d =>
          rcases A.peek_some hPre hFirst with
            hSame | ⟨hEnd, _⟩
          · rw [hSame] at hSecond
            cases hSecond
            exact hPeek hFirst
          · rw [hEnd] at hSecond
            cases hSecond
    rw [if_neg hPeek] at hRun
    rw [if_neg hOther]
    cases hRun
    exact ⟨rfl, hPre⟩

/-
  A run of any characters is the same in both texts if
  another character has to follow it.
-/
theorem takeUntil
    {p : Char → Bool}
    {c : Char}
    {found : List Char → Scan α}
    {error error' : ReadError}
    (hBlank : Text.isBlank c = false)
    (hComma : c ≠ ',')
    (hFound : ∀ body,
      Follows A.stuck A.rel (found body) (found body)
        post) :
    Follows A.stuck A.rel
      (do
        let body ← Scan.takeWhile p
        if ← Scan.eat c then
          found body
        else
          MonadExcept.throw error)
      (do
        let body ← Scan.takeWhile p
        if ← Scan.eat c then
          found body
        else
          MonadExcept.throw error')
      post := by
  have hRest :
      ∀ body,
        Follows A.stuck A.rel
          (do
            if ← Scan.eat c then
              found body
            else
              MonadExcept.throw error)
          (do
            if ← Scan.eat c then
              found body
            else
              MonadExcept.throw error')
          post := by
    intro body
    apply (eat hBlank hComma).bind
    intro closed
    exact .ite (fun _ => hFound body) (fun _ => .throw)
  intro first second result state' hPre hRun
  rcases run_bind_eq_ok.mp hRun with
    ⟨body, middle, hBody, hClose⟩
  have hMiddle : middle = (first.span p).2 := by
    cases hBody
    rfl
  have hTaken : body = (first.span p).1 := by
    cases hBody
    rfl
  subst hMiddle hTaken
  by_cases hPeek : (first.span p).2.peek = some c
  · rcases A.spanUntil hBlank hPre hPeek with
      ⟨hSame, _, hAfter⟩
    have hSecond :
        (do
          let body ← Scan.takeWhile p
          if ← Scan.eat c then
            found body
          else
            MonadExcept.throw error' : Scan α) second =
          (do
            if ← Scan.eat c then
              found (second.span p).1
            else
              MonadExcept.throw error' : Scan α)
            (second.span p).2 :=
      rfl
    rw [hSecond, hSame]
    exact hRest _ _ _ _ _ hAfter hClose
  · rcases run_bind_eq_ok.mp hClose with
      ⟨closed, final, hEat, hEnd⟩
    rw [Scan.run_eat, if_neg hPeek] at hEat
    cases hEat
    cases hEnd

theorem unexpected
    {expected : Expected}
    {start : Nat}
    {action' : Scan α} :
    Follows A.stuck pre (Scan.unexpected expected start)
      action' post := by
  apply fails
  intro cursor other result cursor' _ hRun
  rcases Scan.exists_run_unexpected expected start cursor
    with ⟨found, state, hError⟩
  rw [hError α] at hRun
  cases hRun

/- A loop in which no round is doomed. -/
theorem loop
    {body body' : β → Scan (Step β α)}
    (hBody : ∀ round,
      Follows A.stuck A.rel (body round) (body' round) A.rel)
    (start : β) :
    Follows A.stuck A.rel (Scan.loop body start)
      (Scan.loop body' start) A.rel := by
  apply Follows.get
  intro first second hPre
  refine .iterate (fun _ => False) ?_ ?_ _ start
    (Alignment.rounds hPre)
  · intro _ _ _ _ _ hDoomed
    exact hDoomed.elim
  · intro round
    exact (hBody round).of_pre fun _ _ h => h.1

end Follows

------------------------------------------------------------
-- Reading into a Destination
------------------------------------------------------------

/- The relation of the places, with the same content. -/
def OnContent
    (rel : Cursor → Cursor → Prop)
    (state other : Cursor × δ) : Prop :=
  rel state.1 other.1 ∧ state.2 = other.2

namespace Follows

variable {A : Alignment}
variable {pre post : Cursor → Cursor → Prop}

theorem lift
    {action action' : Scan α}
    (hAction : Follows A.stuck pre action action' post) :
    Follows A.stuck (OnContent pre)
      (liftM action : Fill δ α) (liftM action' : Fill δ α)
      (OnContent post) := by
  rintro ⟨first, content⟩ ⟨second, _⟩ result ⟨state', _⟩
    ⟨hPre, ⟨⟩⟩ hRun
  rw [Fill.run_lift] at hRun
  cases hFirst : action first with
  | ok value first' =>
      rw [hFirst] at hRun
      cases hRun
      apply Fill.ends_lift.mpr
      exact Ends.imp (hAction first second _ _ hPre hFirst)
        (fun _ _ h => ⟨h.1, h.2, rfl⟩) (fun _ _ h => h)
  | error error first' =>
      rw [hFirst] at hRun
      cases hRun

theorem settledLift
    {rel : Cursor × δ → Cursor × δ → Prop}
    {action action' : Fill δ α}
    (hAction :
      Follows A.stuck (OnContent A.rel) action action' rel) :
    Follows A.stuck (OnContent A.settled) action action'
      rel :=
  hAction.of_pre fun _ _ hRel =>
    ⟨A.rel_of_settled hRel.1, hRel.2⟩

theorem nextLift_of_settled
    {rel : Cursor × δ → Cursor × δ → Prop}
    {c : Char}
    {action action' : Fill δ α}
    (hAction :
      Follows A.stuck (OnContent A.settled) action action'
        rel) :
    Follows A.stuck (OnContent (A.next c)) action action'
      rel :=
  hAction.of_pre fun _ _ hRel =>
    ⟨Alignment.settled_of_next hRel.1, hRel.2⟩

theorem positionLift
    {rel : Cursor × δ → Cursor × δ → Prop}
    {next next' : Nat → Fill δ α}
    (hNext : ∀ start start',
      Follows A.stuck (OnContent pre) (next start)
        (next' start') rel) :
    Follows A.stuck (OnContent pre)
      (liftM (Scan.position : Scan Nat) >>= next)
      (liftM (Scan.position : Scan Nat) >>= next') rel := by
  intro first second result state' hPre hRun
  exact hNext first.1.position second.1.position first second
    result state' hPre hRun

theorem peekLift
    {rel : Cursor × δ → Cursor × δ → Prop}
    {next next' : Option Char → Fill δ α}
    (hSome : ∀ c,
      Follows A.stuck (OnContent (A.next c))
        (next (some c)) (next' (some c)) rel)
    (hNone : ∀ other,
      other = none ∨ other = some ',' →
        Follows A.stuck (OnContent A.rel) (next none)
          (next' other) rel) :
    Follows A.stuck (OnContent A.settled)
      (liftM (Scan.peek : Scan (Option Char)) >>= next)
      (liftM (Scan.peek : Scan (Option Char)) >>= next')
      rel := by
  intro first second result state' hPre hRun
  have hStart :
      (liftM (Scan.peek : Scan (Option Char)) >>= next :
          Fill δ α) first =
        next first.1.peek first :=
    rfl
  have hOther :
      (liftM (Scan.peek : Scan (Option Char)) >>= next' :
          Fill δ α) second =
        next' second.1.peek second :=
    rfl
  have hRel := A.rel_of_settled hPre.1
  rw [hStart] at hRun
  rw [hOther]
  cases hPeek : first.1.peek with
  | none =>
      rw [hPeek] at hRun
      exact hNone _ (A.settled_peek_none hPre.1 hPeek) first
        second result state' ⟨hRel, hPre.2⟩ hRun
  | some c =>
      rw [hPeek] at hRun
      have hSecond := A.settled_peek_some hPre.1 hPeek
      rw [hSecond]
      exact hSome c first second result state'
        ⟨⟨hRel, hPeek, hSecond⟩, hPre.2⟩ hRun

theorem unexpectedLift
    {rel rel' : Cursor × δ → Cursor × δ → Prop}
    {expected : Expected}
    {start : Nat}
    {action' : Fill δ α} :
    Follows A.stuck rel
      (liftM (Scan.unexpected expected start : Scan α))
      action' rel' := by
  apply fails
  rintro ⟨cursor, content⟩ other result state' _ hRun
  rcases Scan.exists_run_unexpected expected start cursor
    with ⟨found, state, hError⟩
  rw [Fill.run_lift, hError α] at hRun
  cases hRun

/- The same is written in both runs. -/
theorem store
    {action : Write δ α}
    {literal literal' : String}
    {start start' : Nat} :
    Follows A.stuck (OnContent pre)
      (Fill.store action literal start)
      (Fill.store action literal' start') (OnContent pre) := by
  rintro ⟨first, content⟩ ⟨second, _⟩ result ⟨state', _⟩
    ⟨hPre, ⟨⟩⟩ hRun
  rw [Fill.run_store] at hRun ⊢
  cases hWrite : action content with
  | ok value content' =>
      rw [hWrite] at hRun
      cases hRun
      exact ⟨rfl, hPre, rfl⟩
  | error rejection content' =>
      rw [hWrite] at hRun
      cases hRun

theorem within
    {target : Target}
    {child : Child target}
    {action action' : Fill child.inner.Content α}
    (hAction :
      Follows A.stuck (OnContent pre) action action'
        (OnContent post)) :
    Follows A.stuck (OnContent pre)
      (Fill.within child action) (Fill.within child action')
      (OnContent post) := by
  rintro ⟨first, content⟩ ⟨second, _⟩ result ⟨state', _⟩
    ⟨hPre, ⟨⟩⟩ hRun
  cases hFirst : action (first, child.inner.fresh) with
  | ok value inner =>
      rw [Fill.run_within_of_ok hFirst] at hRun
      cases hRun
      apply Fill.ends_within.mpr
      exact Ends.imp
        (hAction (first, child.inner.fresh)
          (second, child.inner.fresh) _ _ ⟨hPre, rfl⟩ hFirst)
        (fun _ _ h =>
          ⟨h.1, h.2.1, congrArg child.put h.2.2⟩)
        (fun _ _ h => h)
  | error error inner =>
      unfold Fill.within at hRun
      simp only [hFirst] at hRun
      cases hRun

theorem collect
    {action action' : Fill δ Unit}
    (hAction :
      Follows A.stuck (OnContent pre) action action'
        (OnContent post))
    (content : δ) :
    Follows A.stuck pre (Fill.collect content action)
      (Fill.collect content action') post := by
  intro first second result state' hPre hRun
  unfold Fill.collect at hRun
  cases hFirst : action (first, content) with
  | ok value state =>
      rw [hFirst] at hRun
      cases hRun
      apply Fill.ends_collect.mpr
      exact Ends.imp
        (hAction (first, content) (second, content) _ _
          ⟨hPre, rfl⟩ hFirst)
        (fun _ _ h => ⟨h.2.2.symm, h.2.1⟩) (fun _ _ h => h)
  | error error state =>
      rw [hFirst] at hRun
      cases hRun

theorem loopWhile
    {body body' : Fill δ Bool}
    (hBody :
      Follows A.stuck (OnContent A.rel) body body'
        (OnContent A.rel)) :
    Follows A.stuck (OnContent A.rel) (Fill.loopWhile body)
      (Fill.loopWhile body') (OnContent A.rel) := by
  have hRound :
      Follows A.stuck
        (fun state other =>
          OnContent A.rel state other ∧ ¬ False)
        (do
          if ← body then
            return .again ()
          else
            return .done () : Fill δ (Step Unit Unit))
        (do
          if ← body' then
            return .again ()
          else
            return .done ())
        (OnContent A.rel) := by
    refine Follows.of_pre ?_ fun _ _ h => h.1
    apply hBody.bind
    intro another
    exact .ite (fun _ => .result _) (fun _ => .result _)
  rintro ⟨first, content⟩ ⟨second, _⟩ result state'
    ⟨hPre, ⟨⟩⟩ hRun
  rw [Fill.run_loopWhile] at hRun ⊢
  refine Follows.iterate (fun _ => False) ?_
    (fun _ => hRound) _ () (Alignment.rounds hPre)
    (first, content) (second, content) result state'
    ⟨hPre, rfl⟩ hRun
  intro _ _ _ _ _ hDoomed
  exact hDoomed.elim

end Follows

end Marginalia
