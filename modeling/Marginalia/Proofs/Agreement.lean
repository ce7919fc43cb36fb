import Marginalia.Proofs.Literal.Soundness

/-
  Agreement of two destinations into which the same text is
  read, one with a type of its own and one that is a value.

  Key definitions include:
    * `ReadError.IsOverflow`
    * `Paired`
    * `Agrees`

  Main statements:
    * `Agrees.bind`
    * `Agrees.loopWhile`
    * `Agrees.group`
-/

namespace Marginalia

variable {α β δ : Type}

/- The reason is an integer that is too wide. -/
def ReadError.IsOverflow : ReadError → Prop
  | overflow .. => True
  | _ => False

------------------------------------------------------------
-- Pairs of Runs
------------------------------------------------------------

/-
  How two runs end together: with the same result at the same
  place, with the same error, or the first one with an integer
  that is too wide for it. Then the second one may go on; the
  last property holds of what it leaves.
-/
inductive Paired
    (post : δ → Value → Prop)
    (beyond : Value → Prop) :
    EStateM.Result ReadError (Cursor × δ) α →
      EStateM.Result ReadError (Cursor × Value) α → Prop
  | ok
      (result : α)
      (cursor : Cursor)
      {content : δ}
      {value : Value}
      (hPost : post content value) :
      Paired post beyond (.ok result (cursor, content))
        (.ok result (cursor, value))
  | error
      (error : ReadError)
      (state : Cursor × δ)
      (state' : Cursor × Value) :
      Paired post beyond (.error error state)
        (.error error state')
  | overflow
      {error : ReadError}
      {run : EStateM.Result ReadError (Cursor × Value) α}
      (hError : error.IsOverflow)
      (state : Cursor × δ)
      (hBeyond :
        Ends (fun _ state => beyond state.2)
          (fun error _ => error.OfText) run) :
      Paired post beyond (.error error state) run

theorem Paired.of_eq
    {post : δ → Value → Prop}
    {beyond : Value → Prop}
    {first first' :
      EStateM.Result ReadError (Cursor × δ) α}
    {second second' :
      EStateM.Result ReadError (Cursor × Value) α}
    (hFirst : first = first')
    (hSecond : second = second')
    (hPaired : Paired post beyond first' second') :
    Paired post beyond first second := by
  subst hFirst hSecond
  exact hPaired

/- What a run inside of a place leaves around the place. -/
def outward
    {ε : Type}
    (put : δ → ε) :
    EStateM.Result ReadError (Cursor × δ) α →
      EStateM.Result ReadError (Cursor × ε) α
  | .ok result (cursor, content) =>
      .ok result (cursor, put content)
  | .error error (cursor, content) =>
      .error error (cursor, put content)

theorem run_within
    {target : Target}
    (child : Child target)
    (action : Fill child.inner.Content α)
    (cursor : Cursor)
    (content : target.Content) :
    Fill.within child action (cursor, content) =
      outward child.put
        (action (cursor, child.inner.fresh)) := by
  unfold Fill.within outward
  dsimp only
  cases action (cursor, child.inner.fresh) with
  | ok result state => rfl
  | error error state => rfl

/- Runs that are paired inside of places are so around them. -/
theorem Paired.outward
    {post : α → Value → Prop}
    {post' : δ → Value → Prop}
    {beyond beyond' : Value → Prop}
    {put : α → δ}
    {put' : Value → Value}
    {first : EStateM.Result ReadError (Cursor × α) β}
    {second : EStateM.Result ReadError (Cursor × Value) β}
    (hPaired : Paired post beyond first second)
    (hPost : ∀ content value,
      post content value → post' (put content) (put' value))
    (hBeyond : ∀ value, beyond value → beyond' (put' value)) :
    Paired post' beyond' (Marginalia.outward put first)
      (Marginalia.outward put' second) := by
  cases hPaired with
  | ok result cursor hOk =>
      exact .ok result cursor (hPost _ _ hOk)
  | error error state state' => exact .error error _ _
  | overflow hError state hEnds =>
      apply Paired.overflow hError
      cases second with
      | ok result state' => exact hBeyond _ hEnds
      | error error state' => exact hEnds

/-
  Two actions agree: on the same text, and on contents for
  which the first relation holds, they end together.
-/
def Agrees
    (pre : δ → Value → Prop)
    (typed : Fill δ α)
    (dynamic : Fill Value α)
    (post : δ → Value → Prop)
    (beyond : Value → Prop) : Prop :=
  ∀ cursor content value,
    pre content value →
      Paired post beyond (typed (cursor, content))
        (dynamic (cursor, value))

namespace Agrees

variable {pre mid post : δ → Value → Prop}
variable {beyond beyond' : Value → Prop}

theorem pure
    (result : α)
    (hPost : ∀ content value,
      pre content value → post content value) :
    Agrees pre (Pure.pure result) (Pure.pure result) post
      beyond :=
  fun cursor content value hPre =>
    .ok result cursor (hPost content value hPre)

theorem throw
    (error : ReadError) :
    Agrees pre
      (MonadExcept.throw error : Fill δ α)
      (MonadExcept.throw error : Fill Value α)
      post beyond :=
  fun _ _ _ _ => .error error _ _

theorem imp
    {post' : δ → Value → Prop}
    {typed : Fill δ α}
    {dynamic : Fill Value α}
    (hAgrees : Agrees pre typed dynamic post beyond)
    (hPost : ∀ content value,
      post content value → post' content value)
    (hBeyond : ∀ value, beyond value → beyond' value) :
    Agrees pre typed dynamic post' beyond' := by
  intro cursor content value hPre
  have hPaired := hAgrees cursor content value hPre
  generalize typed (cursor, content) = first at hPaired ⊢
  generalize dynamic (cursor, value) = second at hPaired ⊢
  cases hPaired with
  | ok result cursor hOk =>
      exact .ok result cursor (hPost _ _ hOk)
  | error error state state' =>
      exact .error error state state'
  | overflow hError state hEnds =>
      apply Paired.overflow hError state
      exact Ends.imp hEnds
        (fun _ state => hBeyond state.2) (fun _ _ h => h)

/-
  In a sequence the second action may go on after the first
  one stopped, and has to keep what is known then.
-/
theorem bind
    {typed : Fill δ α}
    {dynamic : Fill Value α}
    {typedNext : α → Fill δ β}
    {dynamicNext : α → Fill Value β}
    (hFirst : Agrees pre typed dynamic mid beyond)
    (hNext : ∀ result,
      Agrees mid (typedNext result) (dynamicNext result)
        post beyond')
    (hBeyond : ∀ result,
      Sound True beyond (dynamicNext result) beyond') :
    Agrees pre (typed >>= typedNext)
      (dynamic >>= dynamicNext) post beyond' := by
  intro cursor content value hPre
  have hPaired := hFirst cursor content value hPre
  rw [run_bind, run_bind]
  generalize typed (cursor, content) = first at hPaired ⊢
  generalize dynamic (cursor, value) = second at hPaired ⊢
  cases hPaired with
  | ok result cursor' hMid =>
      exact hNext result cursor' _ _ hMid
  | error error state state' =>
      exact .error error state state'
  | overflow hError state hEnds =>
      apply Paired.overflow hError state
      cases second with
      | ok result state' =>
          exact Ends.imp
            (hBeyond result state'.1 state'.2 hEnds)
            (fun _ _ h => h) (fun _ _ h => h trivial)
      | error error state' => exact hEnds

/- Both read the same. -/
theorem read
    {action : Scan α}
    {typedNext : α → Fill δ β}
    {dynamicNext : α → Fill Value β}
    (hNext : ∀ result,
      Agrees pre (typedNext result) (dynamicNext result)
        post beyond) :
    Agrees pre (liftM action >>= typedNext)
      (liftM action >>= dynamicNext) post beyond := by
  intro cursor content value hPre
  rw [run_bind, run_bind, Fill.run_lift, Fill.run_lift]
  cases hRun : action cursor with
  | ok result cursor' =>
      exact hNext result cursor' content value hPre
  | error error cursor' => exact .error error _ _

theorem read_last
    (action : Scan α) :
    Agrees pre (liftM action : Fill δ α)
      (liftM action : Fill Value α) pre beyond := by
  intro cursor content value hPre
  rw [Fill.run_lift, Fill.run_lift]
  cases hRun : action cursor with
  | ok result cursor' => exact .ok result cursor' hPre
  | error error cursor' => exact .error error _ _

theorem ite
    {c : Prop}
    [Decidable c]
    {typed typed' : Fill δ α}
    {dynamic dynamic' : Fill Value α}
    (hTrue : c → Agrees pre typed dynamic post beyond)
    (hFalse : ¬ c → Agrees pre typed' dynamic' post beyond) :
    Agrees pre (if c then typed else typed')
      (if c then dynamic else dynamic') post beyond := by
  by_cases hc : c
  · rw [if_pos hc, if_pos hc]
    exact hTrue hc
  · rw [if_neg hc, if_neg hc]
    exact hFalse hc

/- Both write, and neither refuses. -/
theorem store
    {typed : Write δ α}
    {dynamic : Write Value α}
    {literal literal' : String}
    {start : Nat}
    (hWrite : ∀ content value,
      pre content value →
        ∃ result content' value',
          typed content = .ok result content' ∧
            dynamic value = .ok result value' ∧
              post content' value') :
    Agrees pre (Fill.store typed literal start)
      (Fill.store dynamic literal' start) post beyond := by
  intro cursor content value hPre
  rcases hWrite content value hPre with
    ⟨result, content', value', hTyped, hDynamic, hPost⟩
  rw [Fill.run_store, Fill.run_store, hTyped, hDynamic]
  exact .ok result cursor hPost

/- The second action keeps, round by round, what is known. -/
theorem sound_rounds
    {body : Fill Value Bool}
    (hBody : Sound True beyond body beyond)
    (count : Nat) :
    Sound True beyond (Fill.rounds body count) beyond := by
  induction count with
  | zero => exact .throw (Or.inr rfl)
  | succ count ih =>
      rw [Fill.rounds_succ]
      apply hBody.bind
      intro another
      cases another with
      | true => exact ih
      | false => exact .pure fun _ h => h

/- Both go round together, or the first one stops before. -/
theorem rounds
    {typed : Fill δ Bool}
    {dynamic : Fill Value Bool}
    (hBody : Agrees pre typed dynamic pre beyond)
    (hBeyond : Sound True beyond dynamic beyond)
    (count : Nat) :
    Agrees pre (Fill.rounds typed count)
      (Fill.rounds dynamic count) pre beyond := by
  induction count with
  | zero => exact .throw _
  | succ count ih =>
      rw [Fill.rounds_succ, Fill.rounds_succ]
      apply hBody.bind
      · intro another
        cases another with
        | true => exact ih
        | false => exact .pure _ fun _ _ h => h
      · intro another
        cases another with
        | true => exact sound_rounds hBeyond count
        | false => exact .pure fun _ h => h

theorem loopWhile
    {typed : Fill δ Bool}
    {dynamic : Fill Value Bool}
    (hBody : Agrees pre typed dynamic pre beyond)
    (hBeyond : Sound True beyond dynamic beyond) :
    Agrees pre (Fill.loopWhile typed)
      (Fill.loopWhile dynamic) pre beyond := by
  intro cursor content value hPre
  rw [Fill.run_loopWhile, Fill.run_loopWhile]
  exact rounds hBody hBeyond _ cursor content value hPre

theorem unexpected
    (expected : Expected)
    (start : Nat) :
    Agrees pre
      (liftM (Scan.unexpected expected start : Scan α) :
        Fill δ α)
      (liftM (Scan.unexpected expected start : Scan α) :
        Fill Value α)
      post beyond := by
  intro cursor content value _
  rcases Scan.exists_run_unexpected expected start cursor
    with ⟨found, cursor', hRun⟩
  rw [Fill.run_lift, Fill.run_lift, hRun α]
  exact .error _ _ _

theorem wrong
    (expected : Expected)
    (found : String)
    (start : Nat) :
    Agrees pre
      (liftM (Scan.wrong expected found start : Scan α) :
        Fill δ α)
      (liftM (Scan.wrong expected found start : Scan α) :
        Fill Value α)
      post beyond :=
  fun _ _ _ _ => .error _ _ _

/- What follows an element is the same for both. -/
theorem closing
    (start : Nat) :
    Agrees pre (Fill.closing start) (Fill.closing start) pre
      beyond := by
  apply Agrees.read
  intro _
  apply Agrees.read
  intro next
  split
  · exact .read fun _ => .pure _ fun _ _ h => h
  · exact .read fun _ => .pure _ fun _ _ h => h
  · exact .throw _
  · exact .read fun place => .unexpected _ _

theorem groupRound
    {typed : Fill δ Unit}
    {dynamic : Fill Value Unit}
    (hElement : Agrees pre typed dynamic pre beyond)
    (start : Nat) :
    Agrees pre (Fill.groupRound typed start)
      (Fill.groupRound dynamic start) pre beyond := by
  apply Agrees.read
  intro _
  apply Agrees.read
  intro next
  apply Agrees.ite
  · intro _
    exact .throw _
  · intro _
    exact hElement.bind (fun _ => closing start)
      (fun _ => .closing start)

/- Groups agree if their elements do. -/
theorem group
    {typed : Fill δ Unit}
    {dynamic : Fill Value Unit}
    (hElement : Agrees pre typed dynamic pre beyond)
    (hBeyond : Sound True beyond dynamic beyond) :
    Agrees pre (Fill.group typed) (Fill.group dynamic) pre
      beyond := by
  rw [Fill.group_eq, Fill.group_eq]
  apply Agrees.read
  intro start
  apply Agrees.read
  intro _
  apply Agrees.read
  intro _
  apply Agrees.read
  intro closed
  apply Agrees.ite
  · intro _
    exact .pure _ fun _ _ h => h
  · intro _
    exact loopWhile (groupRound hElement start)
      (.groupRound hBeyond start)

end Agrees

end Marginalia
