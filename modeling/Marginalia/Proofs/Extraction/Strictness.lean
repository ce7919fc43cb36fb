import Marginalia.Proofs.Extraction.Accounts
import Marginalia.Proofs.FileTree
import Marginalia.Proofs.Results
import Mathlib.Algebra.Order.Ring.Nat

/-
  Extraction that ends at the first problem agrees with
  extraction that goes on: it finds the same if there is no
  problem at all, and otherwise returns the first one.

  Key definitions include:
    * `SourceFile`
    * `SourceFile.extract?`
    * `SourceFile.Problem`
    * `SourceFile.FirstProblem`
    * `Survey.FoundIn`

  Main statements:
    * `Extraction.Accounts.mapM_of_nil`
    * `Extraction.Accounts.mapM_of_cons`
    * `SourceFile.visit_iff`
    * `SourceFile.mapM_visit_iff`
    * `Survey.ofFolder_agrees`
-/

namespace Marginalia

------------------------------------------------------------
-- Outcomes
------------------------------------------------------------

/-
  A result is determined by what is said of values and errors
  if it is one of these and nothing else can be said.
-/
theorem result_iff
    {α ε : Type}
    {result : Except ε α}
    {Value : α → Prop}
    {Error : ε → Prop}
    (hCases :
      (∃ value, Value value ∧ result = .ok value) ∨
        ∃ error, Error error ∧ result = .error error)
    (hValue :
      ∀ first second,
        Value first → Value second → first = second)
    (hError :
      ∀ first second,
        Error first → Error second → first = second)
    (hOnly : ∀ value error, Value value → ¬ Error error) :
    (∀ value, result = .ok value ↔ Value value) ∧
      ∀ error, result = .error error ↔ Error error := by
  rcases hCases with
    ⟨found, hFound, rfl⟩ | ⟨found, hFound, rfl⟩
  · constructor
    · intro value
      rw [Except.ok.injEq]
      constructor
      · rintro rfl
        exact hFound
      · exact hValue found value hFound
    · intro error
      constructor
      · nofun
      · exact fun h => absurd h (hOnly found error hFound)
  · constructor
    · intro value
      constructor
      · nofun
      · exact fun h => absurd hFound (hOnly value found h)
    · intro error
      rw [Except.error.injEq]
      constructor
      · rintro rfl
        exact hFound
      · exact hError found error hFound

------------------------------------------------------------
-- Source Texts
------------------------------------------------------------

/- The line of the diagnostic is refused for this reason. -/
structure Diagnostic.HasCause
    (registry : Registry)
    (diagnostic : Diagnostic)
    (cause : MarkerError) : Prop where
  line : Marker.ofLine registry diagnostic.text = .error cause
  message : cause.message = diagnostic.message

namespace Extraction

variable {registry : Registry}
variable {path : String}
variable {language : Language}
variable {source : String}
variable {lines : List CommentLine}
variable {markers : List Marker}
variable {diagnostics : List Diagnostic}

/- The marker on a line, or the number of the line and why. -/
def readNumbered
    (registry : Registry)
    (path : String)
    (line : CommentLine) :
    Except (Nat × MarkerError) Marker :=
  (readLine registry path line).mapError fun error =>
    (line.number, error)

/- Without diagnostics, all lines are read one by one. -/
theorem Accounts.mapM_of_nil
    (hAccounts : Accounts registry path lines markers []) :
    lines.mapM (readNumbered registry path) = .ok markers := by
  -- The list is an index of the relation, so it has to vary.
  generalize hNone : ([] : List Diagnostic) = diagnostics
    at hAccounts
  induction hAccounts with
  | nil => rfl
  | marker hMarker hLater ih =>
      rw [List.mapM_cons, ih hNone, readNumbered,
        readLine_of_ok hMarker]
      rfl
  | diagnostic hError hLater ih => cases hNone

/- With diagnostics, reading ends at the line of the first. -/
theorem Accounts.mapM_of_cons
    {first : Diagnostic}
    {later : List Diagnostic}
    (hAccounts :
      Accounts registry path lines markers (first :: later)) :
    ∃ cause,
      first.HasCause registry cause ∧
        lines.mapM (readNumbered registry path) =
          .error (first.location.line, cause) := by
  generalize hFirst : first :: later = diagnostics at hAccounts
  induction hAccounts with
  | nil => cases hFirst
  | marker hMarker hLater ih =>
      rcases ih hFirst with ⟨cause, hCause, hEnd⟩
      refine ⟨cause, hCause, ?_⟩
      rw [List.mapM_cons, hEnd, readNumbered,
        readLine_of_ok hMarker]
      rfl
  | @diagnostic line lines error _ _ hError hLater ih =>
      cases hFirst
      refine ⟨error, ⟨hError, rfl⟩, ?_⟩
      rw [List.mapM_cons, readNumbered,
        readLine_of_error hError]
      rfl

/- Lines are read one by one, and the markers are collected. -/
theorem ofSourceStrictly_eq
    (registry : Registry)
    (path : String)
    (language : Language)
    (source : String) :
    ofSourceStrictly registry path language source =
      ((candidates language source).mapM
        (readNumbered registry path)).map fun markers =>
          ⟨path, language, markers, []⟩ := by
  rw [← markerLines_eq]
  rfl

/- Without diagnostics, both ways to extract are the same. -/
theorem ofText_of_nil
    (hNone :
      (ofSource registry path language source).diagnostics =
        []) :
    ofText .failFast registry path language source =
      .ok (ofSource registry path language source) := by
  have hAccounts :=
    accounts_ofSource registry path language source
  rw [hNone] at hAccounts
  unfold ofText
  rw [ofSourceStrictly_eq, hAccounts.mapM_of_nil]
  exact congrArg
    (fun list => Except.ok (mk path language _ list))
    hNone.symm

/- With diagnostics, the first one is returned as an error. -/
theorem ofText_of_cons
    {first : Diagnostic}
    {later : List Diagnostic}
    (hFirst :
      (ofSource registry path language source).diagnostics =
        first :: later) :
    ∃ cause,
      first.HasCause registry cause ∧
        ofText .failFast registry path language source =
          .error (.marker path first.location.line cause) := by
  have hAccounts :=
    accounts_ofSource registry path language source
  rw [hFirst] at hAccounts
  rcases hAccounts.mapM_of_cons with ⟨cause, hCause, hEnd⟩
  refine ⟨cause, hCause, ?_⟩
  unfold ofText
  rw [ofSourceStrictly_eq, hEnd]
  rfl

end Extraction

------------------------------------------------------------
-- Files
------------------------------------------------------------

/-
  A file whose name tells the language. The text is missing if
  the file cannot be read.
-/
structure SourceFile where
  path : String
  language : Language
  text? : Option String

/- The files under a path whose names tell a language. -/
def FileView.sources
    (view : FileView)
    (path : String) : List SourceFile :=
  (view.walk path).filterMap fun (path, text?) =>
    (Language.ofPath? path).map fun language =>
      ⟨path, language, text?⟩

namespace SourceFile

variable {registry : Registry}
variable {file : SourceFile}
variable {files : List SourceFile}

/- What is extracted from a file if it can be read. -/
def extract?
    (registry : Registry)
    (file : SourceFile) : Option Extraction :=
  file.text?.map
    (Extraction.ofSource registry file.path file.language)

/- Extract the markers of a file. -/
def visit
    (strictness : Strictness)
    (registry : Registry)
    (file : SourceFile) : Except ExtractionError Extraction :=
  Survey.visit strictness registry file.path file.language
    file.text?

/-
  The problem of a file: it cannot be read, or there is a
  diagnostic, of which the first one counts.
-/
inductive Problem
    (registry : Registry)
    (file : SourceFile) : ExtractionError → Prop
  | unreadable
      (hText : file.text? = none) :
      Problem registry file (.unreadable file.path .notText)
  | marker
      {extraction : Extraction}
      {first : Diagnostic}
      {later : List Diagnostic}
      {cause : MarkerError}
      (hExtract : file.extract? registry = some extraction)
      (hDiagnostics :
        extraction.diagnostics = first :: later)
      (hCause : first.HasCause registry cause) :
      Problem registry file
        (.marker file.path first.location.line cause)

/- The file can be read, and there is no diagnostic. -/
def Yields
    (registry : Registry)
    (file : SourceFile)
    (extraction : Extraction) : Prop :=
  file.extract? registry = some extraction ∧
    extraction.clean = true

theorem clean_iff
    {extraction : Extraction} :
    extraction.clean = true ↔ extraction.diagnostics = [] := by
  unfold Extraction.clean
  rw [List.isEmpty_iff]

theorem extract?_of_text
    {text : String}
    (registry : Registry)
    (hText : file.text? = some text) :
    file.extract? registry =
      some (Extraction.ofSource registry file.path
        file.language text) :=
  congrArg (Option.map _) hText

theorem text?_ne_none
    {extraction : Extraction}
    (hExtract : file.extract? registry = some extraction) :
    file.text? ≠ none := by
  intro hText
  rw [extract?, hText] at hExtract
  cases hExtract

/- A file with a problem has only this one. -/
theorem Problem.unique
    {first second : ExtractionError}
    (hFirst : file.Problem registry first)
    (hSecond : file.Problem registry second) :
    first = second := by
  cases hFirst with
  | unreadable hText =>
      cases hSecond with
      | unreadable _ => rfl
      | marker hExtract _ _ =>
          exact absurd hText (text?_ne_none hExtract)
  | marker hExtract hDiagnostics hCause =>
      cases hSecond with
      | unreadable hText =>
          exact absurd hText (text?_ne_none hExtract)
      | marker hExtract' hDiagnostics' hCause' =>
          cases hExtract.symm.trans hExtract'
          cases hDiagnostics.symm.trans hDiagnostics'
          cases hCause.line.symm.trans hCause'.line
          rfl

theorem Yields.not_problem
    {extraction : Extraction}
    {error : ExtractionError}
    (hYields : file.Yields registry extraction) :
    ¬ file.Problem registry error := by
  rcases hYields with ⟨hExtract, hClean⟩
  intro hProblem
  cases hProblem with
  | unreadable hText => exact text?_ne_none hExtract hText
  | marker hExtract' hDiagnostics _ =>
      cases hExtract.symm.trans hExtract'
      rw [clean_iff, hDiagnostics] at hClean
      cases hClean

/- A text is read up to the line of the first diagnostic. -/
theorem visit_failFast
    (registry : Registry)
    (file : SourceFile) :
    (∃ extraction,
        file.Yields registry extraction ∧
          file.visit .failFast registry = .ok extraction) ∨
      ∃ error,
        file.Problem registry error ∧
          file.visit .failFast registry = .error error := by
  rcases file with ⟨path, language, _ | text⟩
  · exact Or.inr ⟨_, .unreadable rfl, rfl⟩
  · cases hDiagnostics :
        (Extraction.ofSource registry path language
          text).diagnostics with
    | nil =>
        exact Or.inl
          ⟨_, ⟨rfl, clean_iff.mpr hDiagnostics⟩,
            Extraction.ofText_of_nil hDiagnostics⟩
    | cons first later =>
        rcases Extraction.ofText_of_cons hDiagnostics with
          ⟨cause, hCause, hEnd⟩
        exact Or.inr
          ⟨_, .marker rfl hDiagnostics hCause, hEnd⟩

/- A file is extracted, or its problem is returned. -/
theorem visit_iff
    (registry : Registry)
    (file : SourceFile) :
    (∀ extraction,
        file.visit .failFast registry = .ok extraction ↔
          file.Yields registry extraction) ∧
      ∀ error,
        file.visit .failFast registry = .error error ↔
          file.Problem registry error := by
  apply result_iff (visit_failFast registry file)
  · intro first second hFirst hSecond
    cases hFirst.1.symm.trans hSecond.1
    rfl
  · exact fun _ _ => Problem.unique
  · exact fun _ _ => Yields.not_problem

------------------------------------------------------------
-- Lists of Files
------------------------------------------------------------

/-
  The problem is that of the first file that has one; the
  files before it have none.
-/
inductive FirstProblem
    (registry : Registry) :
    List SourceFile → ExtractionError → Prop
  | here
      {file : SourceFile}
      {files : List SourceFile}
      {error : ExtractionError}
      (hProblem : file.Problem registry error) :
      FirstProblem registry (file :: files) error
  | later
      {file : SourceFile}
      {files : List SourceFile}
      {extraction : Extraction}
      {error : ExtractionError}
      (hYields : file.Yields registry extraction)
      (hLater : FirstProblem registry files error) :
      FirstProblem registry (file :: files) error

theorem FirstProblem.unique
    {first second : ExtractionError}
    (hFirst : FirstProblem registry files first)
    (hSecond : FirstProblem registry files second) :
    first = second := by
  induction hFirst with
  | here hProblem =>
      cases hSecond with
      | here hOther => exact hProblem.unique hOther
      | later hYields _ =>
          exact absurd hProblem hYields.not_problem
  | later hYields hLater ih =>
      cases hSecond with
      | here hProblem =>
          exact absurd hProblem hYields.not_problem
      | later _ hOther => exact ih hOther

/- None of the files has a problem. -/
def AllYield
    (registry : Registry)
    (files : List SourceFile) : Prop :=
  ∀ file ∈ files, ∃ extraction,
    file.Yields registry extraction

theorem AllYield.not_firstProblem
    {error : ExtractionError}
    (hAll : AllYield registry files) :
    ¬ FirstProblem registry files error := by
  intro hFirst
  induction hFirst with
  | here hProblem =>
      rcases hAll _ List.mem_cons_self with
        ⟨extraction, hYields⟩
      exact hYields.not_problem hProblem
  | later hYields hLater ih =>
      exact ih (List.forall_mem_cons.mp hAll).2

/- All files can be read, and what is found is clean. -/
theorem allYield_iff :
    AllYield registry files ↔
      (∀ extraction ∈ files.filterMap (extract? registry),
        extraction.clean = true) ∧
        ∀ file ∈ files, file.text? ≠ none := by
  simp only [List.mem_filterMap, forall_exists_index, and_imp]
  constructor
  · intro hAll
    constructor
    · intro extraction file hFile hExtract
      rcases hAll file hFile with ⟨found, hFound, hClean⟩
      cases hFound.symm.trans hExtract
      exact hClean
    · intro file hFile
      rcases hAll file hFile with ⟨found, hFound, _⟩
      exact text?_ne_none hFound
  · rintro ⟨hClean, hTexts⟩ file hFile
    rcases Option.ne_none_iff_exists'.mp
        (hTexts file hFile) with ⟨text, hText⟩
    have hExtract := extract?_of_text registry hText
    exact ⟨_, hExtract, hClean _ file hFile hExtract⟩

/- Files are extracted one by one up to the first problem. -/
theorem mapM_visit_failFast
    (registry : Registry)
    (files : List SourceFile) :
    (∃ extractions,
        (extractions = files.filterMap (extract? registry) ∧
            AllYield registry files) ∧
          files.mapM (visit .failFast registry) =
            .ok extractions) ∨
      ∃ error,
        FirstProblem registry files error ∧
          files.mapM (visit .failFast registry) =
            .error error := by
  induction files with
  | nil =>
      exact Or.inl ⟨[], ⟨rfl, List.forall_mem_nil _⟩, rfl⟩
  | cons file files ih =>
      rw [List.mapM_cons]
      rcases visit_failFast registry file with
        ⟨extraction, hYields, hVisit⟩ |
          ⟨error, hProblem, hVisit⟩
      · rw [hVisit]
        -- This file has no problem, so the others decide.
        rcases ih with
          ⟨extractions, ⟨hFound, hAll⟩, hMap⟩ |
            ⟨error, hFirst, hMap⟩
        · rw [hMap]
          refine Or.inl ⟨_, ⟨?_, List.forall_mem_cons.mpr
            ⟨⟨extraction, hYields⟩, hAll⟩⟩, rfl⟩
          rw [List.filterMap_cons, hYields.1, ← hFound]
        · rw [hMap]
          exact Or.inr ⟨error, .later hYields hFirst, rfl⟩
      · rw [hVisit]
        exact Or.inr ⟨error, .here hProblem, rfl⟩

theorem mapM_visit_iff
    (registry : Registry)
    (files : List SourceFile) :
    (∀ extractions,
        files.mapM (visit .failFast registry) =
            .ok extractions ↔
          extractions = files.filterMap (extract? registry) ∧
            AllYield registry files) ∧
      ∀ error,
        files.mapM (visit .failFast registry) =
            .error error ↔
          FirstProblem registry files error := by
  apply result_iff (mapM_visit_failFast registry files)
  · exact fun _ _ hFirst hSecond =>
      hFirst.1.trans hSecond.1.symm
  · exact fun _ _ => FirstProblem.unique
  · exact fun _ _ hAll => hAll.2.not_firstProblem

end SourceFile

------------------------------------------------------------
-- Folders
------------------------------------------------------------

namespace Survey

/- The counts are sums, and clean is what has no diagnostics. -/
structure Totals
    (survey : Survey) : Prop where
  markers :
    survey.markerCount =
      (survey.files.map fun file => file.markers.length).sum
  diagnostics :
    survey.diagnosticCount =
      (survey.files.map fun file =>
        file.diagnostics.length).sum
  clean :
    survey.clean = true ↔
      ∀ file ∈ survey.files, file.diagnostics = []

theorem totals_empty :
    empty.Totals :=
  ⟨rfl, rfl, iff_of_true rfl nofun⟩

/- One more file adds to the counts what it has. -/
theorem Totals.push
    {survey : Survey}
    (hTotals : survey.Totals)
    (file : Extraction) :
    (survey.push file).Totals := by
  have hFiles :
      (survey.push file).files = survey.files ++ [file] :=
    rfl
  refine ⟨?_, ?_, ?_⟩
  · rw [hFiles, List.map_append, List.sum_append,
      ← hTotals.markers, List.map_singleton,
      List.sum_singleton]
    rfl
  · rw [hFiles, List.map_append, List.sum_append,
      ← hTotals.diagnostics, List.map_singleton,
      List.sum_singleton]
    rfl
  · have hEarlier := hTotals.clean
    unfold Survey.clean at hEarlier ⊢
    rw [beq_iff_eq] at hEarlier ⊢
    rw [hFiles, List.forall_mem_append,
      List.forall_mem_singleton, ← hEarlier,
      ← List.length_eq_zero_iff]
    exact Nat.add_eq_zero_iff

/- A survey with several more files. -/
def pushAll
    (survey : Survey)
    (files : List Extraction) : Survey :=
  files.foldl push survey

theorem files_pushAll
    (survey : Survey)
    (files : List Extraction) :
    (survey.pushAll files).files = survey.files ++ files := by
  unfold pushAll
  induction files generalizing survey with
  | nil => exact (List.append_nil _).symm
  | cons file later ih =>
      rw [List.foldl_cons, ih]
      exact List.append_assoc survey.files [file] later

/- The counts that are kept are right after every file. -/
theorem Totals.pushAll
    {survey : Survey}
    (hTotals : survey.Totals)
    (files : List Extraction) :
    (survey.pushAll files).Totals := by
  unfold Survey.pushAll
  induction files generalizing survey with
  | nil => exact hTotals
  | cons file later ih => exact ih (hTotals.push file)

/- Without diagnostics in its files, a survey is clean. -/
theorem clean_pushAll_iff
    (files : List Extraction) :
    (empty.pushAll files).clean = true ↔
      ∀ file ∈ files, file.clean = true := by
  simp only [SourceFile.clean_iff]
  rw [(totals_empty.pushAll files).clean, files_pushAll]
  rfl

variable {registry : Registry}
variable {view : FileView}
variable {path : String}

/- Go on with a file whose name tells the language. -/
def stepFile
    (strictness : Strictness)
    (registry : Registry)
    (survey : Survey)
    (file : SourceFile) : Except ExtractionError Survey :=
  match file.visit strictness registry with
  | .ok extraction => .ok (survey.push extraction)
  | .error error =>
      match strictness with
      | .lenient => .ok survey
      | .failFast => .error error

/- The files of a folder are visited in the order of the walk. -/
theorem ofFolder_eq_foldlM
    (strictness : Strictness)
    (registry : Registry)
    (view : FileView)
    (path : String) :
    ofFolder strictness registry view path =
      (view.sources path).foldlM
        (stepFile strictness registry) empty := by
  unfold ofFolder FileView.sources
  generalize empty = survey
  induction view.walk path generalizing survey with
  | nil => rfl
  | cons entry later ih =>
      rcases entry with ⟨path, text?⟩
      rw [List.foldlM_cons, List.filterMap_cons]
      dsimp only
      unfold step
      cases Language.ofPath? path with
      | none => exact ih survey
      | some language =>
          rw [Option.map_some]
          dsimp only
          rw [List.foldlM_cons]
          exact congrArg _ (funext ih)

/- Lenient extraction leaves out what cannot be read. -/
theorem ofFolder_lenient
    (registry : Registry)
    (view : FileView)
    (path : String) :
    ofFolder .lenient registry view path =
      .ok (empty.pushAll
        ((view.sources path).filterMap
          (SourceFile.extract? registry))) := by
  rw [ofFolder_eq_foldlM]
  generalize empty = survey
  induction view.sources path generalizing survey with
  | nil => rfl
  | cons file later ih =>
      rw [List.foldlM_cons, List.filterMap_cons]
      rcases file with ⟨path, language, _ | text⟩
      · exact ih survey
      · exact ih (survey.push _)

theorem ofFolder_failFast
    (registry : Registry)
    (view : FileView)
    (path : String) :
    ofFolder .failFast registry view path =
      ((view.sources path).mapM
        (SourceFile.visit .failFast registry)).map
          empty.pushAll := by
  rw [ofFolder_eq_foldlM]
  generalize empty = survey
  induction view.sources path generalizing survey with
  | nil => rfl
  | cons file later ih =>
      rw [List.foldlM_cons, List.mapM_cons]
      unfold stepFile
      cases file.visit .failFast registry with
      | error error => rfl
      | ok extraction =>
          refine (ih (survey.push extraction)).trans ?_
          cases later.mapM
              (SourceFile.visit .failFast registry) with
          | error error => rfl
          | ok extractions => rfl

/-
  Extraction that ends at the first problem succeeds if and
  only if nothing is left out and nothing is diagnosed.
-/
theorem ofFolder_failFast_eq_ok_iff
    {survey found : Survey}
    (hSurvey :
      ofFolder .lenient registry view path = .ok survey) :
    ofFolder .failFast registry view path = .ok found ↔
      found = survey ∧
        survey.clean = true ∧
          ∀ file ∈ view.sources path, file.text? ≠ none := by
  rw [ofFolder_lenient] at hSurvey
  cases hSurvey
  rw [ofFolder_failFast, map_eq_ok_iff, clean_pushAll_iff,
    ← SourceFile.allYield_iff]
  simp only [(SourceFile.mapM_visit_iff registry _).1]
  constructor
  · rintro ⟨_, ⟨rfl, hAll⟩, rfl⟩
    exact ⟨rfl, hAll⟩
  · rintro ⟨rfl, hAll⟩
    exact ⟨_, ⟨rfl, hAll⟩, rfl⟩

/- Otherwise it returns the first problem. -/
theorem ofFolder_failFast_eq_error_iff
    {error : ExtractionError} :
    ofFolder .failFast registry view path = .error error ↔
      SourceFile.FirstProblem registry (view.sources path)
        error := by
  rw [ofFolder_failFast, map_eq_error_iff,
    (SourceFile.mapM_visit_iff registry _).2]

end Survey

------------------------------------------------------------
-- Agreement
------------------------------------------------------------

/-
  What is found in a folder. Extraction that ends at the first
  problem finds the same where there is no problem, and
  returns that of the first file that has one otherwise.
-/
structure Survey.FoundIn
    (registry : Registry)
    (view : FileView)
    (path : String)
    (survey : Survey) : Prop where
  lenient :
    ofFolder .lenient registry view path = .ok survey
  files :
    survey.files =
      (view.sources path).filterMap
        (SourceFile.extract? registry)
  totals : survey.Totals
  failFast :
    ∀ found,
      ofFolder .failFast registry view path = .ok found ↔
        found = survey ∧
          survey.clean = true ∧
            ∀ file ∈ view.sources path, file.text? ≠ none
  problem :
    ∀ error,
      ofFolder .failFast registry view path = .error error ↔
        SourceFile.FirstProblem registry (view.sources path)
          error

/- What is found in a file, as in a folder with only this one. -/
structure Extraction.FoundIn
    (registry : Registry)
    (view : FileView)
    (file : SourceFile)
    (extraction : Extraction) : Prop where
  lenient :
    ofFile .lenient registry view file.path = .ok extraction
  extract :
    file.extract? registry = some extraction
  failFast :
    ∀ found,
      ofFile .failFast registry view file.path = .ok found ↔
        found = extraction ∧ extraction.clean = true
  problem :
    ∀ error,
      ofFile .failFast registry view file.path =
          .error error ↔
        file.Problem registry error

theorem Survey.foundIn_ofFolder
    (registry : Registry)
    (view : FileView)
    (path : String) :
    ∃ survey, FoundIn registry view path survey := by
  have hLenient := ofFolder_lenient registry view path
  exact ⟨_, hLenient, files_pushAll _ _,
    totals_empty.pushAll _,
    fun _ => ofFolder_failFast_eq_ok_iff hLenient,
    fun _ => ofFolder_failFast_eq_error_iff⟩

namespace Extraction

variable {view : FileView}
variable {path text : String}
variable {language : Language}

/- A file that can be read is visited like one in a folder. -/
theorem ofFile_eq_visit
    (hLanguage : Language.ofPath? path = some language)
    (hText : view.readText path = .ok text)
    (strictness : Strictness)
    (registry : Registry) :
    ofFile strictness registry view path =
      SourceFile.visit strictness registry
        ⟨path, language, some text⟩ := by
  unfold ofFile
  rw [hLanguage, hText]
  rfl

theorem foundIn_ofFile
    (registry : Registry)
    (hLanguage : Language.ofPath? path = some language)
    (hText : view.readText path = .ok text) :
    ∃ extraction,
      FoundIn registry view ⟨path, language, some text⟩
        extraction := by
  have hFile := ofFile_eq_visit hLanguage hText
  have hVisit := SourceFile.visit_iff registry
    ⟨path, language, some text⟩
  refine ⟨ofSource registry path language text,
    hFile .lenient registry, rfl, ?_, ?_⟩
  · intro found
    rw [hFile, hVisit.1]
    constructor
    · rintro ⟨hExtract, hClean⟩
      cases hExtract
      exact ⟨rfl, hClean⟩
    · rintro ⟨rfl, hClean⟩
      exact ⟨rfl, hClean⟩
  · intro error
    rw [hFile]
    exact hVisit.2 error

end Extraction

/-
  Extraction of a folder always succeeds if it is lenient. If
  it ends at the first problem, it agrees with that, and the
  first problem is the one that a walk through the folder
  meets first. So does extraction of a file.
-/
theorem Survey.ofFolder_agrees
    (registry : Registry)
    (view : FileView)
    (path : String) :
    (∃ survey, FoundIn registry view path survey) ∧
      (∀ tree,
        view path = .ok tree →
          tree.Ordered →
            tree.Listed path (view.walk path)) ∧
        ∀ language text,
          Language.ofPath? path = some language →
            view.readText path = .ok text →
              ∃ extraction,
                Extraction.FoundIn registry view
                  ⟨path, language, some text⟩
                  extraction := by
  refine ⟨foundIn_ofFolder registry view path, ?_, ?_⟩
  · intro tree hTree hOrdered
    rw [FileView.walk, hTree]
    exact hOrdered.listed_files path
  · intro language text hLanguage hText
    exact Extraction.foundIn_ofFile registry hLanguage hText

/-
  A marker without arguments, a line that goes on behind the
  name of its marker, and a file that cannot be read: of the
  two problems, the walk meets that of the line first.
-/
theorem Survey.ofFolder_agrees_trailing_text :
    let root : FileTree :=
      .folder
        [("a.go", .file (some "// +m\n")),
          ("b", .folder
            [("c.py", .file (some "x = 1\n# +m: A\n")),
              ("d.txt", .file none)]),
          ("e.rs", .file none)]
    let cause := MarkerError.malformed "+m: A" .trailingText
    root.Ordered ∧
      root.Listed "." (FileView.walk root.resolve ".") ∧
        (∃ survey,
          ofFolder .lenient Registry.empty root.resolve "." =
              .ok survey ∧
            survey.markerCount = 1 ∧
              survey.diagnosticCount = 1) ∧
          ofFolder .failFast Registry.empty root.resolve "." =
              .error (.marker "./b/c.py" 2 cause) ∧
            Extraction.ofFile .failFast Registry.empty
                root.resolve "b/c.py" =
              .error (.marker "b/c.py" 2 cause) := by
  intro root cause
  have hOrdered : root.Ordered := by
    refine .folder (by decide) ?_
    simp only [List.forall_mem_cons]
    refine ⟨.file _, .folder (by decide) ?_, .file _, nofun⟩
    simp only [List.forall_mem_cons]
    exact ⟨.file _, .file _, nofun⟩
  have hSources :
      FileView.sources root.resolve "." =
        [⟨"./a.go", .go, some "// +m\n"⟩,
          ⟨"./b/c.py", .python, some "x = 1\n# +m: A\n"⟩,
          ⟨"./e.rs", .rust, none⟩] := rfl
  have hProblem :
      ∀ path,
        SourceFile.Problem Registry.empty
          ⟨path, .python, some "x = 1\n# +m: A\n"⟩
          (.marker path 2 cause) := by
    intro path
    have hDiagnostics :
        (Extraction.ofSource Registry.empty path .python
          "x = 1\n# +m: A\n").diagnostics =
            [⟨⟨path, 2, some 3⟩, "+m: A", cause.message⟩] :=
      rfl
    have hLine :
        Marker.ofLine Registry.empty "+m: A" = .error cause :=
      by rfl
    exact .marker rfl hDiagnostics ⟨hLine, rfl⟩
  rcases ofFolder_agrees Registry.empty root.resolve "." with
    ⟨⟨survey, hLenient, hFiles, hTotals, _, hFolder⟩,
      hListed, _⟩
  rcases (ofFolder_agrees Registry.empty root.resolve
      "b/c.py").2.2 .python "x = 1\n# +m: A\n" rfl rfl with
    ⟨_, _, _, _, hFile⟩
  rw [hSources] at hFiles hFolder
  refine ⟨hOrdered, hListed root rfl hOrdered,
    ⟨survey, hLenient, ?_, ?_⟩, ?_, ?_⟩
  · rw [hTotals.markers, hFiles]
    rfl
  · rw [hTotals.diagnostics, hFiles]
    rfl
  · exact (hFolder _).mpr (.later ⟨rfl, rfl⟩
      (.here (hProblem "./b/c.py")))
  · exact (hFile _).mpr (hProblem "b/c.py")

end Marginalia
