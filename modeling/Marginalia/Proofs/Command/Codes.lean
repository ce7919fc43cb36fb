import Marginalia.Command
import Marginalia.Proofs.Extraction.Strictness
import Marginalia.Proofs.Results

/-
  The code that the command for extraction ends with tells
  what was found at its path.

  Key definitions include:
    * `SourceFile.Flawed`
    * `SourceFile.Troubled`
    * `Command.Loads`
    * `Command.Refused`
    * `Command.Blemished`

  Main statements:
    * `SourceFile.judged_visit`
    * `SourceFile.judged_ofFolder`
    * `Command.decided_listMarkers`
    * `Command.code_extract`
-/

namespace Marginalia

------------------------------------------------------------
-- Flaws
------------------------------------------------------------

namespace Extraction

variable {registry : Registry}
variable {path : String}

/- There are diagnostics if and only if a line is refused. -/
theorem Accounts.diagnostics_eq_nil_iff
    {lines : List CommentLine}
    {markers : List Marker}
    {diagnostics : List Diagnostic}
    (hAccounts :
      Accounts registry path lines markers diagnostics) :
    diagnostics = [] ↔
      ¬ ∃ line ∈ lines, ∃ error,
        Marker.ofLine registry (String.ofList line.content) =
          .error error := by
  induction hAccounts with
  | nil => simp
  | marker hMarker hLater ih =>
      simp only [List.exists_mem_cons_iff, hMarker,
        reduceCtorEq, exists_false, false_or]
      exact ih
  | diagnostic hError hLater ih =>
      simp [hError]

end Extraction

namespace SourceFile

variable {registry : Registry}
variable {file : SourceFile}
variable {files : List SourceFile}

/- The file can be read, and a marker line in it is refused. -/
def Flawed
    (registry : Registry)
    (file : SourceFile) : Prop :=
  ∃ text,
    file.text? = some text ∧
      ∃ line ∈ Extraction.candidates file.language text,
        ∃ error,
          Marker.ofLine registry
              (String.ofList line.content) =
            .error error

/- The file cannot be read, or it is flawed. -/
def Troubled
    (registry : Registry)
    (file : SourceFile) : Prop :=
  file.text? = none ∨ file.Flawed registry

theorem clean_iff_not_flawed
    {extraction : Extraction}
    (hExtract : file.extract? registry = some extraction) :
    extraction.clean = true ↔ ¬ file.Flawed registry := by
  rcases Option.map_eq_some_iff.mp hExtract with
    ⟨text, hText, rfl⟩
  rw [clean_iff, (Extraction.accounts_ofSource registry
    file.path file.language text).diagnostics_eq_nil_iff]
  unfold Flawed
  simp only [hText, Option.some.injEq, exists_eq_left']

/- Files without a problem are those that are not troubled. -/
theorem exists_yields_iff :
    (∃ extraction, file.Yields registry extraction) ↔
      ¬ file.Troubled registry := by
  constructor
  · rintro ⟨extraction, hYields⟩ (hText | hFlawed)
    · exact text?_ne_none hYields.1 hText
    · exact (clean_iff_not_flawed hYields.1).mp hYields.2
        hFlawed
  · intro hSound
    rcases not_or.mp hSound with ⟨hText, hFlawed⟩
    rcases Option.ne_none_iff_exists'.mp hText with
      ⟨text, hText⟩
    have hExtract := extract?_of_text registry hText
    exact ⟨_, hExtract,
      (clean_iff_not_flawed hExtract).mpr hFlawed⟩

theorem Problem.troubled
    {error : ExtractionError}
    (hProblem : file.Problem registry error) :
    file.Troubled registry := by
  refine Classical.byContradiction fun hSound => ?_
  rcases exists_yields_iff.mpr hSound with
    ⟨extraction, hYields⟩
  exact hYields.not_problem hProblem

theorem FirstProblem.exists_troubled
    {error : ExtractionError}
    (hFirst : FirstProblem registry files error) :
    ∃ file ∈ files, file.Troubled registry := by
  induction hFirst with
  | here hProblem =>
      exact ⟨_, List.mem_cons_self, hProblem.troubled⟩
  | later hYields hLater ih =>
      rcases ih with ⟨file, hFile, hTroubled⟩
      exact ⟨file, List.mem_cons_of_mem _ hFile, hTroubled⟩

/- What is found is clean where no file is flawed. -/
theorem forall_clean_iff :
    (∀ extraction ∈ files.filterMap (extract? registry),
        extraction.clean = true) ↔
      ∀ file ∈ files, ¬ file.Flawed registry := by
  simp only [List.mem_filterMap, forall_exists_index, and_imp]
  constructor
  · rintro hClean file hFile hFlawed
    rcases hFlawed with ⟨text, hText, hLine⟩
    have hExtract := extract?_of_text registry hText
    exact (clean_iff_not_flawed hExtract).mp
      (hClean _ file hFile hExtract) ⟨text, hText, hLine⟩
  · intro hSound extraction file hFile hExtract
    exact (clean_iff_not_flawed hExtract).mpr
      (hSound file hFile)

/-
  The files are judged by whether what is found is clean. The
  judgement is missing if extraction that ends at the first
  problem has met a troubled file.
-/
inductive Judged
    (registry : Registry)
    (files : List SourceFile)
    (strictness : Strictness) :
    Except ExtractionError Bool → Prop
  | ok
      {clean : Bool}
      (hSound :
        strictness = .failFast →
          ∀ file ∈ files, ¬ file.Troubled registry)
      (hClean :
        clean = true ↔
          ∀ file ∈ files, ¬ file.Flawed registry) :
      Judged registry files strictness (.ok clean)
  | error
      {error : ExtractionError}
      (hStrictness : strictness = .failFast)
      (hTroubled :
        ∃ file ∈ files, file.Troubled registry) :
      Judged registry files strictness (.error error)

/- A file that can be read is judged. -/
theorem judged_visit
    (strictness : Strictness)
    (hText : file.text? ≠ none) :
    Judged registry [file] strictness
      ((file.visit strictness registry).map
        Extraction.clean) := by
  cases strictness with
  | lenient =>
      rcases file with ⟨path, language, _ | text⟩
      · exact absurd rfl hText
      · refine .ok nofun ?_
        rw [List.forall_mem_singleton]
        exact clean_iff_not_flawed rfl
  | failFast =>
      rcases visit_failFast registry file with
        ⟨extraction, hYields, hVisit⟩ |
          ⟨error, hProblem, hVisit⟩
      · rw [hVisit]
        refine .ok (fun _ => ?_) ?_
        · rw [List.forall_mem_singleton]
          exact exists_yields_iff.mp ⟨extraction, hYields⟩
        · rw [List.forall_mem_singleton]
          exact clean_iff_not_flawed hYields.1
      · rw [hVisit]
        exact .error rfl
          ⟨file, List.mem_singleton_self file,
            hProblem.troubled⟩

/- The files of a folder are judged. -/
theorem judged_ofFolder
    (strictness : Strictness)
    (registry : Registry)
    (view : FileView)
    (path : String) :
    Judged registry (view.sources path) strictness
      ((Survey.ofFolder strictness registry view path).map
        Survey.clean) := by
  have hLenient := Survey.ofFolder_lenient registry view path
  have hClean :
      (Survey.empty.pushAll ((view.sources path).filterMap
          (extract? registry))).clean = true ↔
        ∀ file ∈ view.sources path,
          ¬ file.Flawed registry := by
    rw [← forall_clean_iff, Survey.clean_pushAll_iff]
  cases strictness with
  | lenient =>
      rw [hLenient]
      exact .ok nofun hClean
  | failFast =>
      cases hResult :
          Survey.ofFolder .failFast registry view path with
      | ok found =>
          rcases (Survey.ofFolder_failFast_eq_ok_iff
              hLenient).mp hResult with ⟨rfl, hFound, hTexts⟩
          have hSound := hClean.mp hFound
          exact .ok
            (fun _ file hFile =>
              not_or.mpr
                ⟨hTexts file hFile, hSound file hFile⟩)
            hClean
      | error error =>
          exact .error rfl
            (Survey.ofFolder_failFast_eq_error_iff.mp
              hResult).exists_troubled

end SourceFile

------------------------------------------------------------
-- Refusals
------------------------------------------------------------

namespace Command

/- The registry is that of the configuration, if there is one. -/
inductive Loads
    (view : FileView) : Option String → Registry → Prop
  | unnamed : Loads view none Registry.empty
  | named
      {path text : String}
      {config : Config}
      {registry : Registry}
      (hText : view.readText path = .ok text)
      (hConfig : Config.ofText? text = some config)
      (hRegistry : config.toRegistry = .ok registry) :
      Loads view (some path) registry

/- The path is that of a file which is no text or no source. -/
def Unfit
    (view : FileView)
    (path : String) : Prop :=
  ∃ text?,
    view path = .ok (.file text?) ∧
      (Language.ofPath? path = none ∨ text? = none)

/-
  Nothing is listed: there is no registry, the path is that
  of a file which is not fit for extraction, or extraction
  that ends at the first problem meets a troubled file.
-/
inductive Refused
    (view : FileView)
    (path : String)
    (config? : Option String)
    (strictness : Strictness) : Prop
  | registry
      (hNone : ¬ ∃ registry, Loads view config? registry)
  | file
      (hUnfit : Unfit view path)
  | failFast
      {registry : Registry}
      (hStrictness : strictness = .failFast)
      (hLoads : Loads view config? registry)
      (hTroubled :
        ∃ file ∈ view.sources path, file.Troubled registry)

/- A marker line is refused in a file that can be read. -/
def Blemished
    (view : FileView)
    (path : String)
    (config? : Option String) : Prop :=
  ∃ registry,
    Loads view config? registry ∧
      ∃ file ∈ view.sources path, file.Flawed registry

variable {view : FileView}
variable {path : String}
variable {config? : Option String}
variable {strict : Bool}
variable {strictness : Strictness}
variable {registry : Registry}

theorem load_eq_ok_iff
    {config : Config} :
    Config.load view path = .ok config ↔
      ∃ text,
        view.readText path = .ok text ∧
          Config.ofText? text = some config := by
  unfold Config.load
  cases view.readText path with
  | error cause => simp
  | ok text =>
      cases hConfig : Config.ofText? text with
      | none => simp [hConfig]
      | some other => simp [hConfig]

theorem registryOf_eq_ok_iff :
    registryOf view config? = .ok registry ↔
      Loads view config? registry := by
  cases config? with
  | none =>
      constructor
      · rintro ⟨⟩
        exact .unnamed
      · rintro ⟨⟩
        rfl
  | some path =>
      simp only [registryOf, bind_eq_ok_iff,
        mapError_eq_ok_iff, load_eq_ok_iff]
      constructor
      · rintro ⟨config, ⟨text, hText, hConfig⟩, hRegistry⟩
        exact .named hText hConfig hRegistry
      · intro hLoads
        cases hLoads with
        | named hText hConfig hRegistry =>
            exact ⟨_, ⟨_, hText, hConfig⟩, hRegistry⟩

theorem Loads.unique
    {other : Registry}
    (hLoads : Loads view config? registry)
    (hOther : Loads view config? other) :
    other = registry := by
  rw [← registryOf_eq_ok_iff] at hLoads hOther
  cases hLoads.symm.trans hOther
  rfl

------------------------------------------------------------
-- Listings
------------------------------------------------------------

/-
  A listing is decided to be accepted or not, or it is missing
  because the command is refused.
-/
inductive Decided
    (view : FileView)
    (path : String)
    (config? : Option String)
    (strict : Bool)
    (strictness : Strictness) :
    Except Failure Listing → Prop
  | ok
      {listing : Listing}
      (hFit : ¬ Refused view path config? strictness)
      (hAccepted :
        listing.accepted = true ↔
          ¬ (strict = true ∧ Blemished view path config?)) :
      Decided view path config? strict strictness
        (.ok listing)
  | error
      {failure : Failure}
      (hRefused : Refused view path config? strictness) :
      Decided view path config? strict strictness
        (.error failure)

theorem blemished_iff
    (hLoads : Loads view config? registry) :
    Blemished view path config? ↔
      ∃ file ∈ view.sources path, file.Flawed registry := by
  constructor
  · rintro ⟨other, hOther, hFlawed⟩
    rw [← hLoads.unique hOther]
    exact hFlawed
  · exact fun hFlawed => ⟨registry, hLoads, hFlawed⟩

/- A listing of what is found is decided by the judgement. -/
theorem decided_of_judged
    {α : Type}
    {result : Except ExtractionError α}
    {clean : α → Bool}
    {text : α → String}
    (hLoads : Loads view config? registry)
    (hFit : ¬ Unfit view path)
    (hJudged :
      SourceFile.Judged registry (view.sources path)
        strictness (result.map clean)) :
    Decided view path config? strict strictness
      (do
        let found ← result.mapError .extraction
        return ⟨text found, !strict || clean found⟩) := by
  cases result with
  | error error =>
      rcases hJudged with _ | ⟨hStrictness, hTroubled⟩
      exact .error (.failFast hStrictness hLoads hTroubled)
  | ok found =>
      rcases hJudged with ⟨hSound, hClean⟩ | _
      refine .ok ?_ ?_
      · intro hRefused
        cases hRefused with
        | registry hNone => exact hNone ⟨registry, hLoads⟩
        | file hUnfit => exact hFit hUnfit
        | failFast hStrictness hOther hTroubled =>
            rcases hTroubled with ⟨file, hFile, hTroubled⟩
            rw [hLoads.unique hOther] at hTroubled
            exact hSound hStrictness file hFile hTroubled
      · rw [blemished_iff hLoads, Bool.or_eq_true,
          Bool.not_eq_true', hClean]
        cases strict with
        | false => simp
        | true => simp

/- The only file under the path of a file is this one. -/
theorem sources_of_file
    {text? : Option String}
    {language : Language}
    (hFile : view path = .ok (.file text?))
    (hLanguage : Language.ofPath? path = some language) :
    view.sources path = [⟨path, language, text?⟩] := by
  unfold FileView.sources FileView.walk
  rw [hFile]
  simp [FileTree.files, hLanguage]

theorem isFile_iff :
    view.isFile path = true ↔
      ∃ text?, view path = .ok (.file text?) := by
  unfold FileView.isFile
  constructor
  · intro hFile
    split at hFile
    · rename_i text? hFound
      exact ⟨text?, hFound⟩
    · cases hFile
  · rintro ⟨text?, hFound⟩
    rw [hFound]

/- What is listed for a file is decided. -/
theorem decided_file
    {text? : Option String}
    {text : Extraction → String}
    (hLoads : Loads view config? registry)
    (hFile : view path = .ok (.file text?)) :
    Decided view path config? strict strictness
      (do
        let found ←
          (Extraction.ofFile strictness registry view
            path).mapError .extraction
        return ⟨text found, !strict || found.clean⟩) := by
  cases hLanguage : Language.ofPath? path with
  | none =>
      unfold Extraction.ofFile
      rw [hLanguage]
      exact .error (.file ⟨text?, hFile, Or.inl hLanguage⟩)
  | some language =>
      cases text? with
      | none =>
          have hText : view.readText path = .error .notText := by
            unfold FileView.readText
            rw [hFile]
            rfl
          unfold Extraction.ofFile
          rw [hLanguage, hText]
          exact .error (.file ⟨none, hFile, Or.inr rfl⟩)
      | some source =>
          have hText : view.readText path = .ok source := by
            unfold FileView.readText
            rw [hFile]
            rfl
          -- Only now extraction reads lines, as in a folder.
          apply decided_of_judged hLoads
          · rintro ⟨other?, hOther, hUnfit⟩
            cases hFile.symm.trans hOther
            rw [hLanguage] at hUnfit
            simp at hUnfit
          · rw [sources_of_file hFile hLanguage,
              Extraction.ofFile_eq_visit hLanguage hText]
            exact SourceFile.judged_visit strictness nofun

theorem decided_listMarkers
    (view : FileView)
    (path : String)
    (config? : Option String)
    (format : Report.Format)
    (strict : Bool)
    (strictness : Strictness) :
    Decided view path config? strict strictness
      (listMarkers view path config? format strict
        strictness) := by
  unfold listMarkers
  cases hRegistry : registryOf view config? with
  | error failure =>
      refine .error (.registry ?_)
      rintro ⟨registry, hLoads⟩
      rw [registryOf_eq_ok_iff.mpr hLoads] at hRegistry
      cases hRegistry
  | ok registry =>
      have hLoads := registryOf_eq_ok_iff.mp hRegistry
      simp only [bind, Except.bind]
      split
      · rename_i hFile
        rcases isFile_iff.mp hFile with ⟨text?, hFound⟩
        exact decided_file hLoads hFound
      · rename_i hFile
        apply decided_of_judged hLoads
        · rintro ⟨text?, hFound, _⟩
          exact hFile (isFile_iff.mpr ⟨text?, hFound⟩)
        · exact SourceFile.judged_ofFolder strictness registry
            view path

/- The code tells how it was decided. -/
theorem code_of_decided
    {outcome : Except Failure Listing}
    (hDecided :
      Decided view path config? strict strictness outcome) :
    ((Result.ofListing outcome).code = 2 ↔
        Refused view path config? strictness) ∧
      ((Result.ofListing outcome).code = 2 →
        (Result.ofListing outcome).output = "") ∧
        ((Result.ofListing outcome).code = 1 ↔
          ¬ Refused view path config? strictness ∧
            strict = true ∧ Blemished view path config?) ∧
          ((Result.ofListing outcome).code = 0 ↔
            ¬ Refused view path config? strictness ∧
              ¬ (strict = true ∧
                Blemished view path config?)) := by
  cases hDecided with
  | error hRefused =>
      simp [Result.ofListing, hRefused]
  | @ok listing hFit hAccepted =>
      unfold Result.ofListing
      cases hListing : listing.accepted with
      | true =>
          have hKept := hAccepted.mp hListing
          simp [hListing, hFit, hKept]
      | false =>
          rw [hListing] at hAccepted
          have hBlemished :
              strict = true ∧
                Blemished view path config? := by
            simpa using hAccepted
          simp [hListing, hFit, hBlemished]

/-
  The command for extraction ends with the code 2 if and only
  if it is refused, and then it lists nothing. Otherwise, it
  ends with 1 if the check is strict and a marker line in a
  file that can be read is refused, and with 0 if not.

  A path that leads nowhere does not count as refused. It is
  taken for that of an empty folder.
-/
theorem code_extract
    (view : FileView)
    (path : String)
    (config? : Option String)
    (format : Report.Format)
    (strict : Bool)
    (strictness : Strictness) :
    let result :=
      (extract path config? format strict strictness).run view
    (result.code = 2 ↔
        Refused view path config? strictness) ∧
      (result.code = 2 → result.output = "") ∧
        (result.code = 1 ↔
          ¬ Refused view path config? strictness ∧
            strict = true ∧ Blemished view path config?) ∧
          (result.code = 0 ↔
            ¬ Refused view path config? strictness ∧
              ¬ (strict = true ∧
                Blemished view path config?)) :=
  code_of_decided
    (decided_listMarkers view path config? format strict
      strictness)

/-
  A file whose only marker line goes on behind the name of the
  marker: the code is 1, or 2 if that ends the extraction.
-/
theorem code_extract_trailing_text :
    let view :=
      FileTree.resolve
        (.folder [("a.py", .file (some "# +m: A"))])
    let run := fun strictness =>
      (extract "." none .text true strictness).run view
    (run .lenient).code = 1 ∧
      (run .failFast).code = 2 ∧
        (run .failFast).output = "" := by
  intro view run
  have hSources :
      FileView.sources view "." =
        [⟨"./a.py", .python, some "# +m: A"⟩] := rfl
  have hFlawed :
      ∃ file ∈ FileView.sources view ".",
        file.Flawed Registry.empty := by
    rw [hSources]
    have hLines :
        Extraction.candidates .python "# +m: A" =
          [⟨1, 3, "+m: A".toList⟩] := rfl
    have hLine :
        Marker.ofLine Registry.empty "+m: A" =
          .error (.malformed "+m: A" .trailingText) :=
      by rfl
    refine ⟨_, List.mem_singleton_self _, _, rfl, ?_⟩
    rw [hLines]
    exact ⟨_, List.mem_singleton_self _, _, hLine⟩
  have hFit : ¬ Refused view "." none .lenient := by
    intro hRefused
    cases hRefused with
    | registry hNone =>
        exact hNone ⟨Registry.empty, .unnamed⟩
    | file hUnfit =>
        rcases hUnfit with ⟨text?, hFile, _⟩
        cases hFile
    | failFast hStrictness _ _ => cases hStrictness
  rcases hFlawed with ⟨file, hFile, hFlawed⟩
  have hRefused : Refused view "." none .failFast :=
    .failFast rfl .unnamed ⟨file, hFile, Or.inr hFlawed⟩
  rcases code_extract view "." none .text true .lenient with
    ⟨_, _, hOne, _⟩
  rcases code_extract view "." none .text true .failFast with
    ⟨hTwo, hOutput, _⟩
  exact ⟨hOne.mpr ⟨hFit, rfl, _, .unnamed, file, hFile,
      hFlawed⟩, hTwo.mpr hRefused,
    hOutput (hTwo.mpr hRefused)⟩

/-
  Nothing is at the end of the path, and yet extraction ends
  with the code 0 in every way.
-/
theorem code_extract_missing :
    let view := FileTree.resolve (.folder [])
    view "missing" = .error .notFound ∧
      ∀ strict strictness,
        ((extract "missing" none .text strict
          strictness).run view).code = 0 := by
  intro view
  refine ⟨rfl, ?_⟩
  intro strict strictness
  cases strict with
  | false =>
      cases strictness with
      | lenient => rfl
      | failFast => rfl
  | true =>
      cases strictness with
      | lenient => rfl
      | failFast => rfl

end Command

end Marginalia
