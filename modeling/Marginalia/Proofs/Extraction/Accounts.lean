import Marginalia.Extraction.Files
import Marginalia.Proofs.Comment.Places
import Marginalia.Proofs.Marker.Refusals

/-
  Extraction accounts for every marker line of a source: each
  is either listed as a marker or as a diagnostic, with the
  place where it stands in the source.

  Key definitions include:
    * `Extraction.candidates`
    * `Extraction.Accounts`
    * `Divides`
    * `Marker.StandsIn`

  Main statements:
    * `Extraction.accounts_ofSource`
    * `Extraction.Accounts.perm_locations`
    * `Extraction.ofText_accounts`
-/

namespace Marginalia

------------------------------------------------------------
-- Marker Lines
------------------------------------------------------------

namespace CommentLine

/- A marker line goes on with a name after its plus sign. -/
theorem content_of_isMarker
    {line : CommentLine}
    (hMarker : line.isMarker = true) :
    ∃ c rest,
      line.content = '+' :: c :: rest ∧
        (Text.isLetter c = true ∨ c = '_') := by
  unfold isMarker at hMarker
  split at hMarker
  · rename_i c rest hContent
    refine ⟨c, rest, hContent, ?_⟩
    simpa using hMarker
  · cases hMarker

end CommentLine

namespace Marker

/- What may begin a name is no blank, sign or comma. -/
theorem isNameChar_of_begins
    {c : Char}
    (hBegins : Text.isLetter c = true ∨ c = '_') :
    isNameChar c = true := by
  rcases hBegins with hLetter | rfl
  · have hVisible : Text.isBlank c = false := by
      rw [← Bool.not_eq_true]
      intro hBlank
      have hWord := Text.isWordChar_of_isBlank hBlank
      simp [Text.isWordChar, hLetter] at hWord
    have hOther :
        ∀ d, Text.isLetter d = false → c ≠ d := by
      rintro d hNone rfl
      rw [hLetter] at hNone
      cases hNone
    simp [isNameChar, hVisible, hOther '=' (by decide),
      hOther ',' (by decide)]
  · decide

theorem ne_colon_of_begins
    {c : Char}
    (hBegins : Text.isLetter c = true ∨ c = '_') :
    c ≠ ':' := by
  rintro rfl
  revert hBegins
  decide

end Marker

namespace Extraction

variable {registry : Registry}
variable {path : String}
variable {language : Language}
variable {source : String}

/- The comment lines of a source that are marker lines. -/
def candidates
    (language : Language)
    (source : String) : List CommentLine :=
  ((CommentBlock.ofSource language source).flatMap
    CommentBlock.lines).filter CommentLine.isMarker

theorem markerLines_eq
    (language : Language)
    (source : String) :
    markerLines language source =
      candidates language source := by
  unfold candidates
  rw [List.filter_flatMap]
  rfl

/- They are listed by ascending numbers. -/
theorem ascending_candidates
    (language : Language)
    (source : String) :
    ((candidates language source).map
      CommentLine.number).Pairwise (· < ·) := by
  rw [List.pairwise_map]
  exact (CommentBlock.ascending_lines language source).filter
    CommentLine.isMarker

------------------------------------------------------------
-- Accounts
------------------------------------------------------------

/-
  The lines are accounted for by the markers and diagnostics:
  one after the other, each line that denotes a marker is
  listed as this marker, and each other line with the reason
  why it denotes none.
-/
inductive Accounts
    (registry : Registry)
    (path : String) :
    List CommentLine → List Marker → List Diagnostic → Prop
  | nil : Accounts registry path [] [] []
  | marker
      {line : CommentLine}
      {lines : List CommentLine}
      {marker : Marker}
      {markers : List Marker}
      {diagnostics : List Diagnostic}
      (hMarker :
        Marker.ofLine registry (String.ofList line.content) =
          .ok marker)
      (hLater :
        Accounts registry path lines markers diagnostics) :
      Accounts registry path (line :: lines)
        ({ marker with
            location :=
              ⟨path, line.number, some line.column⟩ } ::
          markers)
        diagnostics
  | diagnostic
      {line : CommentLine}
      {lines : List CommentLine}
      {error : MarkerError}
      {markers : List Marker}
      {diagnostics : List Diagnostic}
      (hError :
        Marker.ofLine registry (String.ofList line.content) =
          .error error)
      (hLater :
        Accounts registry path lines markers diagnostics) :
      Accounts registry path (line :: lines) markers
        (⟨⟨path, line.number, some line.column⟩,
            String.ofList line.content, error.message⟩ ::
          diagnostics)

theorem readLine_of_ok
    {line : CommentLine}
    {marker : Marker}
    (hMarker :
      Marker.ofLine registry (String.ofList line.content) =
        .ok marker) :
    readLine registry path line =
      .ok { marker with location := locate path line } := by
  unfold readLine
  rw [hMarker]
  rfl

theorem readLine_of_error
    {line : CommentLine}
    {error : MarkerError}
    (hError :
      Marker.ofLine registry (String.ofList line.content) =
        .error error) :
    readLine registry path line = .error error := by
  unfold readLine
  rw [hError]
  rfl

/- Extraction accounts for the marker lines of the source. -/
theorem accounts_ofSource
    (registry : Registry)
    (path : String)
    (language : Language)
    (source : String) :
    Accounts registry path (candidates language source)
      (ofSource registry path language source).markers
      (ofSource registry path language source).diagnostics := by
  unfold ofSource
  rw [markerLines_eq]
  induction candidates language source with
  | nil => exact .nil
  | cons line lines ih =>
      cases hLine :
          Marker.ofLine registry
            (String.ofList line.content) with
      | ok marker =>
          simp only [List.map_cons, List.filterMap_cons,
            readLine_of_ok hLine]
          exact .marker hLine ih
      | error error =>
          simp only [List.map_cons, List.filterMap_cons,
            readLine_of_error hLine]
          exact .diagnostic hLine ih

namespace Accounts

variable {lines : List CommentLine}
variable {markers : List Marker}
variable {diagnostics : List Diagnostic}

/- Every line is accounted for once, with its place. -/
theorem perm_locations
    (hAccounts :
      Accounts registry path lines markers diagnostics) :
    ((markers.map Marker.location) ++
        diagnostics.map Diagnostic.location).Perm
      (lines.map (locate path)) := by
  induction hAccounts with
  | nil => exact .nil
  | marker hMarker hLater ih => exact ih.cons _
  | diagnostic hError hLater ih =>
      exact List.perm_middle.trans (ih.cons _)

/- Markers and diagnostics keep the order of the lines. -/
theorem sublist_locations
    (hAccounts :
      Accounts registry path lines markers diagnostics) :
    (markers.map Marker.location).Sublist
        (lines.map (locate path)) ∧
      (diagnostics.map Diagnostic.location).Sublist
        (lines.map (locate path)) := by
  induction hAccounts with
  | nil => exact ⟨.slnil, .slnil⟩
  | marker hMarker hLater ih =>
      exact ⟨ih.1.cons_cons _, ih.2.cons _⟩
  | diagnostic hError hLater ih =>
      exact ⟨ih.1.cons _, ih.2.cons_cons _⟩

/- A marker is the one that its line denotes. -/
theorem exists_line_of_marker
    (hAccounts :
      Accounts registry path lines markers diagnostics) :
    ∀ found ∈ markers, ∃ line ∈ lines, ∃ marker,
      Marker.ofLine registry (String.ofList line.content) =
          .ok marker ∧
        found =
          { marker with location := locate path line } := by
  induction hAccounts with
  | nil => exact nofun
  | @marker line lines marker _ _ hMarker hLater ih =>
      rw [List.forall_mem_cons]
      refine ⟨⟨line, List.mem_cons_self, marker, hMarker,
        rfl⟩, ?_⟩
      intro found hFound
      rcases ih found hFound with ⟨other, hOther, hRest⟩
      exact ⟨other, List.mem_cons_of_mem _ hOther, hRest⟩
  | diagnostic hError hLater ih =>
      intro found hFound
      rcases ih found hFound with ⟨other, hOther, hRest⟩
      exact ⟨other, List.mem_cons_of_mem _ hOther, hRest⟩

/- A diagnostic says why its line denotes no marker. -/
theorem exists_line_of_diagnostic
    (hAccounts :
      Accounts registry path lines markers diagnostics) :
    ∀ found ∈ diagnostics, ∃ line ∈ lines, ∃ error,
      Marker.ofLine registry (String.ofList line.content) =
          .error error ∧
        found = diagnose path line error := by
  induction hAccounts with
  | nil => exact nofun
  | @diagnostic line lines error _ _ hError hLater ih =>
      rw [List.forall_mem_cons]
      refine ⟨⟨line, List.mem_cons_self, error, hError,
        rfl⟩, ?_⟩
      intro found hFound
      rcases ih found hFound with ⟨other, hOther, hRest⟩
      exact ⟨other, List.mem_cons_of_mem _ hOther, hRest⟩
  | marker hMarker hLater ih =>
      intro found hFound
      rcases ih found hFound with ⟨other, hOther, hRest⟩
      exact ⟨other, List.mem_cons_of_mem _ hOther, hRest⟩

end Accounts

end Extraction

------------------------------------------------------------
-- Numbers of Lines
------------------------------------------------------------

/-
  The numbers are divided into two lists: each is in exactly
  one of these, and both ascend.
-/
structure Divides
    (numbers first second : List Nat) : Prop where
  ascending_first : first.Pairwise (· < ·)
  ascending_second : second.Pairwise (· < ·)
  disjoint : ∀ n ∈ first, n ∉ second
  covers : ∀ n, n ∈ numbers ↔ n ∈ first ∨ n ∈ second

namespace Extraction

variable {registry : Registry}
variable {path : String}
variable {lines : List CommentLine}
variable {markers : List Marker}
variable {diagnostics : List Diagnostic}

/- The number of a line is that of its place. -/
theorem map_line_locate
    (path : String)
    (lines : List CommentLine) :
    (lines.map (locate path)).map Location.line =
      lines.map CommentLine.number := by
  rw [List.map_map]
  rfl

/- Ascending lines are divided by what accounts for them. -/
theorem Accounts.divides
    (hAccounts :
      Accounts registry path lines markers diagnostics)
    (hLines :
      (lines.map CommentLine.number).Pairwise (· < ·)) :
    Divides (lines.map CommentLine.number)
      (markers.map fun marker => marker.location.line)
      (diagnostics.map fun diagnostic =>
        diagnostic.location.line) := by
  have hPerm :=
    hAccounts.perm_locations.map Location.line
  rcases hAccounts.sublist_locations with
    ⟨hMarkers, hDiagnostics⟩
  have hMarkers := hMarkers.map Location.line
  have hDiagnostics := hDiagnostics.map Location.line
  rw [map_line_locate, List.map_append, List.map_map,
    List.map_map] at hPerm
  rw [map_line_locate, List.map_map] at hMarkers hDiagnostics
  have hNodup := hPerm.nodup_iff.mpr (hLines.imp Nat.ne_of_lt)
  refine ⟨hLines.sublist hMarkers,
    hLines.sublist hDiagnostics, ?_, ?_⟩
  · exact fun n hFirst hSecond =>
      (List.nodup_append.mp hNodup).2.2 n hFirst n hSecond rfl
  · intro n
    rw [← hPerm.mem_iff, List.mem_append]
    rfl

end Extraction

------------------------------------------------------------
-- Places of Markers
------------------------------------------------------------

/-
  A marker is where it says: at its column, its line has a
  plus sign and goes on with the text of the marker, which
  goes on with the name after the sign. The name begins with
  a letter or an underscore.
-/
structure Marker.StandsIn
    (marker : Marker)
    (source : String) : Prop where
  place :
    ∃ index text offset,
      (Text.lines source.toList)[index]? = some text ∧
        marker.location.line = index + 1 ∧
          marker.location.column? = some (offset + 1) ∧
            text[offset]? = some '+' ∧
              marker.text.toList <+: text.drop offset
  name :
    ∃ c name rest,
      marker.name.toList = c :: name ∧
        (Text.isLetter c = true ∨ c = '_') ∧
          marker.text.toList =
            '+' :: (marker.name.toList ++ rest)

namespace Extraction

variable {registry : Registry}
variable {path : String}
variable {language : Language}
variable {source : String}

/- The line of a candidate is its content and has a name. -/
theorem trim_candidate
    {line : CommentLine}
    (hLine : line ∈ candidates language source) :
    line.StandsIn (Text.lines source.toList) ∧
      ∃ c rest,
        line.content = '+' :: c :: rest ∧
          (Text.isLetter c = true ∨ c = '_') ∧
            Text.trim (String.ofList line.content).toList =
              '+' :: c :: rest := by
  rcases List.mem_filter.mp hLine with ⟨hComment, hMarker⟩
  rcases CommentBlock.standsIn_of_mem_lines hComment with
    ⟨hStands, hTrimmed⟩
  rcases CommentLine.content_of_isMarker hMarker with
    ⟨c, rest, hContent, hBegins⟩
  refine ⟨hStands, c, rest, hContent, hBegins, ?_⟩
  rw [String.toList_ofList, hTrimmed, hContent]

/- The marker that a line denotes is where the line is. -/
theorem standsIn_of_candidate
    {line : CommentLine}
    {marker : Marker}
    (hLine : line ∈ candidates language source)
    (hMarker :
      Marker.ofLine registry (String.ofList line.content) =
        .ok marker) :
    Marker.StandsIn
      { marker with location := locate path line }
      source := by
  rcases trim_candidate hLine with
    ⟨⟨index, text, offset, hText, hNumber, hColumn,
      hPrefix⟩, c, rest, hContent, hBegins, hTrim⟩
  rcases Marker.name_of_ofLine hTrim
      (Marker.isNameChar_of_begins hBegins)
      (Marker.ne_colon_of_begins hBegins) hMarker with
    ⟨hMarkerText, name, later, hName, hRest⟩
  rw [hContent] at hPrefix
  have hSign : text[offset]? = some '+' := by
    rcases hPrefix with ⟨after, hAfter⟩
    have hHead := congrArg (fun text => text[0]?) hAfter
    simpa using hHead.symm
  constructor
  · refine ⟨index, text, offset, hText, hNumber, ?_, hSign,
      ?_⟩
    · exact congrArg some hColumn
    · rw [hMarkerText]
      exact hPrefix
  · refine ⟨c, name, later, hName, hBegins, ?_⟩
    rw [hMarkerText, hName, hRest]
    rfl

/-
  Extraction of a source succeeds and accounts for every
  marker line once and in order. Every marker is where it
  says, and no diagnostic is about the lack of a name.
-/
theorem ofText_accounts
    (registry : Registry)
    (path : String)
    (language : Language)
    (source : String) :
    ∃ extraction,
      ofText .lenient registry path language source =
          .ok extraction ∧
        extraction.path = path ∧
          extraction.language = language ∧
            Accounts registry path
                (candidates language source)
                extraction.markers extraction.diagnostics ∧
              Divides
                  ((candidates language source).map
                    CommentLine.number)
                  (extraction.markers.map fun marker =>
                    marker.location.line)
                  (extraction.diagnostics.map
                    fun diagnostic =>
                      diagnostic.location.line) ∧
                (∀ marker ∈ extraction.markers,
                  marker.StandsIn source) ∧
                  ∀ diagnostic ∈ extraction.diagnostics,
                    ∀ text,
                      diagnostic.message ≠
                        (MarkerError.malformed text
                          .noName).message := by
  have hAccounts :=
    accounts_ofSource registry path language source
  refine ⟨ofSource registry path language source, rfl, rfl,
    rfl, hAccounts,
    hAccounts.divides (ascending_candidates language source),
    ?_, ?_⟩
  · intro found hFound
    rcases hAccounts.exists_line_of_marker found hFound with
      ⟨line, hLine, marker, hMarker, rfl⟩
    exact standsIn_of_candidate hLine hMarker
  · intro found hFound
    rcases hAccounts.exists_line_of_diagnostic found
        hFound with
      ⟨line, hLine, error, hError, rfl⟩
    rcases trim_candidate hLine with
      ⟨_, c, rest, _, hBegins, hTrim⟩
    exact (Marker.afterName_of_ofLine hTrim
      (Marker.isNameChar_of_begins hBegins)
      hError).message_ne

end Extraction

end Marginalia
