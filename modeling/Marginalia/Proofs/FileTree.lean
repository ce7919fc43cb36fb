import Marginalia.FileTree

/-
  A walk through a tree lists every file once, in the order of
  the names that lead to it.

  Key definitions include:
    * `FileTree.Ordered`
    * `FileTree.Leads`
    * `FileTree.Listed`

  Main statements:
    * `FileTree.Ordered.insert`
    * `FileTree.Ordered.resolve`
    * `FileTree.Ordered.listed_files`
-/

namespace Marginalia

namespace FileTree

------------------------------------------------------------
-- Order of Names
------------------------------------------------------------

/- The names in every folder of the tree ascend. -/
inductive Ordered : FileTree → Prop
  | file (text? : Option String) : Ordered (.file text?)
  | folder
      {entries : List (String × FileTree)}
      (hNames : AscendingKeys entries)
      (hInner : ∀ entry ∈ entries, Ordered entry.2) :
      Ordered (.folder entries)

theorem Ordered.entries
    {tree : FileTree}
    (hTree : tree.Ordered) :
    AscendingKeys tree.entries ∧
      ∀ entry ∈ tree.entries, entry.2.Ordered := by
  cases hTree with
  | file text? => exact ⟨List.Pairwise.nil, nofun⟩
  | folder hNames hInner => exact ⟨hNames, hInner⟩

/- What is found under a name is one of the entries. -/
theorem mem_of_lookup
    {entries : List (String × FileTree)}
    {name : String}
    {inner : FileTree}
    (hLookup : entries.lookup name = some inner) :
    (name, inner) ∈ entries := by
  rcases List.lookup_eq_some_iff.mp hLookup with
    ⟨before, after, rfl, _⟩
  exact List.mem_append_right _ List.mem_cons_self

/- A tree stays ordered when another one is put into it. -/
theorem Ordered.insert
    {inserted tree : FileTree}
    (hInserted : inserted.Ordered)
    (hTree : tree.Ordered)
    (path : List String) :
    (inserted.insert path tree).Ordered := by
  induction path generalizing tree with
  | nil => exact hInserted
  | cons name path ih =>
      rcases hTree.entries with ⟨hNames, hInner⟩
      have hFound :
          ((tree.entries.lookup name).getD
            (FileTree.folder [])).Ordered := by
        cases hLookup : tree.entries.lookup name with
        | none => exact .folder List.Pairwise.nil nofun
        | some inner => exact hInner _ (mem_of_lookup hLookup)
      unfold FileTree.insert
      refine .folder hNames.insertByKey fun entry hEntry => ?_
      rcases mem_insertByKey hEntry with rfl | hOld
      · exact ih hFound
      · exact hInner entry hOld

/- Every path leads from ordered trees to ordered ones. -/
theorem Ordered.follow
    {tree found : FileTree}
    {parts : List (List Char)}
    {behind : List FileTree}
    (hTree : tree.Ordered)
    (hBehind : ∀ outer ∈ behind, outer.Ordered)
    (hFound : FileTree.follow parts behind tree = .ok found) :
    found.Ordered := by
  -- The folders behind are ordered, too: a path can go back.
  fun_induction FileTree.follow parts behind tree with
  | case1 behind tree =>
      cases hFound
      exact hTree
  | case2 | case5 | case7 => cases hFound
  | case3 part parts behind entries hStay ih =>
      exact ih hTree hBehind hFound
  | case4 parts entries outer behind hStay ih =>
      rw [List.forall_mem_cons] at hBehind
      exact ih hBehind.1 hBehind.2 hFound
  | case6 part parts behind entries _ _ inner hLookup ih =>
      refine ih (hTree.entries.2 _ (mem_of_lookup hLookup))
        ?_ hFound
      exact List.forall_mem_cons.mpr ⟨hTree, hBehind⟩

theorem Ordered.resolve
    {root found : FileTree}
    {path : String}
    (hRoot : root.Ordered)
    (hFound : root.resolve path = .ok found) :
    found.Ordered := by
  unfold FileTree.resolve at hFound
  split at hFound
  · cases hFound
  · exact hRoot.follow (List.forall_mem_nil _) hFound

------------------------------------------------------------
-- Places of Files
------------------------------------------------------------

/- The names lead through the tree to a file with the text. -/
inductive Leads :
    FileTree → List String → Option String → Prop
  | here {text? : Option String} :
      Leads (.file text?) [] text?
  | inside
      {entries : List (String × FileTree)}
      {name : String}
      {inner : FileTree}
      {names : List String}
      {text? : Option String}
      (hEntry : (name, inner) ∈ entries)
      (hInner : Leads inner names text?) :
      Leads (.folder entries) (name :: names) text?

/- The path that goes on with the names. -/
def pathOf
    (path : String)
    (names : List String) : String :=
  names.foldl Path.join path

mutual

/- The files of a tree with the names that lead to them. -/
def places : FileTree → List (List String × Option String)
  | file text? => [([], text?)]
  | folder entries => placesIn entries

/- The files in the entries of a folder. -/
def placesIn :
    List (String × FileTree) →
      List (List String × Option String)
  | [] => []
  | (name, tree) :: rest =>
      (places tree).map (Prod.map (name :: ·) id) ++
        placesIn rest

end

theorem placesIn_eq_flatMap
    (entries : List (String × FileTree)) :
    placesIn entries =
      entries.flatMap fun entry =>
        entry.2.places.map (Prod.map (entry.1 :: ·) id) := by
  induction entries with
  | nil => rfl
  | cons entry rest ih =>
      rw [placesIn, ih, List.flatMap_cons]

theorem mem_placesIn
    {entries : List (String × FileTree)}
    {names : List String}
    {text? : Option String} :
    (names, text?) ∈ placesIn entries ↔
      ∃ name inner later,
        names = name :: later ∧
          (name, inner) ∈ entries ∧
            (later, text?) ∈ inner.places := by
  rw [placesIn_eq_flatMap, List.mem_flatMap]
  constructor
  · rintro ⟨⟨name, inner⟩, hEntry, hPlace⟩
    rcases List.mem_map.mp hPlace with
      ⟨⟨later, _⟩, hLater, hEqual⟩
    cases hEqual
    exact ⟨name, inner, later, rfl, hEntry, hLater⟩
  · rintro ⟨name, inner, later, rfl, hEntry, hLater⟩
    exact ⟨(name, inner), hEntry,
      List.mem_map.mpr ⟨(later, text?), hLater, rfl⟩⟩

/- The places are those to which names lead. -/
theorem mem_places_iff
    {tree : FileTree}
    {names : List String}
    {text? : Option String} :
    (names, text?) ∈ tree.places ↔
      tree.Leads names text? := by
  induction names generalizing tree with
  | nil =>
      cases tree with
      | file other =>
          constructor
          · intro hPlace
            cases List.mem_singleton.mp hPlace
            exact .here
          · rintro ⟨⟩
            exact List.mem_singleton_self _
      | folder entries =>
          rw [places, mem_placesIn]
          constructor
          · rintro ⟨_, _, _, hNames, _⟩
            cases hNames
          · nofun
  | cons name names ih =>
      cases tree with
      | file other =>
          constructor
          · intro hPlace
            cases List.mem_singleton.mp hPlace
          · nofun
      | folder entries =>
          rw [places, mem_placesIn]
          constructor
          · rintro ⟨_, inner, later, hNames, hEntry, hLater⟩
            cases hNames
            exact .inside hEntry (ih.mp hLater)
          · rintro ⟨⟩
            rename_i inner hEntry hInner
            exact ⟨name, inner, names, rfl, hEntry,
              ih.mpr hInner⟩

/- In an ordered tree, the places are listed in order. -/
theorem Ordered.ascending_places
    {tree : FileTree}
    (hTree : tree.Ordered) :
    tree.places.Pairwise fun first second =>
      first.1 < second.1 := by
  induction hTree with
  | file text? => exact List.pairwise_singleton _ _
  | @folder entries hNames hInner ih =>
      rw [places, placesIn_eq_flatMap, List.pairwise_flatMap]
      constructor
      · intro entry hEntry
        rw [List.pairwise_map]
        exact (ih entry hEntry).imp List.Lex.cons
      · refine hNames.imp fun hLess => ?_
        intro first hFirst second hSecond
        rcases List.mem_map.mp hFirst with ⟨_, _, rfl⟩
        rcases List.mem_map.mp hSecond with ⟨_, _, rfl⟩
        exact List.Lex.rel hLess

------------------------------------------------------------
-- Walks
------------------------------------------------------------

mutual

theorem files_eq_places
    (path : String) :
    (tree : FileTree) →
      tree.files path =
        tree.places.map (Prod.map (pathOf path) id)
  | file _ => rfl
  | folder entries => filesIn_eq_placesIn path entries

theorem filesIn_eq_placesIn
    (path : String) :
    (entries : List (String × FileTree)) →
      filesIn path entries =
        (placesIn entries).map (Prod.map (pathOf path) id)
  | [] => rfl
  | (name, tree) :: rest => by
      rw [filesIn, placesIn, List.map_append, List.map_map,
        files_eq_places (Path.join path name) tree,
        filesIn_eq_placesIn path rest]
      rfl

end

/-
  The list has the files of the tree, each once, with its path
  and its text. It is in the order in which a walk from folder
  to folder meets them if it takes the names as they ascend.
-/
def Listed
    (tree : FileTree)
    (path : String)
    (files : List (String × Option String)) : Prop :=
  ∃ places : List (List String × Option String),
    files = places.map (Prod.map (pathOf path) id) ∧
      (places.Pairwise fun first second =>
        first.1 < second.1) ∧
        ∀ names text?,
          (names, text?) ∈ places ↔ tree.Leads names text?

/- A walk through an ordered tree lists its files. -/
theorem Ordered.listed_files
    {tree : FileTree}
    (hTree : tree.Ordered)
    (path : String) :
    tree.Listed path (tree.files path) :=
  ⟨tree.places, tree.files_eq_places path,
    hTree.ascending_places, fun _ _ => mem_places_iff⟩

end FileTree

end Marginalia
