import UnitForge.Files.Standard
import UnitForge.Proofs.Files.Places

/-! # Class paths

A class path is written as one text and kept as a list of directories. Directories that are added
to either stand behind those that are there, each once; a file is looked for in one directory after
the other, so that directories that are put in between can only hide what comes after them. -/
set_option autoImplicit false
namespace UnitForge

namespace ClassPath

def IsEntry (entry : String) : Prop :=
  entry ≠ "" ∧ separator ∉ entry.toList

instance : DecidablePred IsEntry :=
  fun entry => inferInstanceAs (Decidable (entry ≠ "" ∧ separator ∉ entry.toList))

theorem isEntry_of_mem_entries {entry value : String} (member : entry ∈ entries value) :
    IsEntry entry := by
  obtain ⟨piece, some_text⟩ := List.mem_filter.mp member
  refine ⟨?_, Text.not_mem_of_mem_splitOn piece⟩
  rintro rfl
  cases some_text

theorem entries_join {list : List String} (all : ∀ entry ∈ list, IsEntry entry) :
    entries (join list) = list := by
  by_cases none : list = []
  · subst none
    rfl
  · have kept : list.filter (!·.isEmpty) = list := by
      rw [List.filter_eq_self]
      intro entry member
      simpa using (all entry member).1
    rw [entries, join, Text.splitOn_intercalate none fun entry member => (all entry member).2, kept]

theorem addPaths_cons (known : List String) (path : String) (paths : List String) :
    addPaths known (path :: paths) =
      addPaths (if path ∈ known then known else known ++ [path]) paths :=
  rfl

theorem addPaths_split (known paths : List String) :
    ∃ more, addPaths known paths = known ++ more := by
  induction paths generalizing known with
  | nil => exact ⟨[], (List.append_nil known).symm⟩
  | cons path paths ih =>
      rw [addPaths_cons]
      by_cases present : path ∈ known
      · rw [if_pos present]
        exact ih known
      · rw [if_neg present]
        obtain ⟨more, split⟩ := ih (known ++ [path])
        exact ⟨path :: more, by rw [split, List.append_assoc, List.singleton_append]⟩

theorem isEntry_addPaths {known paths : List String} (old : ∀ entry ∈ known, IsEntry entry)
    (new : ∀ path ∈ paths, IsEntry path) : ∀ entry ∈ addPaths known paths, IsEntry entry := by
  induction paths generalizing known with
  | nil => exact old
  | cons path paths ih =>
      rw [addPaths_cons]
      refine ih ?_ fun entry member => new entry (List.mem_cons_of_mem _ member)
      intro entry member
      by_cases present : path ∈ known
      · rw [if_pos present] at member
        exact old entry member
      · rw [if_neg present, List.mem_append, List.mem_singleton] at member
        rcases member with earlier | rfl
        · exact old entry earlier
        · exact new entry List.mem_cons_self

end ClassPath

namespace StandardFiles

/-- Whether a class path has a directory, in whatever way its path is written. -/
def covers (classPath : List Path) (entry : Path) : Bool :=
  classPath.any (·.same entry)

/-- The directories that a class path does not have yet, each where it first occurs. -/
def additions (classPath : List Path) : List Path → List Path
  | [] => []
  | entry :: rest =>
    if covers classPath entry then additions classPath rest
    else entry :: additions (classPath ++ [entry]) rest

variable {classPath known more entries front back added : List Path} {entry : Path}

theorem addEntry_eq (classPath : List Path) (entry : Path) : addEntry classPath entry =
    if covers classPath entry then classPath else classPath ++ [entry] :=
  rfl

theorem covers_append : covers (known ++ more) entry = (covers known entry || covers more entry) :=
  List.any_append

theorem covers_of_mem (member : entry ∈ classPath) : covers classPath entry = true :=
  List.any_eq_true.mpr ⟨entry, member, decide_eq_true rfl⟩

theorem covers_of_same {other : Path} (has : covers classPath other = true)
    (same : other.same entry = true) : covers classPath entry = true := by
  obtain ⟨known, member, first⟩ := List.any_eq_true.mp has
  refine List.any_eq_true.mpr ⟨known, member, decide_eq_true ?_⟩
  exact (of_decide_eq_true first).trans (of_decide_eq_true same)

theorem foldl_addEntry (classPath entries : List Path) :
    entries.foldl addEntry classPath = classPath ++ additions classPath entries := by
  induction entries generalizing classPath with
  | nil => simp [additions]
  | cons entry rest ih =>
      rw [List.foldl_cons, ih, addEntry_eq, additions]
      by_cases present : covers classPath entry = true
      · rw [if_pos present, if_pos present]
      · rw [if_neg present, if_neg present, List.append_assoc, List.singleton_append]

theorem covers_foldl_addEntry (member : entry ∈ entries) :
    covers (entries.foldl addEntry classPath) entry = true := by
  induction entries generalizing classPath with
  | nil => cases member
  | cons first rest ih =>
      rw [List.foldl_cons]
      rcases List.mem_cons.mp member with rfl | later
      · rw [foldl_addEntry, covers_append, addEntry_eq]
        by_cases present : covers classPath entry = true
        · rw [if_pos present, present, Bool.true_or]
        · rw [if_neg present, covers_of_mem (List.mem_append_right _ (List.mem_singleton_self _)),
            Bool.true_or]
      · exact ih later

/-- Only which directories are there counts for what is added. -/
theorem additions_congr (same : ∀ entry, covers known entry = covers more entry) :
    additions known entries = additions more entries := by
  induction entries generalizing known more with
  | nil => rfl
  | cons entry rest ih =>
      have later : additions (known ++ [entry]) rest = additions (more ++ [entry]) rest := by
        apply ih
        intro other
        rw [covers_append, covers_append, same other]
      rw [additions, additions, same entry, ih same, later]

/-- With further directories there, those are left out that are the same as one of them. -/
theorem additions_append (known more entries : List Path) :
    additions (known ++ more) entries =
      (additions known entries).filter fun entry => !covers more entry := by
  induction entries generalizing known with
  | nil => rfl
  | cons entry rest ih =>
      rw [additions, additions, covers_append]
      by_cases present : covers known entry = true
      · rw [if_pos present, present, Bool.true_or, if_pos rfl, ih]
      · rw [if_neg present, Bool.eq_false_iff.mpr present, Bool.false_or]
        by_cases further : covers more entry = true
        · rw [if_pos further, List.filter_cons_of_neg (by simp [further]), ← ih]
          apply additions_congr
          intro other
          have implied : covers [entry] other = true → covers more other = true := by
            intro one
            apply covers_of_same further
            simpa [covers] using one
          rw [covers_append, covers_append, covers_append]
          cases here : covers [entry] other
          · rw [Bool.or_false]
          · rw [implied here, Bool.or_true, Bool.or_true]
        · rw [if_neg further, List.filter_cons_of_pos (by simp [further]), ← ih]
          congr 1
          apply additions_congr
          intro other
          simp only [covers_append, Bool.or_assoc, Bool.or_comm]

theorem foldl_addPaths (known paths : List String) (classPath : List Path) :
    ((ClassPath.addPaths known paths).map Path.mk).foldl addEntry classPath =
      (paths.map Path.mk).foldl addEntry ((known.map Path.mk).foldl addEntry classPath) := by
  induction paths generalizing known with
  | nil => rfl
  | cons path paths ih =>
      rw [ClassPath.addPaths_cons, ih, List.map_cons, List.foldl_cons]
      congr 1
      by_cases present : path ∈ known
      · have has : covers ((known.map Path.mk).foldl addEntry classPath) ⟨path⟩ = true :=
          covers_foldl_addEntry (List.mem_map_of_mem present)
        rw [if_pos present, addEntry_eq, if_pos has]
      · rw [if_neg present, List.map_append, List.foldl_append]
        rfl

/-! ## Directories put in between -/

/-- A class path with directories put behind the first part of it. What is the same as one of them
is left out behind them. -/
def inserted (front back paths : List Path) : List Path :=
  front ++ additions front paths ++ back.filter fun entry => !covers (additions front paths) entry

theorem inserted_nil (front paths : List Path) :
    inserted front [] paths = front ++ additions front paths := by
  simp [inserted]

theorem foldl_addEntry_inserted (front paths entries : List Path) :
    entries.foldl addEntry (paths.foldl addEntry front) =
      inserted front (additions front entries) paths := by
  rw [foldl_addEntry, foldl_addEntry front, additions_append, inserted]

theorem findSome?_filter {α β : Type} {p : α → Bool} {f : α → Option β} {items : List α}
    {found : β} (first : items.findSome? f = some found) :
    (items.filter p).findSome? f = some found ∨
      ∃ item ∈ items, p item = false ∧ f item = some found := by
  induction items with
  | nil => cases first
  | cons item rest ih =>
      rw [List.findSome?_cons] at first
      cases here : f item with
      | none =>
          rw [here] at first
          rcases ih first with kept | ⟨other, later, left, there⟩
          · refine .inl ?_
            by_cases kept_here : p item = true
            · rw [List.filter_cons_of_pos kept_here, List.findSome?_cons, here]
              exact kept
            · rwa [List.filter_cons_of_neg kept_here]
          · exact .inr ⟨other, List.mem_cons_of_mem _ later, left, there⟩
      | some value =>
          rw [here] at first
          cases first
          by_cases kept : p item = true
          · rw [List.filter_cons_of_pos kept, List.findSome?_cons, here]
            exact .inl rfl
          · exact .inr ⟨item, List.mem_cons_self, Bool.eq_false_iff.mpr kept, here⟩

def below (tree : FileTree) (name : String) (kind : ArtifactKind) (root : Path) :
    Option FileObject :=
  if tree.isFile (root.join (relativePath name kind)) then
    some { kind, path := root.join (relativePath name kind), root }
  else none

theorem below_eq_some {tree : FileTree} {name : String} {kind : ArtifactKind} {root : Path}
    {file : FileObject} : below tree name kind root = some file ↔
      tree.isFile (root.join (relativePath name kind)) = true ∧
        file = { kind, path := root.join (relativePath name kind), root } := by
  unfold below
  by_cases there : tree.isFile (root.join (relativePath name kind)) = true
  · rw [if_pos there, Option.some.injEq, eq_comm]
    simp only [there, true_and]
  · simp [there]

/-- A file is found where it was found without the directories put in between, or in one of them,
and that only if it was found behind them. The directory where it was found may have been left out
as the same as one of them; then it is found from that, unless this is written too long. -/
theorem input_inserted {files : StandardFiles} {name : String} {kind : ArtifactKind}
    {file : FileObject} (paths : List Path) (whole : files.classPath = front ++ back)
    (found : files.input .classPath name kind = some file) :
    let merged := { files with classPath := inserted front back paths }
    merged.input .classPath name kind = some file ∨
      file.root ∈ back ∧ ∃ entry ∈ additions front paths,
        merged.input .classPath name kind =
            some { kind, path := entry.join (relativePath name kind), root := entry } ∨
          entry.same file.root = true ∧
            FileTree.isShort (entry.join (relativePath name kind)) = false := by
  intro merged
  have searched (roots : List Path) :
      ({ files with classPath := roots } : StandardFiles).input .classPath name kind =
        roots.findSome? (below files.tree name kind) := rfl
  have before : (front ++ back).findSome? (below files.tree name kind) = some file := by
    rw [← whole, ← searched, ← found]
  rw [searched, inserted]
  rw [List.findSome?_append] at before
  rw [List.append_assoc, List.findSome?_append, List.findSome?_append]
  cases early : front.findSome? (below files.tree name kind) with
  | some first =>
      rw [early] at before
      exact .inl before
  | none =>
      rw [early, Option.none_or] at before
      rw [Option.none_or]
      obtain ⟨root, inside, late⟩ := List.exists_of_findSome?_eq_some before
      obtain ⟨there, rfl⟩ := below_eq_some.mp late
      cases between : (additions front paths).findSome? (below files.tree name kind) with
      | some other =>
          obtain ⟨entry, member, given⟩ := List.exists_of_findSome?_eq_some between
          obtain ⟨-, rfl⟩ := below_eq_some.mp given
          exact .inr ⟨inside, entry, member, .inl rfl⟩
      | none =>
          rw [Option.none_or]
          rcases findSome?_filter (p := fun entry => !covers (additions front paths) entry) before
            with kept | ⟨other, -, left, same_file⟩
          · exact .inl kept
          · -- The directory is left out, and the file is not found from what it is the same as.
            obtain ⟨-, same_root⟩ := below_eq_some.mp same_file
            obtain rfl : root = other := congrArg FileObject.root same_root
            have has : covers (additions front paths) root = true := by simpa using left
            obtain ⟨entry, member, same⟩ := List.any_eq_true.mp has
            refine .inr ⟨inside, entry, member, .inr ⟨same, ?_⟩⟩
            rw [← Bool.not_eq_true]
            intro short
            have found := files.tree.isFile_join same short there
            have missing := List.findSome?_eq_none_iff.mp between entry member
            rw [below, if_pos found] at missing
            cases missing

end StandardFiles

end UnitForge
