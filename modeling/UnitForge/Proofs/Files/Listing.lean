import UnitForge.Proofs.Files.Entries
import UnitForge.Proofs.Files.NamePaths
import UnitForge.Text.Identifier
import Mathlib.Data.Option.Basic

/-! # Listing packages and looking up units

A package is listed by the names of what is in its directory; a unit is looked up by the path that
its name is written as. Both lead to the same entries: below a root, an entry of the package is taken
for a unit of some name exactly if it is the one that a lookup of that name probes there. But a
listing counts whatever is no directory, and a lookup nothing but files. -/
set_option autoImplicit false
namespace UnitForge

/-! ## Names of listed files -/

namespace Name

variable {package simple : String}

/-- A dotted sequence of identifiers, or nothing at all. -/
def IsPackage (package : String) : Prop :=
  package = "" ∨ ∀ segment ∈ segments package, Text.isIdentifier segment = true

def front (package : String) : String :=
  if package.isEmpty then "" else package ++ "."

theorem qualify_eq (package simple : String) :
    qualify package simple = front package ++ simple := by
  unfold qualify front
  split <;> simp

theorem front_cases (valid : IsPackage package) : package = "" ∧ front package = "" ∨
    front package = package ++ "." ∧ ∀ segment ∈ segments package,
      Text.isIdentifier segment = true := by
  by_cases empty : package = ""
  · exact .inl ⟨empty, by simp [front, empty]⟩
  · exact .inr ⟨by simp [front, empty], valid.resolve_left empty⟩

theorem proper_of_identifiers (valid : ∀ segment ∈ segments package,
    Text.isIdentifier segment = true) : Proper package := by
  intro segment member
  have formed := valid segment member
  refine ⟨?_, Text.not_mem_of_isIdentifier formed (by decide) (by decide)⟩
  rintro rfl
  exact absurd formed (by decide)

theorem toPathText_append (first second : String) :
    toPathText (first ++ second) = toPathText first ++ toPathText second := by
  rw [← String.toList_inj]
  simp only [toList_toPathText, String.toList_append, List.map_append]

theorem toPathText_of_free (free : '.' ∉ simple.toList) : toPathText simple = simple := by
  rw [← String.toList_inj, toList_toPathText]
  refine (List.map_congr_left fun c member => if_neg ?_).trans (List.map_id _)
  rintro rfl
  exact free member

def ofPathText (text : String) : String :=
  Text.replaceChar '\\' "." (Text.replaceChar '/' "." text)

theorem toList_ofPathText (text : String) : (ofPathText text).toList =
    text.toList.map fun c => if c = '/' ∨ c = '\\' then '.' else c := by
  simp only [ofPathText, Text.replaceChar, String.toList_ofList]
  induction text.toList with
  | nil => rfl
  | cons c rest ih =>
      rw [List.flatMap_cons, List.flatMap_append, ih, List.map_cons]
      by_cases slash : c = '/'
      · simp [slash]
      · by_cases back : c = '\\' <;> simp [slash, back]

theorem ofPathText_append (first second : String) :
    ofPathText (first ++ second) = ofPathText first ++ ofPathText second := by
  rw [← String.toList_inj]
  simp only [toList_ofPathText, String.toList_append, List.map_append]

theorem ofPathText_eq_iff (formed : Text.isIdentifier simple = true) {text : String} :
    ofPathText text = simple ↔ text = simple := by
  have free (c : Char) (separates : c = '.' ∨ c = '/' ∨ c = '\\') : c ∉ simple.toList := by
    rcases separates with rfl | rfl | rfl <;>
      exact Text.not_mem_of_isIdentifier formed (by decide) (by decide)
  have kept {text : String} (plain : ∀ c ∈ text.toList, ¬(c = '/' ∨ c = '\\')) :
      ofPathText text = text := by
    rw [← String.toList_inj, toList_ofPathText]
    exact (List.map_congr_left fun c member => if_neg (plain c member)).trans (List.map_id _)
  constructor
  · rintro rfl
    refine (kept ?_).symm
    intro c member separates
    apply free '.' (.inl rfl)
    rw [toList_ofPathText]
    exact List.mem_map.mpr ⟨c, member, if_pos separates⟩
  · rintro rfl
    exact kept fun c member separates => free c (.inr separates) member

theorem ofPathText_front (valid : IsPackage package) :
    ofPathText (toPathText (front package)) = front package := by
  rcases front_cases valid with ⟨-, same⟩ | ⟨same, formed⟩
  · rw [same]
    rfl
  · have dots (c : Char) (member : c ∈ (front package).toList) (other : c ≠ '.') :
        ¬(c = '/' ∨ c = '\\') := by
      rw [same, String.toList_append] at member
      have inside : c ∈ package.toList := by simpa [other] using member
      obtain ⟨segment, known, there⟩ := Text.exists_mem_splitOn inside other
      rintro (rfl | rfl) <;>
        exact Text.not_mem_of_isIdentifier (formed segment known) (by decide) (by decide) there
    rw [← String.toList_inj, toList_ofPathText, toList_toPathText, List.map_map]
    refine (List.map_congr_left ?_).trans (List.map_id _)
    intro c member
    by_cases dot : c = '.'
    · simp [dot]
    · simp [dot, dots c member dot]

end Name

namespace ArtifactKind

theorem ofFileName_eq_unit {name : String} :
    ofFileName name = .unit ↔ ∃ stem, name = stem ++ unit.extension := by
  simp only [ofFileName, Text.endsWith, List.isSuffixOf_iff_suffix]
  constructor
  · intro same
    split at same
    · cases same
    · split at same
      · rename_i ends
        obtain ⟨stem, whole⟩ := ends
        exact ⟨String.ofList stem, by rw [← String.toList_inj, ← whole]; simp⟩
      · cases same
  · rintro ⟨stem, rfl⟩
    have ends : unit.extension.toList <:+ (stem ++ unit.extension).toList := by
      rw [String.toList_append]
      exact List.suffix_append _ _
    have other : ¬source.extension.toList <:+ (stem ++ unit.extension).toList := by
      intro starts
      have last := starts.getLast (by decide)
      simp [extension] at last
    rw [if_neg other, if_pos ends]

end ArtifactKind

namespace StandardFiles

open FileTree Name

variable {tree : FileTree} {files : StandardFiles} {root : Path} {package simple : String}
  {kinds : List ArtifactKind} {location : Location} {file : FileObject}

/-- The entries of a directory itself, each under its name. -/
theorem exists_filesIn {depth : Nat} {directory : Path}
    (there : tree.isDirectory directory = true) (readable : tree.Readable directory) :
    ∃ found, filesIn tree root kinds false (depth + 1) directory = .ok found ∧
      ∀ file, file ∈ found ↔ ∃ name, tree.Lists directory name ∧
        ArtifactKind.ofFileName name ∈ kinds ∧
        file = { kind := .ofFileName name, path := directory.join ⟨name⟩, root } := by
  let entry (name : String) : List FileObject :=
    if tree.isDirectory (directory.join ⟨name⟩) then []
    else if kinds.contains (ArtifactKind.ofFileName name) then
      [{ kind := .ofFileName name, path := directory.join ⟨name⟩, root }]
    else []
  have read := readDirectory_of_readable there readable
  have each : (tree.names (tree.place directory)).mapM (fun name =>
      if tree.isDirectory (directory.join ⟨name⟩) then
        if false then filesIn tree root kinds false depth (directory.join ⟨name⟩) else .ok []
      else
        .ok (if kinds.contains (ArtifactKind.ofFileName name) then
          [{ kind := .ofFileName name, path := directory.join ⟨name⟩, root }] else [])) =
      (.ok ((tree.names (tree.place directory)).map entry) :
        Except FileFault (List (List FileObject))) := by
    induction tree.names (tree.place directory) with
    | nil => rfl
    | cons name rest ih =>
        rw [List.mapM_cons, ih]
        by_cases deeper : tree.isDirectory (directory.join ⟨name⟩) = true
        · simp only [entry, deeper, if_true, List.map_cons]
          rfl
        · simp only [entry, deeper, List.map_cons]
          rfl
  refine ⟨_, Step.ok_bind_iff.mpr ⟨_, read, Step.ok_bind_iff.mpr ⟨_, each, rfl⟩⟩, ?_⟩
  intro file
  rw [← List.flatMap_def, List.mem_flatMap]
  apply exists_congr
  intro name
  rw [mem_names_iff, FileTree.Lists]
  by_cases deeper : tree.isDirectory (directory.join ⟨name⟩) = true
  · simp [entry, deeper]
  · by_cases known : ArtifactKind.ofFileName name ∈ kinds <;> simp [entry, deeper, known, there]

theorem exists_filesBelowRoot (readable : tree.Readable (packageDir root package)) :
    ∃ found, filesBelowRoot tree package kinds false root = .ok found ∧
      ∀ file, file ∈ found ↔ ∃ name, tree.Lists (packageDir root package) name ∧
        ArtifactKind.ofFileName name ∈ kinds ∧
        file =
          { kind := .ofFileName name, path := (packageDir root package).join ⟨name⟩, root } := by
  unfold filesBelowRoot
  by_cases there : tree.isDirectory (packageDir root package) = true
  · simp only [there, if_true]
    exact exists_filesIn there readable
  · refine ⟨[], by simp [there], ?_⟩
    intro file
    constructor
    · intro member
      cases member
    · rintro ⟨name, ⟨listed, -⟩, -⟩
      exact absurd listed there

theorem filesBelowRoot_sealed (closed : ¬tree.Readable (packageDir root package)) :
    filesBelowRoot tree package kinds false root = .error .unreadable := by
  have there : tree.isDirectory (packageDir root package) = true := by
    by_contra none
    exact closed fun there => absurd there none
  unfold filesBelowRoot
  simp only [there, if_true, filesIn, readDirectory_of_sealed there closed]
  rfl

/-- A package can be listed if and only if its directory can be read wherever it is there. -/
theorem exists_list_iff : (∃ found, files.list location package kinds false = .ok found) ↔
    ∀ root ∈ files.roots location, files.tree.Readable (packageDir root package) := by
  constructor
  · rintro ⟨found, run⟩ root known
    obtain ⟨lists, each, -⟩ := Step.ok_bind_iff.mp run
    obtain ⟨inner, -, below⟩ := (Step.mapM_ok each).2 root known
    by_contra closed
    rw [filesBelowRoot_sealed closed] at below
    cases below
  · intro readable
    have each (root : Path) (known : root ∈ files.roots location) :
        ∃ inner, filesBelowRoot files.tree package kinds false root = .ok inner := by
      obtain ⟨inner, below, -⟩ := exists_filesBelowRoot (readable root known)
      exact ⟨inner, below⟩
    obtain ⟨lists, each⟩ := Step.exists_mapM_ok each
    exact ⟨_, Step.ok_bind_iff.mpr ⟨lists, each, rfl⟩⟩

theorem mem_list {found : List FileObject}
    (run : files.list location package kinds false = .ok found) :
    file ∈ found ↔ ∃ root ∈ files.roots location, ∃ name,
      files.tree.Lists (packageDir root package) name ∧ ArtifactKind.ofFileName name ∈ kinds ∧
      file = { kind := .ofFileName name, path := (packageDir root package).join ⟨name⟩, root } := by
  have readable := exists_list_iff.mp ⟨found, run⟩
  obtain ⟨lists, each, same⟩ := Step.ok_bind_iff.mp run
  obtain ⟨back, forth⟩ := Step.mapM_ok each
  cases same
  rw [List.mem_mergeSort, List.mem_flatten]
  constructor
  · rintro ⟨inner, inside, member⟩
    obtain ⟨root, known, below⟩ := back inner inside
    obtain ⟨found, here, entries⟩ := exists_filesBelowRoot (readable root known)
    cases below.symm.trans here
    exact ⟨root, known, (entries file).mp member⟩
  · rintro ⟨root, known, entry⟩
    obtain ⟨inner, inside, below⟩ := forth root known
    obtain ⟨found, here, entries⟩ := exists_filesBelowRoot (readable root known)
    cases below.symm.trans here
    exact ⟨inner, inside, (entries file).mpr entry⟩

def probed (root : Path) (name : String) : FileObject where
  kind := .unit
  path := root.join (relativePath name .unit)
  root := root

/-- Below some root there is an entry in the place of a unit that is listed and not found. -/
def HasStray (files : StandardFiles) (package simple : String) : Prop :=
  ∃ root ∈ files.classPath,
    files.tree.Stray (packageDir root package) (simple ++ ArtifactKind.unit.extension)

theorem input_unit (name : String) : files.input location name .unit =
    (files.roots location).findSome? fun root =>
      if files.tree.isFile (probed root name).path then some (probed root name) else none :=
  rfl

theorem packageDir_text (some_text : package ≠ "" ∨ root.text ≠ "") :
    (packageDir root package).text ≠ "" := by
  unfold packageDir
  by_cases empty : package = ""
  · subst empty
    exact some_text.resolve_left (· rfl)
  · have nonempty : package.isEmpty = false := by simpa using empty
    have whole : toPathText package ≠ "" := by
      rw [Ne, ← String.toList_eq_nil_iff, toList_toPathText]
      simpa using empty
    rw [nonempty, if_neg Bool.false_ne_true, Path.join]
    split
    · exact whole
    · split <;> simp [whole]

section Package
variable (valid : IsPackage package)
include valid

theorem pieces_entry {name : String} (named : IsName name) :
    ∀ piece ∈ (Path.mk (toPathText (front package) ++ name)).pieces, IsName piece := by
  rcases front_cases valid with ⟨-, same⟩ | ⟨same, formed⟩
  · have text : toPathText (front package) ++ name = name := by
      rw [same]
      exact String.empty_append
    rw [text, pieces_of_name named]
    simpa using named
  · have proper := proper_of_identifiers formed
    have slash : toPathText "." = String.singleton '/' := by decide
    have pieces : (Path.mk (toPathText (front package) ++ name)).pieces =
        segments package ++ [name] := by
      rw [same, toPathText_append, slash, Path.pieces, Text.splitOn_join,
        splitOn_toPathText proper, Text.splitOn_of_not_mem named.2.2]
    rw [pieces]
    intro piece member
    rcases List.mem_append.mp member with front | last
    · simpa using isName_segment proper front "" (by simp)
    · rw [List.mem_singleton.mp last]
      exact named

theorem join_packageDir (root : Path) {name : String} (named : IsName name) :
    (packageDir root package).join ⟨name⟩ = root.join ⟨toPathText (front package) ++ name⟩ := by
  rcases front_cases valid with ⟨rfl, same⟩ | ⟨same, formed⟩
  · have text : toPathText (front "") ++ name = name := by
      rw [same]
      exact String.empty_append
    rw [text]
    rfl
  · have some_text : package.isEmpty = false := by
      rw [← Bool.not_eq_true, String.isEmpty_iff]
      rintro rfl
      simp [front] at same
    have proper := proper_of_identifiers formed
    have pieces : ∀ piece ∈ (Path.mk (toPathText package)).pieces, IsName piece := by
      rw [Path.pieces, splitOn_toPathText proper]
      intro segment member
      simpa using isName_segment proper member "" (by simp)
    have relative : (Path.mk name).isAbsolute = false :=
      Path.relative_of_names (by simpa [pieces_of_name named] using named)
    have slash : toPathText "." = "/" := by decide
    rw [packageDir, some_text, if_neg Bool.false_ne_true, Path.join_join root pieces relative, same,
      toPathText_append, slash]

theorem inferName?_entry (known : root ∈ files.roots location) {stem : String}
    (named : IsName (stem ++ ArtifactKind.unit.extension)) :
    files.inferName? location
      { kind := .unit, path := (packageDir root package).join ⟨stem ++ ArtifactKind.unit.extension⟩,
        root } = some (front package ++ ofPathText stem) := by
  have rooted : (files.roots location).any (·.same root) = true :=
    List.any_eq_true.mpr ⟨root, known, decide_eq_true rfl⟩
  have stripped : Text.stripSuffix? ArtifactKind.unit.extension
      (toPathText (front package) ++ (stem ++ ArtifactKind.unit.extension)) =
      some (toPathText (front package) ++ stem) := by
    rw [← String.append_assoc]
    exact Text.stripSuffix?_append _ _
  have read : ofPathText (toPathText (front package) ++ stem) =
      front package ++ ofPathText stem := by
    rw [ofPathText_append, ofPathText_front valid]
  unfold inferName?
  simp only [rooted, join_packageDir valid root named,
    Path.stripBase?_join root (pieces_entry valid named), Option.bind_eq_bind, Option.bind_some,
    stripped]
  exact congrArg some read

variable (formed : Text.isIdentifier simple = true)
include formed

omit valid in
theorem isName_unitFile : IsName (simple ++ ArtifactKind.unit.extension) := by
  have dot : '.' ∉ simple.toList :=
    Text.not_mem_of_isIdentifier formed (by decide) (by decide)
  have alone : segments simple = [simple] := Text.splitOn_of_not_mem dot
  have proper : Proper simple := proper_of_identifiers (by simpa [alone] using formed)
  exact isName_segment proper (by simp [alone]) _ (by decide)

theorem join_relativePath (root : Path) : root.join (relativePath (qualify package simple) .unit) =
    (packageDir root package).join ⟨simple ++ ArtifactKind.unit.extension⟩ := by
  have dot : '.' ∉ simple.toList :=
    Text.not_mem_of_isIdentifier formed (by decide) (by decide)
  rw [join_packageDir valid root (isName_unitFile formed), relativePath, qualify_eq,
    toPathText_append, toPathText_of_free dot, String.append_assoc]

/-- The file that is taken for a unit of a package below a root is the one that a lookup of the unit
probes there, whether or not that is found. -/
theorem named_entry_iff (stored : files.tree.Stored) (known : root ∈ files.roots location) :
    (∃ name, files.tree.Lists (packageDir root package) name ∧
        ArtifactKind.ofFileName name ∈ [ArtifactKind.unit] ∧
        file =
          { kind := .ofFileName name, path := (packageDir root package).join ⟨name⟩, root }) ∧
        files.inferName? location file = some (qualify package simple) ↔
      files.tree.Lists (packageDir root package) (simple ++ ArtifactKind.unit.extension) ∧
        file = probed root (qualify package simple) := by
  have named := isName_unitFile formed
  rw [probed, join_relativePath valid formed root]
  constructor
  · rintro ⟨⟨name, listed, isUnit, rfl⟩, inferred⟩
    have kind : ArtifactKind.ofFileName name = .unit := List.mem_singleton.mp isUnit
    obtain ⟨stem, rfl⟩ := ArtifactKind.ofFileName_eq_unit.mp kind
    obtain ⟨proper, -⟩ := stored.named listed.2.1
    rw [kind, inferName?_entry valid known proper, qualify_eq] at inferred
    have read : ofPathText stem = simple :=
      (String.append_right_inj _).mp (Option.some.inj inferred)
    obtain rfl : stem = simple := (ofPathText_eq_iff formed).mp read
    exact ⟨listed, by rw [kind]⟩
  · rintro ⟨listed, rfl⟩
    have kind : ArtifactKind.ofFileName (simple ++ ArtifactKind.unit.extension) = .unit :=
      ArtifactKind.ofFileName_eq_unit.mpr ⟨simple, rfl⟩
    have read : ofPathText simple = simple := (ofPathText_eq_iff formed).mpr rfl
    refine ⟨⟨_, listed, by simp [kind], by rw [kind]⟩, ?_⟩
    rw [inferName?_entry valid known named, read, qualify_eq]

section Listed
variable (stored : files.tree.Stored) {found : List FileObject}
  (run : files.list location package [.unit] false = .ok found)
include stored run

theorem mem_list_named (known : root ∈ files.roots location) :
    (file ∈ found ∧ files.inferName? location file = some (qualify package simple)) ∧
        file.root = root ↔
      files.tree.Lists (packageDir root package) (simple ++ ArtifactKind.unit.extension) ∧
        file = probed root (qualify package simple) := by
  rw [← named_entry_iff valid formed stored known, mem_list run]
  constructor
  · rintro ⟨⟨⟨other, -, name, listed, isUnit, rfl⟩, inferred⟩, rfl⟩
    exact ⟨⟨name, listed, isUnit, rfl⟩, inferred⟩
  · rintro ⟨⟨name, listed, isUnit, rfl⟩, inferred⟩
    exact ⟨⟨⟨root, known, name, listed, isUnit, rfl⟩, inferred⟩, rfl⟩

/-- A package lists a unit if a lookup finds it, or if there is something else in its place. -/
theorem listed_iff_found
    (some_text : ∀ root ∈ files.roots location, (packageDir root package).text ≠ "") :
    (∃ file ∈ found, files.inferName? location file = some (qualify package simple)) ↔
      (files.input location (qualify package simple) .unit).isSome = true ∨
        ∃ root ∈ files.roots location,
          files.tree.Stray (packageDir root package) (simple ++ ArtifactKind.unit.extension) := by
  have entry (root : Path) (known : root ∈ files.roots location) :=
    lists_iff stored (some_text root known) (isName_unitFile formed)
  rw [input, List.findSome?_isSome_iff]
  constructor
  · rintro ⟨file, member, inferred⟩
    obtain ⟨root, known, name, listed, isUnit, rfl⟩ := (mem_list run).mp member
    obtain ⟨listed, -⟩ := (named_entry_iff valid formed stored known).mp
      ⟨⟨name, listed, isUnit, rfl⟩, inferred⟩
    rcases (entry root known).mp listed with there | stray
    · rw [← join_relativePath valid formed root] at there
      exact .inl ⟨root, known, by simp [there]⟩
    · exact .inr ⟨root, known, stray⟩
  · have listed (root : Path) (known : root ∈ files.roots location)
        (here : files.tree.Lists (packageDir root package)
          (simple ++ ArtifactKind.unit.extension)) :
        ∃ file ∈ found, files.inferName? location file = some (qualify package simple) := by
      obtain ⟨member, -⟩ := (mem_list_named valid formed stored run known).mpr ⟨here, rfl⟩
      exact ⟨_, member.1, member.2⟩
    rintro (⟨root, known, there⟩ | ⟨root, known, stray⟩)
    · refine listed root known ((entry root known).mpr (.inl ?_))
      rw [← join_relativePath valid formed root]
      by_contra missing
      simp [missing] at there
    · exact listed root known ((entry root known).mpr (.inr stray))

/-- Among the listed files of a root, the one of a name is the one that a lookup probes there. -/
theorem find?_listed (some_text : (packageDir root package).text ≠ "")
    (known : root ∈ files.roots location)
    (regular : ¬files.tree.Stray (packageDir root package)
      (simple ++ ArtifactKind.unit.extension)) :
    (found.filter (files.inferName? location · = some (qualify package simple))).find?
        (·.root = root) =
      if files.tree.isFile (probed root (qualify package simple)).path then
        some (probed root (qualify package simple))
      else none := by
  have listed_iff (file : FileObject) :
      (file ∈ found ∧ files.inferName? location file = some (qualify package simple)) ∧
          file.root = root ↔
        files.tree.isFile (probed root (qualify package simple)).path = true ∧
          file = probed root (qualify package simple) := by
    have path : (probed root (qualify package simple)).path =
        (packageDir root package).join ⟨simple ++ ArtifactKind.unit.extension⟩ := by
      rw [probed, join_relativePath valid formed root]
    rw [mem_list_named valid formed stored run known, path,
      lists_iff stored some_text (isName_unitFile formed), or_iff_left regular]
  rcases first : List.find? _ _ with _ | file
  · rw [List.find?_eq_none] at first
    refine (if_neg ?_).symm
    intro there
    obtain ⟨⟨member, inferred⟩, same⟩ := (listed_iff _).mpr ⟨there, rfl⟩
    exact first _ (List.mem_filter.mpr ⟨member, decide_eq_true inferred⟩) (decide_eq_true same)
  · obtain ⟨member, inferred⟩ := List.mem_filter.mp (List.mem_of_find?_eq_some first)
    have same : file.root = root := by simpa using List.find?_some first
    obtain ⟨there, rfl⟩ := (listed_iff file).mp ⟨⟨member, of_decide_eq_true inferred⟩, same⟩
    rw [if_pos there]

end Listed

end Package

end StandardFiles

end UnitForge
