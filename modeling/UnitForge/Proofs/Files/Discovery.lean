import UnitForge.Proofs.Files.Listing
import UnitForge.Proofs.Files.Untouched

/-! # Class paths and what they hold

The roots of a class path come from options, in which an empty entry does not count. Whatever
options a manager was given, `listing_agrees`: its listing of a package and its lookup of a unit
there find the same, and the lookup takes the first root that has the unit. -/
set_option autoImplicit false
namespace UnitForge

theorem findSome?_congr {α β : Type} {items : List α} {f g : α → Option β}
    (same : ∀ item ∈ items, f item = g item) : items.findSome? f = items.findSome? g := by
  induction items with
  | nil => rfl
  | cons item rest ih =>
      rw [List.findSome?_cons, List.findSome?_cons, same item List.mem_cons_self,
        ih fun other later => same other (List.mem_cons_of_mem _ later)]

namespace StandardFiles

open Name

variable {files : StandardFiles} {package simple : String}

def handed (tree : FileTree) (options : List (String × List String)) : StandardFiles :=
  options.foldl (fun files (option, values) => (handleOption option values files).2) (ofTree tree)

def Rooted (files : StandardFiles) : Prop :=
  ∀ root ∈ files.classPath, root.text ≠ ""

theorem rooted_addEntry {classPath : List Path} (rooted : ∀ root ∈ classPath, root.text ≠ "")
    {entries : List Path} (some_text : ∀ entry ∈ entries, entry.text ≠ "") :
    ∀ root ∈ entries.foldl addEntry classPath, root.text ≠ "" := by
  induction entries generalizing classPath with
  | nil => exact rooted
  | cons entry rest ih =>
      refine ih (fun root member => ?_) fun other later =>
        some_text other (List.mem_cons_of_mem _ later)
      unfold addEntry at member
      split at member
      · exact rooted root member
      · rcases List.mem_append.mp member with old | new
        · exact rooted root old
        · rw [List.mem_singleton.mp new]
          exact some_text entry List.mem_cons_self

theorem rooted_handleOption (rooted : files.Rooted) (option : String) (values : List String) :
    (handleOption option values files).2.Rooted := by
  unfold handleOption
  cases values with
  | nil => exact rooted
  | cons value _ =>
      dsimp only
      split
      · apply rooted_addEntry rooted
        intro entry member
        obtain ⟨text, known, rfl⟩ := List.mem_map.mp member
        simpa using (List.mem_filter.mp known).2
      · split
        · exact rooted
        · exact rooted

theorem rooted_handed (tree : FileTree) (options : List (String × List String)) :
    (handed tree options).Rooted := by
  apply List.foldlRecOn options _ (fun _ member => nomatch member)
  intro files rooted _ _
  exact rooted_handleOption rooted _ _

theorem tree_handed (tree : FileTree) (options : List (String × List String)) :
    (handed tree options).tree = tree := by
  apply List.foldlRecOn (motive := fun files : StandardFiles => files.tree = tree) options _ rfl
  intro files same _ _
  exact (handleOption_sameTree _ _ _).trans same

structure ListingAgrees (files : StandardFiles) (package simple : String) : Prop where
  /-- Listing reads the directories of the package, and a lookup does not. -/
  lists : (∃ listed, files.list .classPath package [.unit] false = .ok listed) ↔
    ∀ root ∈ files.classPath, files.tree.Readable (packageDir root package)
  names : ∀ listed, files.list .classPath package [.unit] false = .ok listed →
    (qualify package simple ∈ listed.filterMap (files.inferName? .classPath) ↔
      (files.input .classPath (qualify package simple) .unit).isSome = true ∨
        HasStray files package simple)
  /-- Without strays the lookup finds the listed file of that name below the first root that has
  one. -/
  first : ∀ listed, files.list .classPath package [.unit] false = .ok listed →
    ¬HasStray files package simple →
      files.input .classPath (qualify package simple) .unit =
        files.classPath.findSome? fun root =>
          (listed.filter (files.inferName? .classPath · = some (qualify package simple))).find?
            (·.root = root)

/-- Listing a package and looking up a unit agree except for strays, whatever directories the class
path has been given. A package can be listed if its directories can be read, which a lookup does not
ask for. Then the names that the listed files are taken for have a unit's full name among them
exactly if the lookup of that name finds a file or there is a stray in its place. -/
theorem listing_agrees {tree : FileTree} (stored : tree.Stored)
    (options : List (String × List String)) (valid : IsPackage package)
    (formed : Text.isIdentifier simple = true) :
    ListingAgrees (handed tree options) package simple := by
  have stored : (handed tree options).tree.Stored := by
    rw [tree_handed]
    exact stored
  have rooted := rooted_handed tree options
  generalize handed tree options = files at stored rooted
  have some_text (root : Path) (known : root ∈ files.roots .classPath) :
      (packageDir root package).text ≠ "" :=
    packageDir_text (.inr (rooted root known))
  refine ⟨exists_list_iff, ?_, ?_⟩
  · intro listed run
    rw [List.mem_filterMap]
    exact listed_iff_found valid formed stored run some_text
  · intro listed run regular
    rw [input_unit]
    apply findSome?_congr
    intro root known
    have alone : ¬files.tree.Stray (packageDir root package)
        (simple ++ ArtifactKind.unit.extension) :=
      fun stray => regular ⟨root, known, stray⟩
    exact (find?_listed valid formed stored run (some_text root known) known alone).symm

/-- Two roots, a file in place of a third one, and a missing fourth one; the first root has a
directory of the name that the file of the unit has below the second one. Below the first root there
is a socket, too, and what is in the sealed directory cannot be listed. -/
def layered : FileTree where
  entries := [(["work"], .directory), (["work", "first"], .directory),
    (["work", "first", "geo"], .directory), (["work", "first", "geo", "Point.unit"], .directory),
    (["work", "first", "geo", "notes.txt"], .file []),
    (["work", "first", "geo", "Line.unit"], .special), (["work", "second"], .directory),
    (["work", "second", "geo"], .directory), (["work", "second", "geo", "Point.unit"], .file []),
    (["work", "third"], .file []), (["work", "fourth"], .directory),
    (["work", "fourth", "geo"], .directory), (["work", "fourth", "geo", "Point.unit"], .file [])]
  workingDirectory := ["work"]
  sealed := [["work", "fourth", "geo"]]

/-- A unit is listed and found below the second root. Below the first one a socket is listed that is
not found, and a file below the sealed directory is found while nothing can be listed there. -/
theorem listing_agrees_layered :
    layered.Stored ∧ IsPackage "geo" ∧ Text.isIdentifier "Point" = true ∧
    (let files := handed layered [("-cp", ["third:first:gone"]), ("--class-path", ["second"])]
    files.classPath = [⟨"third"⟩, ⟨"first"⟩, ⟨"gone"⟩, ⟨"second"⟩] ∧
      files.input .classPath "geo.Point" .unit =
        some { kind := .unit, path := ⟨"second/geo/Point.unit"⟩, root := ⟨"second"⟩ } ∧
      files.input .classPath "geo.Line" .unit = none ∧
      ∃ listed, files.list .classPath "geo" [.unit] false = .ok listed ∧
        "geo.Point" ∈ listed.filterMap (files.inferName? .classPath) ∧
        "geo.Line" ∈ listed.filterMap (files.inferName? .classPath)) ∧
    let files := handed layered [("-cp", ["fourth"])]
    (files.input .classPath "geo.Point" .unit).isSome = true ∧
      ¬∃ listed, files.list .classPath "geo" [.unit] false = .ok listed := by
  have stored : layered.Stored := by decide +kernel
  have valid : IsPackage "geo" := .inr (by decide +kernel)
  have point : Text.isIdentifier "Point" = true := by decide +kernel
  have line : Text.isIdentifier "Line" = true := by decide +kernel
  let options := [("-cp", ["third:first:gone"]), ("--class-path", ["second"])]
  have agrees := listing_agrees stored options valid point
  have stray : HasStray (handed layered options) "geo" "Line" :=
    ⟨⟨"first"⟩, by decide +kernel, by decide +kernel, .special, by decide +kernel, .inl rfl⟩
  obtain ⟨listed, run⟩ := agrees.lists.mpr (by decide +kernel)
  have named := (agrees.names listed run).mpr (.inl (by decide +kernel))
  have other := ((listing_agrees stored options valid line).names listed run).mpr (.inr stray)
  refine ⟨stored, valid, point, ⟨by decide +kernel, by decide +kernel, by decide +kernel, listed,
    run, named, other⟩, by decide +kernel, ?_⟩
  rw [(listing_agrees stored [("-cp", ["fourth"])] valid point).lists]
  decide +kernel

end StandardFiles

end UnitForge
