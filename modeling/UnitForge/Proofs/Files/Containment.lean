import UnitForge.Files.Standard
import UnitForge.Loading.World
import UnitForge.Proofs.Files.Following
import UnitForge.Proofs.Steps

/-! # Where lookups lead

The path of a package or of the file of a unit is joined to a root. As dots become slashes, no step
of it leads up, and so it leads to a place under the root: unless it starts with a slash itself,
because the name starts with a dot or a slash. Then it is a path from the root of the tree, and the
root that it was joined to does not matter. -/
set_option autoImplicit false
namespace UnitForge

/-! ## Names as paths -/

namespace Text

theorem sublist_of_mem_splitOn {separator : Char} {piece s : String}
    (member : piece ∈ splitOn separator s) : piece.toList.Sublist s.toList := by
  have inside (cs : List Char) : ∀ stretch ∈ stretches separator cs, stretch.Sublist cs := by
    induction cs with
    | nil => simp [stretches]
    | cons c rest ih =>
        rw [stretches]
        split
        · intro stretch member
          rcases List.mem_cons.mp member with rfl | later
          · exact List.nil_sublist _
          · exact (ih stretch later).cons c
        · cases pieces : stretches separator rest with
          | nil => exact absurd pieces (stretches_ne_nil separator rest)
          | cons first others =>
              rw [pieces] at ih
              intro stretch member
              rcases List.mem_cons.mp member with rfl | later
              · exact (ih first List.mem_cons_self).cons_cons c
              · exact (ih stretch (List.mem_cons_of_mem _ later)).cons c
  obtain ⟨stretch, known, rfl⟩ := List.mem_map.mp member
  simpa using inside s.toList stretch known

end Text

namespace Name

/-- Whether a name is taken for a path from the root of the tree. -/
def isRooted (name : String) : Bool :=
  name.toList.head? = some '.' || name.toList.head? = some '/'

theorem toList_toPathText (name : String) :
    (toPathText name).toList = name.toList.map fun c => if c = '.' then '/' else c := by
  simp only [toPathText, Text.replaceChar, String.toList_ofList]
  induction name.toList with
  | nil => rfl
  | cons c rest ih =>
      rw [List.flatMap_cons, ih]
      by_cases dot : c = '.' <;> simp [dot]

theorem count_dot_toPathText (name : String) : (toPathText name).toList.count '.' = 0 := by
  rw [toList_toPathText, List.count_eq_zero]
  intro member
  obtain ⟨c, -, same⟩ := List.mem_map.mp member
  split at same
  · cases same
  · rename_i other
    exact other same

theorem isAbsolute_toPathText (ending : String) (tail : ending.toList.head? ≠ some '/')
    (name : String) : (Path.mk (toPathText name ++ ending)).isAbsolute = isRooted name := by
  unfold Path.isAbsolute isRooted
  rw [String.toList_append, toList_toPathText]
  cases name.toList with
  | nil => simpa using tail
  | cons c rest => by_cases dot : c = '.' <;> simp [dot]

/-- No step of a path that a name is written as leads up. -/
theorem up_not_mem_pieces (ending : String) (one : ending.toList.count '.' ≤ 1) (name : String) :
    ".." ∉ (Path.mk (toPathText name ++ ending)).pieces := by
  intro member
  have count := (Text.sublist_of_mem_splitOn member).count_le '.'
  rw [String.toList_append, List.count_append, count_dot_toPathText] at count
  have two : "..".toList.count '.' = 2 := by decide
  omega

end Name

/-! ## Directories and what is under them -/

namespace FileTree

/-- A path that leads under a directory, by its components and by the place where it leads. -/
structure Contains (tree : FileTree) (root path : Path) : Prop where
  under : path.liesUnder root = true
  place : tree.place root <+: tree.place path

variable {tree : FileTree} {root path : Path}

theorem Contains.refl (tree : FileTree) (path : Path) : tree.Contains path path where
  under := List.isPrefixOf_iff_prefix.mpr List.prefix_rfl
  place := List.prefix_rfl

theorem Contains.trans {middle : Path} (h : tree.Contains root middle)
    (k : tree.Contains middle path) : tree.Contains root path where
  under := List.isPrefixOf_iff_prefix.mpr
    ((List.isPrefixOf_iff_prefix.mp h.under).trans (List.isPrefixOf_iff_prefix.mp k.under))
  place := h.place.trans k.place

theorem startOf_join (root : Path) (relative : path.isAbsolute = false) :
    tree.startOf (root.join path) = tree.startOf root := by
  by_cases empty : root.text = ""
  · have start : root.isAbsolute = false := by simp [Path.isAbsolute, empty]
    simp [Path.join, startOf, start, relative, empty]
  · obtain ⟨-, -, -, -, start⟩ := Path.pieces_join empty relative
    rw [startOf, start, startOf]

theorem place_join (root : Path) (relative : path.isAbsolute = false) :
    tree.place (root.join path) = trace (tree.place root) path.pieces := by
  unfold place
  rw [startOf_join root relative]
  by_cases empty : root.text = ""
  · have idle : root.pieces = [""] := by simp [Path.pieces, empty, Text.splitOn, Text.stretches]
    have joined : root.join path = path := by simp [Path.join, relative, empty]
    rw [joined, idle]
    rfl
  · obtain ⟨front, -, whole, joined, -⟩ := Path.pieces_join empty relative
    rw [joined, trace_append, ← trace_filter _ front, Path.steps_of_front whole, Path.steps,
      trace_filter]

theorem follow_join (there : tree.isDirectory root = true) (relative : path.isAbsolute = false) :
    ∃ front, (root.join path).pieces = front ++ path.pieces ∧ front.all isValidPiece = true ∧
      (root.join path).text ≠ "" ∧
      tree.follow (tree.startOf (root.join path)) front = .ok (tree.place root) := by
  obtain ⟨valid, some_text, followed⟩ := resolve_run (locate_run (node?_of_isDirectory there).1).2
  obtain ⟨front, -, whole, joined, -⟩ := Path.pieces_join some_text relative
  refine ⟨front, joined, ?_, ?_, ?_⟩
  · rcases whole with same | same
    · rwa [same] at valid
    · rw [same, List.all_append, Bool.and_eq_true] at valid
      exact valid.1
  · unfold Path.join
    rw [if_neg (Bool.eq_false_iff.mp relative)]
    split <;> simp [some_text]
  · rw [startOf_join root relative]
    rcases whole with same | same
    · rwa [same] at followed
    · rw [same] at followed
      obtain ⟨middle, first, rest⟩ := follow_of_append followed
      rw [follow_cons (node?_of_follow_cons rest), follow, stepTo_of_idle (by decide)] at rest
      rwa [Except.ok.inj rest] at first

theorem contains_join (root : Path) (relative : path.isAbsolute = false)
    (down : ".." ∉ path.pieces) : tree.Contains root (root.join path) where
  under := List.isPrefixOf_iff_prefix.mpr (Path.components_join root relative)
  place := by
    rw [place_join root relative]
    exact prefix_trace _ down

def IsName (piece : String) : Prop :=
  Path.isStep piece = true ∧ piece ≠ ".." ∧ '/' ∉ piece.toList

instance : DecidablePred IsName :=
  fun piece => inferInstanceAs (Decidable (Path.isStep piece = true ∧ piece ≠ ".." ∧ _))

def Named (tree : FileTree) : Prop :=
  ∀ entry ∈ tree.entries, ∀ piece ∈ entry.1, IsName piece

instance : DecidablePred Named :=
  fun tree => inferInstanceAs (Decidable (∀ entry ∈ tree.entries, ∀ piece ∈ entry.1, IsName piece))

theorem isName_of_mem_names (named : tree.Named) {location : FileLocation} {name : String}
    (member : name ∈ tree.names location) : IsName name := by
  obtain ⟨entry, there, last⟩ := List.mem_filterMap.mp (List.mem_mergeSort.mp member)
  dsimp only at last
  split at last
  · rename_i final found
    split at last
    · cases last
      exact named entry there _ (List.mem_of_getLast? found)
    · cases last
  · cases last

theorem contains_entry (directory : Path) {name : String} (proper : IsName name) :
    tree.Contains directory (directory.join ⟨name⟩) := by
  obtain ⟨-, down, free⟩ := proper
  have pieces : (Path.mk name).pieces = [name] := by
    have whole : Text.splitOn '/' ((String.singleton '/').intercalate [name]) = [name] :=
      Text.splitOn_intercalate (by simp) (by simpa using free)
    simpa [Path.pieces] using whole
  refine contains_join directory ?_ ?_
  · cases chars : name.toList with
    | nil => simp [Path.isAbsolute, chars]
    | cons c rest =>
        have other : c ≠ '/' := fun same => free (chars ▸ same ▸ List.mem_cons_self)
        simp [Path.isAbsolute, chars, other]
  · rw [pieces, List.mem_singleton]
    exact Ne.symm down

end FileTree

namespace StandardFiles

open FileTree Name

variable {tree : FileTree} {name : String} {kind : ArtifactKind} {root : Path}

theorem isAbsolute_relativePath (name : String) (kind : ArtifactKind) :
    (relativePath name kind).isAbsolute = isRooted name :=
  isAbsolute_toPathText _ (by cases kind <;> decide) name

theorem up_not_mem_relativePath (name : String) (kind : ArtifactKind) :
    ".." ∉ (relativePath name kind).pieces :=
  up_not_mem_pieces _ (by cases kind <;> decide) name

/-- What a lookup of a text below a root comes to: a path under the root, or one that does not
depend on it. -/
structure LeadsTo (tree : FileTree) (root : Path) (text : String) (alone path : Path) : Prop where
  stays : isRooted text = false → tree.Contains root path
  escapes : isRooted text = true → tree.Contains alone path

theorem leadsTo_relativePath (tree : FileTree) (root : Path) (name : String) (kind : ArtifactKind) :
    LeadsTo tree root name (relativePath name kind) (root.join (relativePath name kind)) where
  stays relative := by
    rw [← isAbsolute_relativePath name kind] at relative
    exact contains_join root relative (up_not_mem_relativePath name kind)
  escapes rooted := by
    rw [← isAbsolute_relativePath name kind] at rooted
    have alone : root.join (relativePath name kind) = relativePath name kind := if_pos rooted
    rw [alone]
    exact .refl tree _

theorem leadsTo_packageDir (tree : FileTree) (root : Path) (package : String) :
    LeadsTo tree root package ⟨toPathText package⟩ (packageDir root package) := by
  have absolute : (Path.mk (toPathText package)).isAbsolute = isRooted package := by
    simpa using isAbsolute_toPathText "" (by decide) package
  have down : ".." ∉ (Path.mk (toPathText package)).pieces := by
    simpa using up_not_mem_pieces "" (by decide) package
  refine ⟨?_, ?_⟩
  · intro relative
    unfold packageDir
    split
    · exact .refl tree root
    · exact contains_join root (absolute.trans relative) down
  · intro rooted
    have some_text : package.isEmpty = false := by
      rw [← Bool.not_eq_true, String.isEmpty_iff]
      rintro rfl
      cases rooted
    have alone : root.join ⟨toPathText package⟩ = ⟨toPathText package⟩ :=
      if_pos (absolute.trans rooted)
    rw [packageDir, some_text, if_neg Bool.false_ne_true, alone]
    exact .refl tree _

theorem LeadsTo.trans {text : String} {alone middle path : Path}
    (leads : LeadsTo tree root text alone middle) (inside : tree.Contains middle path) :
    LeadsTo tree root text alone path where
  stays relative := (leads.stays relative).trans inside
  escapes rooted := (leads.escapes rooted).trans inside

/-! ## Looking for files -/

theorem names_of_readDirectory {directory : Path} {names : List String}
    (read : tree.readDirectory directory = .ok names) :
    tree.node? (tree.place directory) = some .directory ∧ tree.place directory ∉ tree.sealed ∧
      names = tree.names (tree.place directory) := by
  unfold readDirectory at read
  cases located : tree.locate directory with
  | error fault =>
      rw [located] at read
      cases read
  | ok spot =>
      rw [located] at read
      obtain rfl := place_of_locate located
      dsimp only at read
      split_ifs at read with other hidden
      cases read
      exact ⟨not_not.mp other, hidden, rfl⟩

theorem filesIn_contained (named : tree.Named) {kinds : List ArtifactKind} {recurse : Bool}
    {depth : Nat} {directory : Path} {found : List FileObject}
    (run : filesIn tree root kinds recurse depth directory = .ok found) {file : FileObject}
    (member : file ∈ found) : file.root = root ∧ tree.Contains directory file.path := by
  induction depth generalizing directory found with
  | zero =>
      cases run
      cases member
  | succ depth ih =>
      obtain ⟨names, read, run⟩ := Step.ok_bind_iff.mp run
      obtain ⟨lists, each, run⟩ := Step.ok_bind_iff.mp run
      cases run
      obtain ⟨inner, inside, member⟩ := List.mem_flatten.mp member
      obtain ⟨name, known, entry⟩ := (Step.mapM_ok each).1 _ inside
      rw [(names_of_readDirectory read).2.2] at known
      have within : tree.Contains directory (directory.join ⟨name⟩) :=
        contains_entry directory (isName_of_mem_names named known)
      dsimp only at entry
      split_ifs at entry with deeper recursive listed
      · obtain ⟨same, below⟩ := ih entry member
        exact ⟨same, within.trans below⟩
      · cases entry
        cases member
      · cases entry
        rw [List.mem_singleton.mp member]
        exact ⟨rfl, within⟩
      · cases entry
        cases member

theorem exists_of_mem_list {files : StandardFiles} {location : Location} {package : String}
    {kinds : List ArtifactKind} {recurse : Bool} {found : List FileObject}
    (run : files.list location package kinds recurse = .ok found) {file : FileObject}
    (member : file ∈ found) : ∃ root ∈ files.roots location, ∃ inner,
      filesBelowRoot files.tree package kinds recurse root = .ok inner ∧ file ∈ inner := by
  obtain ⟨lists, each, run⟩ := Step.ok_bind_iff.mp run
  cases run
  obtain ⟨inner, inside, member⟩ := List.mem_flatten.mp (List.mem_mergeSort.mp member)
  obtain ⟨root, known, below⟩ := (Step.mapM_ok each).1 _ inside
  exact ⟨root, known, inner, below, member⟩

theorem list_leads {files : StandardFiles} (named : files.tree.Named) {location : Location}
    {package : String} {kinds : List ArtifactKind} {recurse : Bool} {found : List FileObject}
    (run : files.list location package kinds recurse = .ok found) {file : FileObject}
    (member : file ∈ found) :
    file.root ∈ files.roots location ∧
      LeadsTo files.tree file.root package ⟨toPathText package⟩ file.path := by
  obtain ⟨root, known, inner, below, member⟩ := exists_of_mem_list run member
  unfold filesBelowRoot at below
  dsimp only at below
  split at below
  · obtain ⟨rfl, inside⟩ := filesIn_contained named below member
    exact ⟨known, (leadsTo_packageDir files.tree file.root package).trans inside⟩
  · cases below
    cases member

theorem input_leads {files : StandardFiles} {location : Location} {file : FileObject}
    (found : files.input location name kind = some file) :
    file.root ∈ files.roots location ∧ file.kind = kind ∧
      file.path = file.root.join (relativePath name kind) ∧
      LeadsTo files.tree file.root name (relativePath name kind) file.path := by
  obtain ⟨root, known, found⟩ := List.exists_of_findSome?_eq_some found
  dsimp only at found
  split at found
  · cases found
    dsimp only
    exact ⟨known, rfl, rfl, leadsTo_relativePath files.tree root name kind⟩
  · cases found

/-! ## Outputs -/

def sinkAt (spot : FileLocation) : Sink StandardFiles where
  write chunk := modify fun files => { files with tree := files.tree.append spot chunk }
  flush := pure ()

theorem onTree_ok {α : Type} {op : FileTree → Except FileFault (α × FileTree)}
    {files : StandardFiles} {value : α} {after : FileTree}
    (done : op files.tree = .ok (value, after)) :
    onTree op files = (.ok value, { files with tree := after }) := by
  simp only [onTree, Step.except_get_run, done]
  rfl

theorem onTree_error {α : Type} {op : FileTree → Except FileFault (α × FileTree)}
    {files : StandardFiles} {fault : FileFault} (failed : op files.tree = .error fault) :
    onTree op files = (.error .system, files) := by
  simp only [onTree, Step.except_get_run, failed]
  rfl

theorem create_run {path : Path} {spot : FileLocation} {after : FileTree}
    (made : tree.create path = .ok (spot, after)) :
    tree.locate path = .ok spot ∧ tree.node? spot ≠ some .directory ∧
      after = tree.set spot (.file []) := by
  unfold create at made
  split at made
  · cases made
  · rename_i located
    split at made
    · cases made
    · cases made
    · rename_i other _
      cases made
      exact ⟨located, other, rfl⟩

variable {files after : StandardFiles} {directory : Path}
  {answer : Except FileError (Sink StandardFiles)}

theorem makeParent_run (target : Path) (files : StandardFiles) :
    onTree (fun tree => (tree.makeParent target).map fun tree => ((), tree)) files =
      match files.tree.makeParent target with
      | .ok parented => (.ok (), { files with tree := parented })
      | .error _ => (.error .system, files) := by
  cases parents : files.tree.makeParent target with
  | ok parented =>
      have done : (files.tree.makeParent target).map (fun tree => ((), tree)) =
          .ok ((), parented) := by
        rw [parents]
        rfl
      exact onTree_ok done
  | error fault =>
      have failed : (files.tree.makeParent target).map (fun tree => ((), tree)) =
          .error fault := by
        rw [parents]
        rfl
      exact onTree_error failed

/-- What asking for an output comes to: the directories above it cannot be made, or the file cannot
be made in them, or there is a new file to write to. -/
theorem output_run (configured : files.outputDir = some directory)
    (run : output .classOutput name kind files = (answer, after)) :
    let target := directory.join (relativePath name kind)
    answer = .error .system ∧ after = files ∨
    ∃ parented, files.tree.makeParent target = .ok parented ∧
      (answer = .error .system ∧ after = { files with tree := parented } ∨
      ∃ spot made, parented.create target = .ok (spot, made) ∧ answer = .ok (sinkAt spot) ∧
        after = { files with tree := made }) := by
  intro target
  unfold output at run
  rw [Step.except_get_run] at run
  simp only [configured] at run
  have first := makeParent_run target files
  cases parents : files.tree.makeParent target with
  | error fault =>
      simp only [parents] at first
      rw [Step.except_bind_error first] at run
      cases run
      exact .inl ⟨rfl, rfl⟩
  | ok parented =>
      simp only [parents] at first
      rw [Step.except_bind_ok first] at run
      refine .inr ⟨parented, rfl, ?_⟩
      cases created : parented.create target with
      | error fault =>
          have second : onTree (fun tree => tree.create target) { files with tree := parented } =
              (.error .system, { files with tree := parented }) :=
            onTree_error created
          rw [Step.except_bind_error second] at run
          cases run
          exact .inl ⟨rfl, rfl⟩
      | ok found =>
          obtain ⟨spot, made⟩ := found
          have second : onTree (fun tree => tree.create target) { files with tree := parented } =
              (.ok spot, { files with tree := made }) :=
            onTree_ok created
          rw [Step.except_bind_ok second] at run
          cases run
          exact .inr ⟨spot, made, rfl, rfl, rfl⟩

theorem output_ok {target : Path} {parented made : FileTree} {spot : FileLocation}
    (configured : files.outputDir = some directory)
    (same : directory.join (relativePath name kind) = target)
    (parents : files.tree.makeParent target = .ok parented)
    (created : parented.create target = .ok (spot, made)) :
    output .classOutput name kind files = (.ok (sinkAt spot), { files with tree := made }) := by
  have first := makeParent_run target files
  simp only [parents] at first
  have second : onTree (fun tree => tree.create target) { files with tree := parented } =
      (.ok spot, { files with tree := made }) :=
    onTree_ok created
  obtain ⟨classPath, outputDir, tree⟩ := files
  obtain rfl : outputDir = some directory := configured
  unfold output
  rw [Step.except_get_run]
  dsimp only
  rw [same, Step.except_bind_ok first, Step.except_bind_ok second]
  rfl

theorem output_unconfigured (files : StandardFiles) {location : Location}
    (unconfigured : location ≠ .classOutput ∨ files.outputDir = none) :
    ∃ fault, output location name kind files = (.error fault, files) := by
  unfold output
  rw [Step.except_get_run]
  rcases unconfigured with other | none
  · cases location with
    | classOutput => exact absurd rfl other
    | _ => exact ⟨_, rfl⟩
  · rw [none]
    cases location <;> exact ⟨_, rfl⟩

theorem makeAlong_of_makeParent {path : Path} {parented : FileTree}
    (made : tree.makeParent path = .ok parented) :
    tree.makeAlong (tree.startOf path) (parentPieces path) = .ok parented := by
  unfold makeParent at made
  split at made
  · exact made
  · cases made

theorem makeParent_grows {path : Path} {parented : FileTree}
    (made : tree.makeParent path = .ok parented) :
    Grows (fun spot => ∃ way, way <+: parentPieces path ∧
      spot = trace (tree.startOf path) way) tree parented :=
  makeAlong_grows (makeAlong_of_makeParent made)

theorem makeParent_below {path : Path} {parented : FileTree}
    (there : tree.isDirectory root = true) (relative : path.isAbsolute = false)
    (down : ".." ∉ path.pieces) (made : tree.makeParent (root.join path) = .ok parented) :
    Grows (tree.place root <+: ·) tree parented := by
  have directory := (node?_of_isDirectory there).2
  obtain ⟨front, joined, -, -, way⟩ := follow_join there relative
  replace made := makeAlong_of_makeParent made
  have parents := parentPieces_isPrefix (root.join path)
  rw [joined] at parents
  rcases List.prefix_or_prefix_of_prefix parents (List.prefix_append front path.pieces) with
    short | long
  · -- The directories above the root are there.
    obtain ⟨rest, same⟩ := short
    rw [← same] at way
    obtain ⟨middle, first, there⟩ := follow_beginning way directory
    rw [makeAlong_known first there] at made
    rw [Except.ok.inj made]
    exact .refl _
  · obtain ⟨rest, same⟩ := long
    rw [← same] at made parents
    rw [makeAlong_over way directory] at made
    have within : rest <+: path.pieces := (List.prefix_append_right_inj front).mp parents
    apply (makeAlong_grows made).mono
    rintro spot ⟨done, first, same⟩
    rw [same]
    exact prefix_trace _ fun up => down ((first.trans within).subset up)

/-- What changes between two trees by an output below a directory: no file but below it, and nothing
else but below it if it is there. -/
structure OutputBelow (directory : Path) (before after : FileTree) : Prop where
  file : ∀ spot bytes, after.node? spot = some (.file bytes) →
    before.node? spot ≠ some (.file bytes) → before.place directory <+: spot
  changed : before.isDirectory directory = true → ∀ spot, after.node? spot ≠ before.node? spot →
    before.place directory <+: spot

theorem OutputBelow.of_parents {path : Path} {parented : FileTree}
    (relative : path.isAbsolute = false) (down : ".." ∉ path.pieces)
    (made : tree.makeParent (root.join path) = .ok parented) : OutputBelow root tree parented where
  file spot bytes now before := by
    rcases (makeParent_grows made).changed spot with kept | ⟨-, fresh, -⟩
    · exact absurd (kept ▸ now) before
    · cases now.symm.trans fresh
  changed there spot differs := by
    rcases (makeParent_below there relative down made).changed spot with kept | ⟨-, -, inside⟩
    · exact absurd kept differs
    · exact inside

theorem OutputBelow.of_set {parented : FileTree} {spot : FileLocation} {bytes : Bytes}
    (below : OutputBelow root tree parented) (inside : tree.place root <+: spot) :
    OutputBelow root tree (parented.set spot (.file bytes)) where
  file other content now before := by
    by_cases same : other = spot
    · rwa [same]
    · rw [node?_set_other same] at now
      exact below.file other content now before
  changed there other differs := by
    by_cases same : other = spot
    · rwa [same]
    · rw [node?_set_other same] at differs
      exact below.changed there other differs

theorem output_sink (configured : files.outputDir = some directory) {sink : Sink StandardFiles}
    (run : output .classOutput name kind files = (.ok sink, after)) :
    sink = sinkAt (files.tree.place (directory.join (relativePath name kind))) := by
  rcases output_run configured run with ⟨failed, -⟩ | ⟨parented, parents, ⟨failed, -⟩ | made⟩
  · cases failed
  · cases failed
  · obtain ⟨spot, made, created, opened, -⟩ := made
    cases opened
    rw [place_of_locate (create_run created).1,
      place_congr (makeParent_grows parents).workingDirectory]

/-- Asking for the output of a name that does not lead away changes nothing outside the output
directory. -/
theorem output_below (configured : files.outputDir = some directory)
    (stays : isRooted name = false)
    (run : output .classOutput name kind files = (answer, after)) :
    OutputBelow directory files.tree after.tree := by
  have relative := (isAbsolute_relativePath name kind).trans stays
  have down := up_not_mem_relativePath name kind
  rcases output_run configured run with ⟨-, rfl⟩ | ⟨parented, parents, rest⟩
  · exact ⟨fun _ _ now before => absurd now before, fun _ _ differs => absurd rfl differs⟩
  · have below := OutputBelow.of_parents relative down parents
    rcases rest with ⟨-, rfl⟩ | ⟨spot, made, created, opened, rfl⟩
    · exact below
    · obtain ⟨located, -, rfl⟩ := create_run created
      have inside : files.tree.place directory <+: spot := by
        rw [place_of_locate located, place_congr (makeParent_grows parents).workingDirectory]
        exact (contains_join directory relative down).place
      exact below.of_set inside

end StandardFiles

/-! ## Units from files -/

namespace Action

variable {tree : FileTree} {host : LoaderId} {origin : Path} {name : String} {before after : World}

/-- Of all files only the one below the origin decides what is defined. -/
theorem defineFromOrigin_run (tree : FileTree) (host : LoaderId) (origin : Path) (name : String)
    (before : World) : defineFromOrigin tree host origin name before =
      match tree.read (imagePath origin name) with
      | .error .notFound => (.error (.typeNotFound name), before)
      | .error _ => (.error (.file .system), before)
      | .ok bytes =>
        match UnitImage.decode name bytes with
        | .error fault => (.error (.malformedArtifact name fault), before)
        | .ok image => defineImage host image (some origin) before := by
  unfold defineFromOrigin
  cases tree.read (imagePath origin name) with
  | error fault => cases fault <;> rfl
  | ok bytes =>
      dsimp only
      cases UnitImage.decode name bytes with
      | error fault => rfl
      | ok image => rfl

theorem defineFromOrigin_reads {unit : UnitType}
    (run : defineFromOrigin tree host origin name before = (.ok unit, after)) :
    unit.origin = some origin ∧ ∃ bytes,
      tree.node? (tree.place (imagePath origin name)) = some (.file bytes) ∧
        UnitImage.decode name bytes = .ok unit.image := by
  rw [defineFromOrigin_run] at run
  split at run
  · cases run
  · cases run
  · rename_i bytes read
    split at run
    · cases run
    · rename_i image decoded
      cases run
      exact ⟨rfl, bytes, FileTree.node?_of_read read, decoded⟩

end Action

/-! ## All lookups -/

open Name StandardFiles

/-- Where the lookups of a text lead that is given for a package or for the name of a unit. If it
starts with neither a dot nor a slash, they lead to files under the root that they started from, and
an output changes nothing but below its directory. If it does, each leads to a file that is the same
whatever the root is. -/
structure LookupsLead (files : StandardFiles) (text : String) : Prop where
  listed : ∀ location kinds recurse found, files.list location text kinds recurse = .ok found →
    ∀ file ∈ found, file.root ∈ files.roots location ∧
      LeadsTo files.tree file.root text ⟨toPathText text⟩ file.path
  found : ∀ location kind file, files.input location text kind = some file →
    file.root ∈ files.roots location ∧ file.kind = kind ∧
      LeadsTo files.tree file.root text (relativePath text kind) file.path
  unconfigured : ∀ location kind, location ≠ .classOutput ∨ files.outputDir = none →
    ∃ fault, output location text kind files = (.error fault, files)
  written : ∀ kind directory answer after, files.outputDir = some directory →
    output .classOutput text kind files = (answer, after) →
      (isRooted text = false → OutputBelow directory files.tree after.tree) ∧
      ∀ sink, answer = .ok sink → ∃ path, sink = sinkAt (files.tree.place path) ∧
        LeadsTo files.tree directory text (relativePath text kind) path
  decided : ∀ host origin (other : FileTree),
    other.read (Action.imagePath origin text) = files.tree.read (Action.imagePath origin text) →
      Action.defineFromOrigin other host origin text =
        Action.defineFromOrigin files.tree host origin text
  defined : ∀ host origin before unit after,
    Action.defineFromOrigin files.tree host origin text before = (.ok unit, after) →
      unit.origin = some origin ∧ ∃ path bytes,
        LeadsTo files.tree origin text (relativePath text .unit) path ∧
        files.tree.node? (files.tree.place path) = some (.file bytes) ∧
          UnitImage.decode text bytes = .ok unit.image

/-- All lookups of a text lead under their roots, unless it starts with a dot or a slash. -/
theorem lookups_lead (files : StandardFiles) (named : files.tree.Named) (text : String) :
    LookupsLead files text where
  listed _ _ _ _ run _ member := list_leads named run member
  found _ _ _ found := by
    obtain ⟨known, same, -, leads⟩ := input_leads found
    exact ⟨known, same, leads⟩
  unconfigured _ _ := output_unconfigured files
  written kind directory answer after configured run := by
    refine ⟨fun stays => output_below configured stays run, ?_⟩
    rintro sink rfl
    exact ⟨_, output_sink configured run, leadsTo_relativePath files.tree directory text kind⟩
  decided host origin other same := by
    funext before
    rw [Action.defineFromOrigin_run, Action.defineFromOrigin_run, same]
  defined host origin before unit after run := by
    obtain ⟨from_, bytes, there, decoded⟩ := Action.defineFromOrigin_reads run
    exact ⟨from_, _, bytes, leadsTo_relativePath files.tree origin text .unit, there, decoded⟩

def outside : StandardFiles where
  classPath := []
  outputDir := some ⟨"out"⟩
  tree := {
    entries := [(["work"], .directory), (["work", "out"], .directory), (["tmp"], .directory),
      (["tmp", "A.unit"], .file [])]
    workingDirectory := ["work"] }

/-- A name that starts with a dot is looked up outside the output directory. -/
theorem lookups_lead_outside :
    outside.tree.Named ∧ LookupsLead outside ".tmp.A" ∧
      outside.input .classOutput ".tmp.A" .unit =
        some { kind := .unit, path := ⟨"/tmp/A.unit"⟩, root := ⟨"out"⟩ } ∧
      (Path.mk "/tmp/A.unit").liesUnder ⟨"out"⟩ = false := by
  have named : outside.tree.Named := by decide +kernel
  exact ⟨named, lookups_lead outside named ".tmp.A", by decide +kernel, by decide +kernel⟩

end UnitForge
