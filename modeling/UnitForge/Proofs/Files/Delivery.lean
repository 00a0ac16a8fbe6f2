import UnitForge.Proofs.Files.Containment

/-! # Files below a directory

A file whose path is made of names is written where the names lead, and the directories above it are
made if they are not there. Nothing is in its way where directories and files can be told apart by
their names, as they can be in an empty directory. What was written is read back, until another file
is written to the same place. -/
set_option autoImplicit false
namespace UnitForge.FileTree

variable {tree before middle after : FileTree} {root path : Path} {location base spot : FileLocation}
  {pieces front : List String} {piece last : String} {bytes : Bytes}

/-! ## Ways of names -/

theorem stepTo_name (named : IsName piece) : stepTo location piece = location ++ [piece] := by
  obtain ⟨step, down, -⟩ := named
  have moves : ¬(piece = "" ∨ piece = ".") := by simpa [Path.isStep] using step
  rw [stepTo, if_neg moves, if_neg down]

theorem trace_names (named : ∀ piece ∈ pieces, IsName piece) :
    trace location pieces = location ++ pieces := by
  induction pieces generalizing location with
  | nil => exact (List.append_nil _).symm
  | cons piece rest ih =>
      change trace (stepTo location piece) rest = _
      rw [stepTo_name (named piece List.mem_cons_self),
        ih fun other member => named other (List.mem_cons_of_mem _ member)]
      simp

theorem follow_names (named : ∀ piece ∈ front ++ [last], IsName piece)
    (way : ∀ done, done <+: front → tree.node? (location ++ done) = some .directory) :
    tree.follow location (front ++ [last]) = .ok (location ++ (front ++ [last])) := by
  induction front generalizing location with
  | nil =>
      have here : tree.node? location = some .directory := by
        simpa using way [] List.prefix_rfl
      rw [List.nil_append, follow_cons here, follow, stepTo_name (named last (by simp))]
  | cons piece rest ih =>
      have here : tree.node? location = some .directory := by
        simpa using way [] List.nil_prefix
      have later (done : List String) (first : done <+: rest) :
          tree.node? (location ++ [piece] ++ done) = some .directory := by
        simpa using way (piece :: done) (List.cons_prefix_cons.mpr ⟨rfl, first⟩)
      rw [List.cons_append, follow_cons here, stepTo_name (named piece (by simp)),
        ih (fun other member => named other (List.mem_cons_of_mem _ member)) later]
      simp

theorem follow_later (kept : ∀ spot, before.node? spot = some .directory →
      after.node? spot = some .directory)
    (found : before.follow location pieces = .ok base) :
    after.follow location pieces = .ok base := by
  induction pieces generalizing location with
  | nil => rwa [follow] at found ⊢
  | cons piece rest ih =>
      have here := node?_of_follow_cons found
      rw [follow_cons here] at found
      rw [follow_cons (kept _ here)]
      exact ih found

theorem makeAlong_names (named : ∀ piece ∈ pieces, IsName piece)
    (here : tree.node? location = some .directory)
    (free : ∀ done, done <+: pieces → ∀ node, tree.node? (location ++ done) = some node →
      node = .directory) :
    ∃ after, tree.makeAlong location pieces = .ok after ∧
      ∀ done, done <+: pieces → after.node? (location ++ done) = some .directory := by
  induction pieces generalizing tree location with
  | nil =>
      refine ⟨tree, by rw [makeAlong], ?_⟩
      intro done first
      rw [List.prefix_nil.mp first, List.append_nil]
      exact here
  | cons piece rest ih =>
      have others (other : String) (member : other ∈ rest) : IsName other :=
        named other (List.mem_cons_of_mem _ member)
      obtain ⟨step, down, -⟩ := named piece List.mem_cons_self
      have moves : ¬(piece = "" ∨ piece = ".") := by simpa [Path.isStep] using step
      have next (made : FileTree) (there : made.node? (location ++ [piece]) = some .directory)
          (kept : made.node? location = some .directory)
          (same : ∀ done, done <+: rest → done ≠ [] →
            made.node? (location ++ [piece] ++ done) = tree.node? (location ++ [piece] ++ done)) :
          ∃ after, made.makeAlong (location ++ [piece]) rest = .ok after ∧
            ∀ done, done <+: piece :: rest → after.node? (location ++ done) = some .directory := by
        obtain ⟨after, run, all⟩ := ih others there fun done first node found => by
          by_cases start : done = []
          · subst start
            rw [List.append_nil, there] at found
            exact (Option.some.inj found).symm
          · rw [same done first start] at found
            apply free (piece :: done) (List.cons_prefix_cons.mpr ⟨rfl, first⟩) node
            simpa using found
        refine ⟨after, run, ?_⟩
        intro done first
        cases done with
        | nil =>
            rw [List.append_nil]
            exact (makeAlong_grows run).directory kept
        | cons head tail =>
            obtain ⟨rfl, inside⟩ := List.cons_prefix_cons.mp first
            simpa using all tail inside
      rw [makeAlong, if_neg moves, if_neg down]
      dsimp only
      cases there : tree.node? (location ++ [piece]) with
      | none =>
          have differs (done : List String) (start : done ≠ []) :
              location ++ [piece] ++ done ≠ location ++ [piece] := by
            simpa using start
          refine next _ (node?_set_self (by simp) _) ?_ ?_
          · rw [node?_set_other (by simp)]
            exact here
          · intro done _ start
            exact node?_set_other (differs done start) _
      | some node =>
          obtain rfl : node = .directory :=
            free [piece] (List.cons_prefix_cons.mpr ⟨rfl, List.nil_prefix⟩) node there
          exact next tree there here fun _ _ _ => rfl

/-! ## Paths from a directory -/

theorem isAccepted_iff : isAccepted path.pieces = true ↔
    isShort path = true ∧ path.pieces.all isValidPiece = true := by
  have text : Path.mk ("/".intercalate path.pieces) = path :=
    congrArg Path.mk (Text.intercalate_splitOn '/' path.text)
  rw [isAccepted, Bool.and_eq_true, text]

theorem utf8ByteSize_intercalate_le (front rest : List String) :
    ("/".intercalate front).utf8ByteSize ≤ ("/".intercalate (front ++ rest)).utf8ByteSize := by
  by_cases start : front = []
  · subst start
    exact Nat.zero_le _
  · by_cases stop : rest = []
    · exact Nat.le_of_eq (by rw [stop, List.append_nil])
    · rw [String.intercalate_append_of_ne_nil start stop, String.utf8ByteSize_append,
        String.utf8ByteSize_append]
      omega

theorem isAccepted_of_prefix (first : front <+: pieces) (accepted : isAccepted pieces = true) :
    isAccepted front = true := by
  obtain ⟨rest, rfl⟩ := first
  rw [isAccepted, Bool.and_eq_true, List.all_append, Bool.and_eq_true] at accepted
  obtain ⟨short, valid, -⟩ := accepted
  have bounded := utf8ByteSize_intercalate_le front rest
  rw [isShort, decide_eq_true_iff] at short
  rw [isAccepted, valid, Bool.and_true, isShort, decide_eq_true_iff]
  exact Nat.lt_of_le_of_lt bounded short

theorem locate_below (there : tree.isDirectory root = true) (relative : path.isAbsolute = false)
    (accepted : isAccepted (root.join path).pieces = true) :
    tree.locate (root.join path) = tree.follow (tree.place root) path.pieces := by
  obtain ⟨short, valid⟩ := isAccepted_iff.mp accepted
  obtain ⟨front, joined, -, some_text, way⟩ := follow_join there relative
  have nonempty : (root.join path).text.isEmpty = false := by simpa using some_text
  rw [locate, if_pos short, resolve, valid, nonempty, joined, follow_append way]
  rfl

theorem makeParent_names (there : tree.isDirectory root = true)
    (relative : path.isAbsolute = false) (accepted : isAccepted (root.join path).pieces = true)
    (whole : path.pieces = front ++ [last]) (named : IsName last) :
    tree.makeParent (root.join path) = tree.makeAlong (tree.place root) front := by
  obtain ⟨way, joined, -, -, followed⟩ := follow_join there relative
  have parents : parentPieces (root.join path) = way ++ front := by
    have step : ¬(last = "" ∨ last = ".") := by simpa [Path.isStep] using named.1
    simp [parentPieces, trimEnd, joined, whole, step, ← List.append_assoc]
  have taken : isAccepted (trimEnd (parentPieces (root.join path))) = true :=
    isAccepted_of_prefix ((trimEnd_isPrefix _).trans (parentPieces_isPrefix _)) accepted
  rw [makeParent, if_pos taken, parents, makeAlong_over followed (node?_of_isDirectory there).2]

/-! ## Files -/

theorem append_run (there : tree.node? spot = some (.file bytes)) (chunk : Bytes) :
    tree.append spot chunk = tree.set spot (.file (bytes ++ chunk)) := by
  rw [append, there]

/-- Below a location, what has a dot in its name is a file, and what has none is a directory. -/
def Tidy (tree : FileTree) (base : FileLocation) : Prop :=
  ∀ way last node, tree.node? (base ++ (way ++ [last])) = some node →
    '.' ∉ last.toList ∧ node = .directory ∨ '.' ∈ last.toList ∧ ∃ bytes, node = .file bytes

/-- A tree before and after a file is written below a directory. -/
structure Writes (base : FileLocation) (pieces : List String) (bytes : Bytes)
    (before after : FileTree) : Prop where
  workingDirectory : after.workingDirectory = before.workingDirectory
  fresh : before.node? (base ++ pieces) ≠ some .directory
  file : after.node? (base ++ pieces) = some (.file bytes)
  reached : after.follow base pieces = .ok (base ++ pieces)
  kept : ∀ spot, spot ≠ base ++ pieces → after.node? spot = before.node? spot ∨
    before.node? spot = none ∧ after.node? spot = some .directory ∧
      ∃ done, done <+: pieces.dropLast ∧ spot = base ++ done

theorem Writes.directory (writes : Writes base pieces bytes before after)
    (there : before.node? spot = some .directory) : after.node? spot = some .directory := by
  have other : spot ≠ base ++ pieces := by
    rintro rfl
    exact writes.fresh there
  rcases writes.kept spot other with same | ⟨none, -, -⟩
  · rw [same, there]
  · rw [there] at none
    cases none

/-- Files with dots in their names, below directories without, keep a tree tidy. -/
theorem Writes.tidy (writes : Writes base (front ++ [last]) bytes before after)
    (tidy : before.Tidy base) (dot : '.' ∈ last.toList) (free : ∀ piece ∈ front, '.' ∉ piece.toList) :
    after.Tidy base := by
  intro way name node there
  by_cases same : way ++ [name] = front ++ [last]
  · obtain ⟨-, rfl⟩ := List.append_singleton_inj.mp same
    rw [same, writes.file] at there
    cases there
    exact .inr ⟨dot, bytes, rfl⟩
  · have other : base ++ (way ++ [name]) ≠ base ++ (front ++ [last]) := by simpa using same
    rcases writes.kept _ other with kept | ⟨-, made, done, first, spot⟩
    · exact tidy way name node (kept ▸ there)
    · rw [made] at there
      cases there
      rw [List.dropLast_concat, ← List.append_cancel_left spot] at first
      exact .inl ⟨free name (first.subset (by simp)), rfl⟩

structure IsEmptyDirectory (tree : FileTree) (path : Path) : Prop where
  there : tree.isDirectory path = true
  empty : ∀ spot, tree.place path <+: spot → spot ≠ tree.place path → tree.node? spot = none

theorem isEmptyDirectory_of_entries (there : tree.isDirectory path = true)
    (alone : ∀ entry ∈ tree.entries, tree.place path <+: entry.1 → entry.1 = tree.place path) :
    tree.IsEmptyDirectory path where
  there := there
  empty spot inside differs := by
    have below : spot ≠ [] := by
      rintro rfl
      exact differs (List.prefix_nil.mp inside).symm
    rw [node?, if_neg below, List.lookup_eq_none_iff]
    intro entry member
    rw [bne_iff_ne]
    rintro rfl
    exact differs (alone entry member inside)

theorem IsEmptyDirectory.tidy (empty : tree.IsEmptyDirectory root) :
    tree.Tidy (tree.place root) := by
  intro way last node there
  rw [empty.empty _ (List.prefix_append ..) (by simp)] at there
  cases there

section Tidy
variable (tidy : tree.Tidy base) {done : List String}
include tidy

theorem Tidy.directory (here : tree.node? base = some .directory)
    (free : ∀ piece ∈ front, '.' ∉ piece.toList) (first : done <+: front) {node : FileNode}
    (there : tree.node? (base ++ done) = some node) : node = .directory := by
  rcases List.eq_nil_or_concat' done with rfl | ⟨way, name, rfl⟩
  · rw [List.append_nil, here] at there
    exact (Option.some.inj there).symm
  · have none : '.' ∉ name.toList := free name (first.subset (by simp))
    rcases tidy way name node there with ⟨-, same⟩ | ⟨dot, -⟩
    · exact same
    · exact absurd dot none

theorem Tidy.file (dot : '.' ∈ last.toList) {node : FileNode}
    (there : tree.node? (base ++ (front ++ [last])) = some node) : ∃ bytes, node = .file bytes := by
  rcases tidy front last node there with ⟨none, -⟩ | ⟨-, file⟩
  · exact absurd dot none
  · exact file

end Tidy

/-- A tree before and after directories are made, one in the other. -/
structure Parents (base : FileLocation) (front : List String) (before after : FileTree) : Prop
    extends Grows (fun spot => ∃ done, done <+: front ∧ spot = base ++ done) before after where
  way : ∀ {done}, done <+: front → after.node? (base ++ done) = some .directory

theorem makeAlong_parents (named : ∀ piece ∈ front, IsName piece)
    (here : tree.node? base = some .directory)
    (free : ∀ done, done <+: front → ∀ node, tree.node? (base ++ done) = some node →
      node = .directory) :
    ∃ after, tree.makeAlong base front = .ok after ∧ Parents base front tree after := by
  obtain ⟨after, run, way⟩ := makeAlong_names named here free
  have grows : Grows (fun spot => ∃ done, done <+: front ∧ spot = base ++ done) tree after := by
    apply (makeAlong_grows run).mono
    rintro spot ⟨done, first, same⟩
    have plain : ∀ piece ∈ done, IsName piece :=
      fun piece member => named piece (first.subset member)
    exact ⟨done, first, same.trans (trace_names plain)⟩
  exact ⟨after, run, { grows with way := way _ }⟩

theorem way_ne_file {done : List String} (first : done <+: front) :
    base ++ done ≠ base ++ (front ++ [last]) := by
  intro same
  have longer := first.length_le
  rw [List.append_cancel_left same, List.length_append, List.length_singleton] at longer
  omega

section Parents
variable (parents : Parents base front before middle)
  (fresh : before.node? (base ++ (front ++ [last])) ≠ some .directory)
include parents fresh

omit fresh in
theorem Parents.node?_file :
    middle.node? (base ++ (front ++ [last])) = before.node? (base ++ (front ++ [last])) := by
  rcases parents.changed (base ++ (front ++ [last])) with same | ⟨-, -, done, first, same⟩
  · exact same
  · exact absurd same.symm (way_ne_file first)

theorem Parents.writes (named : ∀ piece ∈ front ++ [last], IsName piece) (bytes : Bytes) :
    Writes base (front ++ [last]) bytes before
      ((middle.set (base ++ (front ++ [last])) (.file [])).append
        (base ++ (front ++ [last])) bytes) := by
  have below : base ++ (front ++ [last]) ≠ [] := by simp
  rw [append_run (node?_set_self below _), List.nil_append]
  have written (spot : FileLocation) (differs : spot ≠ base ++ (front ++ [last])) :
      ((middle.set (base ++ (front ++ [last])) (.file [])).set (base ++ (front ++ [last]))
        (.file bytes)).node? spot = middle.node? spot := by
    rw [node?_set_other differs, node?_set_other differs]
  refine ⟨parents.workingDirectory, fresh, node?_set_self below _, ?_, ?_⟩
  · apply follow_names named
    intro done first
    rw [written _ (way_ne_file first)]
    exact parents.way first
  · intro spot differs
    rw [written spot differs, List.dropLast_concat]
    exact parents.changed spot

end Parents

theorem isDirectory_later (workingDirectory : after.workingDirectory = before.workingDirectory)
    (kept : ∀ spot, before.node? spot = some .directory → after.node? spot = some .directory)
    (there : before.isDirectory root = true) : after.isDirectory root = true := by
  obtain ⟨located, directory⟩ := node?_of_isDirectory there
  obtain ⟨short, resolved⟩ := locate_run located
  obtain ⟨valid, some_text, followed⟩ := resolve_run resolved
  have start : after.startOf root = before.startOf root := by
    rw [startOf, startOf, workingDirectory]
  have found : after.locate root = .ok (before.place root) := by
    rw [locate, if_pos short, resolve, valid, start, follow_later kept followed]
    simp [some_text]
  simp [isDirectory, nodeAt?, found, kept _ directory]

section Below
variable (there : tree.isDirectory root = true) (relative : path.isAbsolute = false)
  (accepted : isAccepted (root.join path).pieces = true)
include there relative accepted

theorem read_below (reached : tree.follow (tree.place root) path.pieces = .ok spot)
    (file : tree.node? spot = some (.file bytes)) :
    tree.read (root.join path) = .ok bytes ∧ tree.isFile (root.join path) = true := by
  have found : tree.locate (root.join path) = .ok spot :=
    (locate_below there relative accepted).trans reached
  constructor
  · rw [FileTree.read, found]
    dsimp only
    rw [file]
  · simp [isFile, nodeAt?, found, file]

/-- A file with a dot in its name is written below directories without, where a tree is tidy. -/
theorem writes_below (tidy : tree.Tidy (tree.place root)) (whole : path.pieces = front ++ [last])
    (named : ∀ piece ∈ front ++ [last], IsName piece) (dot : '.' ∈ last.toList)
    (free : ∀ piece ∈ front, '.' ∉ piece.toList) (bytes : Bytes) :
    ∃ parented made, tree.makeParent (root.join path) = .ok parented ∧
      parented.create (root.join path) = .ok (tree.place root ++ (front ++ [last]), made) ∧
      Writes (tree.place root) (front ++ [last]) bytes tree
        (made.append (tree.place root ++ (front ++ [last])) bytes) := by
  have here := (node?_of_isDirectory there).2
  obtain ⟨parented, made, parents⟩ := makeAlong_parents
    (fun piece member => named piece (List.mem_append_left _ member)) here
    fun done first _ => tidy.directory here free first
  have located : parented.locate (root.join path) = .ok (tree.place root ++ (front ++ [last])) := by
    have still : parented.isDirectory root = true :=
      isDirectory_later parents.workingDirectory (fun _ => parents.directory) there
    rw [locate_below still relative accepted, whole, place_congr parents.workingDirectory,
      follow_names named fun _ => parents.way]
  have present (node : FileNode)
      (there : parented.node? (tree.place root ++ (front ++ [last])) = some node) :
      ∃ bytes, node = .file bytes :=
    tidy.file dot (parents.node?_file ▸ there)
  have fresh : tree.node? (tree.place root ++ (front ++ [last])) ≠ some .directory := by
    intro there
    obtain ⟨_, other⟩ := tidy.file dot there
    cases other
  refine ⟨parented, parented.set _ (.file []), ?_, ?_, parents.writes fresh named bytes⟩
  · rw [makeParent_names there relative accepted whole (named last (by simp)), made]
  · rw [create, located]
    dsimp only
    split
    · rename_i directory
      obtain ⟨_, other⟩ := present _ directory
      cases other
    · rename_i special
      obtain ⟨_, other⟩ := present _ special
      cases other
    · rfl

end Below

end UnitForge.FileTree
