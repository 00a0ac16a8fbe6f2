import UnitForge.Proofs.Files.Places

/-! # Following paths

If a path can be followed, where it leads is decided by its steps alone. Making directories along a
path adds directories on its way and changes nothing else; where the way is there already, nothing
is added. -/
set_option autoImplicit false
namespace UnitForge.FileTree

variable {tree after : FileTree} {location base spot : FileLocation} {piece : String}
  {front rest pieces : List String} {path : Path}

/-! ## Steps -/

def stepTo (location : FileLocation) (piece : String) : FileLocation :=
  if piece = "" ∨ piece = "." then location
  else if piece = ".." then location.dropLast
  else location ++ [piece]

/-- The location that pieces lead to if everything on their way is there. -/
def trace (location : FileLocation) (pieces : List String) : FileLocation :=
  pieces.foldl stepTo location

def place (tree : FileTree) (path : Path) : FileLocation :=
  trace (tree.startOf path) path.pieces

theorem place_congr (same : after.workingDirectory = tree.workingDirectory) (path : Path) :
    after.place path = tree.place path := by
  rw [place, place, startOf, startOf, same]

theorem trace_append : trace location (front ++ rest) = trace (trace location front) rest :=
  List.foldl_append

theorem stepTo_of_idle (idle : Path.isStep piece = false) : stepTo location piece = location :=
  if_pos (Path.isStep_eq_false.mp idle)

theorem trace_filter (location : FileLocation) (pieces : List String) :
    trace location (pieces.filter Path.isStep) = trace location pieces := by
  induction pieces generalizing location with
  | nil => rfl
  | cons piece rest ih =>
      by_cases step : Path.isStep piece = true
      · rw [List.filter_cons_of_pos step]
        exact ih _
      · have idle := Bool.eq_false_iff.mpr step
        rw [List.filter_cons_of_neg step, ih]
        change _ = trace (stepTo location piece) rest
        rw [stepTo_of_idle idle]

theorem prefix_stepTo (location : FileLocation) (down : piece ≠ "..") :
    location <+: stepTo location piece := by
  unfold stepTo
  by_cases idle : piece = "" ∨ piece = "."
  · simp only [if_pos idle, List.prefix_rfl]
  · simp only [if_neg idle, if_neg down, List.prefix_append]

theorem prefix_trace (location : FileLocation) (down : ".." ∉ pieces) :
    location <+: trace location pieces := by
  induction pieces generalizing location with
  | nil => exact List.prefix_rfl
  | cons piece rest ih =>
      rw [List.mem_cons, not_or] at down
      exact (prefix_stepTo location (Ne.symm down.1)).trans (ih _ down.2)

/-! ## Following -/

theorem follow_cons (there : tree.node? location = some .directory) (piece : String)
    (rest : List String) :
    tree.follow location (piece :: rest) = tree.follow (stepTo location piece) rest := by
  rw [follow, there]
  unfold stepTo
  dsimp only
  split
  · rfl
  · split <;> rfl

theorem node?_of_follow_cons (found : tree.follow location (piece :: rest) = .ok base) :
    tree.node? location = some .directory := by
  rw [follow] at found
  cases there : tree.node? location with
  | none => rw [there] at found; cases found
  | some node =>
      cases node with
      | file | special => rw [there] at found; cases found
      | directory => rfl

theorem follow_trace (found : tree.follow location pieces = .ok base) :
    base = trace location pieces := by
  induction pieces generalizing location with
  | nil =>
      rw [follow] at found
      cases found
      rfl
  | cons piece rest ih =>
      rw [follow_cons (node?_of_follow_cons found)] at found
      exact ih found

theorem follow_append (found : tree.follow location front = .ok base) (rest : List String) :
    tree.follow location (front ++ rest) = tree.follow base rest := by
  induction front generalizing location with
  | nil =>
      rw [follow] at found
      cases found
      rfl
  | cons piece front ih =>
      have there := node?_of_follow_cons found
      rw [follow_cons there] at found
      rw [List.cons_append, follow_cons there]
      exact ih found

theorem follow_of_append (found : tree.follow location (front ++ rest) = .ok base) :
    ∃ middle, tree.follow location front = .ok middle ∧ tree.follow middle rest = .ok base := by
  induction front generalizing location with
  | nil => exact ⟨location, by rw [follow], found⟩
  | cons piece front ih =>
      have there := node?_of_follow_cons (List.cons_append ▸ found)
      rw [List.cons_append, follow_cons there] at found
      rw [follow_cons there]
      exact ih found

theorem follow_beginning (found : tree.follow location (front ++ rest) = .ok base)
    (directory : tree.node? base = some .directory) :
    ∃ middle, tree.follow location front = .ok middle ∧
      tree.node? middle = some .directory := by
  obtain ⟨middle, first, later⟩ := follow_of_append found
  refine ⟨middle, first, ?_⟩
  cases rest with
  | nil =>
      rw [follow] at later
      cases later
      exact directory
  | cons _ _ => exact node?_of_follow_cons later

theorem resolve_run (found : tree.resolve path = .ok base) :
    path.pieces.all isValidPiece = true ∧ path.text ≠ "" ∧
      tree.follow (tree.startOf path) path.pieces = .ok base := by
  unfold resolve at found
  split at found
  · cases found
  · rename_i valid
    split at found
    · cases found
    · rename_i nonempty
      exact ⟨by simpa using valid, by simpa using nonempty, found⟩

theorem locate_run (found : tree.locate path = .ok base) :
    isShort path = true ∧ tree.resolve path = .ok base := by
  unfold locate at found
  split at found
  · rename_i short
    exact ⟨short, found⟩
  · cases found

theorem place_of_locate (found : tree.locate path = .ok base) : base = tree.place path :=
  follow_trace (resolve_run (locate_run found).2).2.2

theorem nodeAt?_eq_some {node : FileNode} : tree.nodeAt? path = some node ↔
    tree.locate path = .ok (tree.place path) ∧ tree.node? (tree.place path) = some node := by
  unfold nodeAt?
  cases located : tree.locate path with
  | error fault => simp
  | ok base =>
      rw [place_of_locate located]
      simp

theorem node?_of_isDirectory (directory : tree.isDirectory path = true) :
    tree.locate path = .ok (tree.place path) ∧
      tree.node? (tree.place path) = some .directory :=
  nodeAt?_eq_some.mp (of_decide_eq_true directory)

theorem node?_of_read {bytes : Bytes} (read : tree.read path = .ok bytes) :
    tree.node? (tree.place path) = some (.file bytes) := by
  unfold FileTree.read at read
  split at read
  · cases read
  · rename_i location located
    rw [← place_of_locate located]
    split at read
    · rename_i known there
      cases read
      exact there
    all_goals cases read

/-! ## Changes -/

theorem node?_set_self (below : location ≠ []) (node : FileNode) :
    (tree.set location node).node? location = some node := by
  simp [node?, set, below]

theorem lookup_filter_ne {α β : Type} [BEq α] [LawfulBEq α] [DecidableEq α] {key other : α}
    (ne : other ≠ key) (entries : List (α × β)) :
    (entries.filter (·.1 ≠ key)).lookup other = entries.lookup other := by
  induction entries with
  | nil => rfl
  | cons entry rest ih =>
      obtain ⟨name, value⟩ := entry
      by_cases same : name = key
      · have skips : (other == name) = false := by simpa [same] using ne
        rw [List.filter_cons_of_neg (by simp [same]), ih, List.lookup_cons, skips]
      · rw [List.filter_cons_of_pos (by simp [same]), List.lookup_cons, List.lookup_cons, ih]

theorem node?_set_other (ne : spot ≠ location) (node : FileNode) :
    (tree.set location node).node? spot = tree.node? spot := by
  have skips : (spot == location) = false := by simpa using ne
  unfold node? set
  dsimp only
  rw [List.lookup_cons, skips, lookup_filter_ne ne]

/-- A later tree with more directories at some locations, and nothing else new. -/
structure Grows (within : FileLocation → Prop) (before after : FileTree) : Prop where
  workingDirectory : after.workingDirectory = before.workingDirectory
  changed : ∀ spot, after.node? spot = before.node? spot ∨
    before.node? spot = none ∧ after.node? spot = some .directory ∧ within spot

variable {within : FileLocation → Prop}

theorem Grows.refl (tree : FileTree) : Grows within tree tree :=
  ⟨rfl, fun _ => .inl rfl⟩

theorem Grows.mono {other : FileLocation → Prop} (grows : Grows within tree after)
    (included : ∀ spot, within spot → other spot) : Grows other tree after := by
  refine ⟨grows.workingDirectory, ?_⟩
  intro spot
  rcases grows.changed spot with same | ⟨absent, made, inside⟩
  · exact .inl same
  · exact .inr ⟨absent, made, included spot inside⟩

theorem Grows.of_set (none : tree.node? location = none) (inside : within location)
    (grows : Grows within (tree.set location .directory) after) : Grows within tree after where
  workingDirectory := grows.workingDirectory
  changed spot := by
    have below : location ≠ [] := by
      rintro rfl
      simp [node?] at none
    by_cases same : spot = location
    · subst same
      have made : (tree.set spot .directory).node? spot = some .directory :=
        node?_set_self below .directory
      rcases grows.changed spot with kept | ⟨absent, -, -⟩
      · exact .inr ⟨none, kept.trans made, inside⟩
      · rw [made] at absent
        cases absent
    · have kept : (tree.set location .directory).node? spot = tree.node? spot :=
        node?_set_other same .directory
      rw [← kept]
      exact grows.changed spot

theorem Grows.directory (grows : Grows within tree after)
    (directory : tree.node? location = some .directory) :
    after.node? location = some .directory := by
  rcases grows.changed location with kept | ⟨-, made, -⟩
  · exact kept.trans directory
  · exact made

/-! ## Making directories -/

theorem makeAlong_there (there : tree.node? (stepTo location piece) = some .directory)
    (rest : List String) :
    tree.makeAlong location (piece :: rest) = tree.makeAlong (stepTo location piece) rest := by
  rw [makeAlong]
  unfold stepTo at there ⊢
  by_cases idle : piece = "" ∨ piece = "."
  · simp only [if_pos idle]
  · by_cases up : piece = ".."
    · simp only [if_neg idle, if_pos up]
    · simp only [if_neg idle, if_neg up] at there ⊢
      rw [there]

theorem makeAlong_over (found : tree.follow location front = .ok base)
    (directory : tree.node? base = some .directory) (rest : List String) :
    tree.makeAlong location (front ++ rest) = tree.makeAlong base rest := by
  induction front generalizing location with
  | nil =>
      rw [follow] at found
      cases found
      rfl
  | cons piece front ih =>
      rw [follow_cons (node?_of_follow_cons found)] at found
      have there : tree.node? (stepTo location piece) = some .directory := by
        cases front with
        | nil =>
            rw [follow] at found
            cases found
            exact directory
        | cons _ _ => exact node?_of_follow_cons found
      rw [List.cons_append, makeAlong_there there, ih found]

theorem makeAlong_known (found : tree.follow location pieces = .ok base)
    (directory : tree.node? base = some .directory) : tree.makeAlong location pieces = .ok tree := by
  have whole := makeAlong_over found directory []
  rwa [List.append_nil, makeAlong] at whole

/-- The directories that are made stand where the pieces lead one after the other. -/
theorem makeAlong_grows (run : tree.makeAlong location pieces = .ok after) :
    Grows (fun spot => ∃ done, done <+: pieces ∧ spot = trace location done) tree after := by
  induction pieces generalizing location tree with
  | nil =>
      rw [makeAlong] at run
      cases run
      exact .refl _
  | cons piece rest ih =>
      have later (spot : FileLocation)
          (inside : ∃ done, done <+: rest ∧ spot = trace (stepTo location piece) done) :
          ∃ done, done <+: piece :: rest ∧ spot = trace location done := by
        obtain ⟨done, first, same⟩ := inside
        exact ⟨piece :: done, List.cons_prefix_cons.mpr ⟨rfl, first⟩, same⟩
      by_cases there : tree.node? (stepTo location piece) = some FileNode.directory
      · rw [makeAlong_there there] at run
        exact (ih run).mono later
      · unfold stepTo at there later
        rw [makeAlong] at run
        by_cases idle : piece = "" ∨ piece = "."
        · simp only [if_pos idle] at run later
          exact (ih run).mono later
        · by_cases up : piece = ".."
          · simp only [if_neg idle, if_pos up] at run later
            exact (ih run).mono later
          · simp only [if_neg idle, if_neg up] at run there later
            cases node : tree.node? (location ++ [piece]) with
            | none =>
                rw [node] at run
                exact .of_set node (later _ ⟨[], List.nil_prefix, rfl⟩) ((ih run).mono later)
            | some node' =>
                rw [node] at run
                cases node' with
                | file | special => cases run
                | directory => exact absurd node there

theorem trimEnd_isPrefix (pieces : List String) : trimEnd pieces <+: pieces := by
  have suffix := List.dropWhile_suffix (l := pieces.reverse) fun piece => piece = "" ∨ piece = "."
  have reversed := List.reverse_prefix.mpr suffix
  rwa [List.reverse_reverse] at reversed

theorem parentPieces_isPrefix (path : Path) : parentPieces path <+: path.pieces := by
  exact (List.dropLast_prefix _).trans (trimEnd_isPrefix path.pieces)

end UnitForge.FileTree
