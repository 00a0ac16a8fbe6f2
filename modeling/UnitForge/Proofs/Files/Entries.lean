import UnitForge.Proofs.Files.Delivery

/-! # Entries of directories

What a name leads to from a directory, and what is left of a path that was joined to a root once the
root is taken off again. -/
set_option autoImplicit false
namespace UnitForge

/-! ## Paths below a root -/

namespace Path

open FileTree (IsName)

variable {path : Path}

def markedName (piece : String) : String × Option Component :=
  (piece, some (.name piece))

theorem ofPiece?_name {piece : String} (named : IsName piece) :
    (piece, Component.ofPiece? piece) = markedName piece := by
  obtain ⟨step, down, -⟩ := named
  have moves : ¬(piece = "" ∨ piece = ".") := by simpa [isStep] using step
  rw [Component.ofPiece?, if_neg moves, if_neg down]
  rfl

theorem relative_of_names (named : ∀ piece ∈ path.pieces, IsName piece) :
    path.isAbsolute = false := by
  rw [← Bool.not_eq_true]
  intro absolute
  obtain ⟨rest, whole⟩ := pieces_of_isAbsolute absolute
  exact absurd (named "" (whole ▸ List.mem_cons_self)) (by decide)

theorem marked_join (root : Path) (named : ∀ piece ∈ path.pieces, IsName piece) :
    ∃ front, (root.join path).marked = front ++ path.pieces.map markedName ∧
      front.filterMap (·.2) = root.components := by
  have relative := relative_of_names named
  have later : path.pieces.map (fun piece => (piece, Component.ofPiece? piece)) =
      path.pieces.map markedName :=
    List.map_congr_left fun piece member => ofPiece?_name (named piece member)
  by_cases empty : root.text = ""
  · refine ⟨[], ?_, ((components_eq_nil root).mpr empty).symm⟩
    have alone : root.join path = path := by simp [join, relative, empty]
    rw [alone, List.nil_append, ← later]
    cases whole : path.pieces with
    | nil => exact absurd whole path.pieces_ne_nil
    | cons first rest =>
        have step := (named first (whole ▸ List.mem_cons_self)).1
        have here : first ≠ "." := by
          rintro rfl
          cases step
        simp [marked, whole, relative, here]
  · obtain ⟨front, some_piece, whole, joined, start⟩ := pieces_join empty relative
    obtain ⟨first, rest, rfl⟩ := List.exists_cons_of_ne_nil some_piece
    rw [List.cons_append] at whole joined
    let head := if root.isAbsolute then some Component.root
      else if first = "." then some .here else Component.ofPiece? first
    refine ⟨(first, head) :: rest.map fun piece => (piece, Component.ofPiece? piece), ?_, ?_⟩
    · rw [← later]
      simp [marked, joined, start, head]
    · have others : (rest.map fun piece => (piece, Component.ofPiece? piece)).filterMap (·.2) =
          rest.filterMap Component.ofPiece? := by
        rw [List.filterMap_map]
        rfl
      have heads : root.components = head.toList ++ rest.filterMap Component.ofPiece? :=
        components_of_front whole
      rw [heads, List.filterMap_cons, others]
      cases head <;> rfl

/-- Dropping the components of a beginning leaves nothing of it but pieces without a component. -/
theorem dropComponents_append (front rest : List (String × Option Component)) :
    ∃ idle, (∀ piece ∈ idle, piece.2 = none) ∧
      dropComponents (front ++ rest) (front.filterMap (·.2)) = some (idle ++ rest) := by
  induction front with
  | nil => exact ⟨[], nofun, by simp [dropComponents]⟩
  | cons piece front ih =>
      obtain ⟨idle, nothing, dropped⟩ := ih
      obtain ⟨text, component⟩ := piece
      cases component with
      | some component => exact ⟨idle, nothing, by simpa [dropComponents] using dropped⟩
      | none =>
          cases expected : front.filterMap (·.2) with
          | nil =>
              refine ⟨(text, none) :: front, ?_, by simp [expected, dropComponents]⟩
              simpa using List.filterMap_eq_nil_iff.mp expected
          | cons next others =>
              rw [expected] at dropped
              exact ⟨idle, nothing, by simpa [expected, dropComponents] using dropped⟩

theorem trimMarked_names {idle : List (String × Option Component)}
    (nothing : ∀ piece ∈ idle, piece.2 = none) (names : List String) :
    trimMarked (idle ++ names.map markedName) = names.map markedName := by
  have kept (names : List String) : (names.map markedName).dropWhile (·.2.isNone) =
      names.map markedName := by
    cases names <;> simp [markedName]
  unfold trimMarked
  rw [List.dropWhile_append_of_pos (by simpa using nothing), kept]
  dsimp only
  rw [← List.map_reverse, kept, List.map_reverse, List.reverse_reverse]

theorem textOfMarked_names (names : List String) :
    textOfMarked (names.map markedName) = "/".intercalate names := by
  unfold textOfMarked
  split
  · rename_i same
    cases names <;> simp [markedName] at same
  · rw [List.map_map]
    exact congrArg _ (List.map_id names)

theorem stripBase?_join (root : Path) (named : ∀ piece ∈ path.pieces, IsName piece) :
    (root.join path).stripBase? root = some path.text := by
  obtain ⟨front, marked, components⟩ := marked_join root named
  obtain ⟨idle, nothing, dropped⟩ := dropComponents_append front (path.pieces.map markedName)
  rw [stripBase?, marked, ← components, dropped, Option.map_some, trimMarked_names nothing,
    textOfMarked_names]
  exact congrArg some (Text.intercalate_splitOn '/' path.text)

theorem text_ne_empty_of_names (named : ∀ piece ∈ path.pieces, IsName piece) : path.text ≠ "" := by
  intro empty
  have whole : path.pieces = [""] := by simp [pieces, empty, Text.splitOn, Text.stretches]
  exact absurd (named "" (whole ▸ List.mem_cons_self)) (by decide)

theorem getLast?_ne_of_names (named : ∀ piece ∈ path.pieces, IsName piece) :
    path.text.toList.getLast? ≠ some '/' := by
  intro ended
  obtain ⟨cs, chars⟩ := List.getLast?_eq_some_iff.mp ended
  have text : path.text = String.ofList cs ++ String.singleton '/' ++ "" := by
    rw [← String.toList_inj, chars]
    simp
  have whole : path.pieces = Text.splitOn '/' (String.ofList cs) ++ [""] := by
    rw [pieces, text]
    exact Text.splitOn_join _ _
  exact absurd (named "" (by simp [whole])) (by decide)

/-- A text that ends with names is a root that a separator is put after. -/
theorem join_of_names (front : String) {path file : Path}
    (named : ∀ piece ∈ path.pieces, IsName piece) (relative : file.isAbsolute = false) :
    (Path.mk (front ++ path.text)).join file = ⟨front ++ path.text ++ "/" ++ file.text⟩ := by
  have some_text := text_ne_empty_of_names named
  have last := getLast?_ne_of_names named
  have nonempty : (front ++ path.text).isEmpty = false := by simp [some_text]
  have unended : (front ++ path.text).toList.getLast? ≠ some '/' := by
    rw [String.toList_append, List.getLast?_append]
    cases found : path.text.toList.getLast? with
    | none => simp [some_text] at found
    | some c => simpa [found] using last
  simp only [join, relative, nonempty, unended]
  simp

theorem join_join (root : Path) {path file : Path}
    (named : ∀ piece ∈ path.pieces, IsName piece) (relative : file.isAbsolute = false) :
    (root.join path).join file = root.join ⟨path.text ++ "/" ++ file.text⟩ := by
  have start := relative_of_names named
  have start' : (Path.mk (path.text ++ "/" ++ file.text)).isAbsolute = false := by
    cases chars : path.text.toList with
    | nil => exact absurd (String.toList_eq_nil_iff.mp chars) (text_ne_empty_of_names named)
    | cons c rest => simpa [isAbsolute, chars] using start
  by_cases ended : root.text.isEmpty ∨ root.text.toList.getLast? = some '/'
  · have first : root.join path = ⟨root.text ++ path.text⟩ := by
      rw [join, start, if_neg Bool.false_ne_true, if_pos ended]
    rw [first, join_of_names root.text named relative, join, start', if_neg Bool.false_ne_true,
      if_pos ended, String.append_assoc, String.append_assoc, String.append_assoc]
  · have first : root.join path = ⟨root.text ++ "/" ++ path.text⟩ := by
      rw [join, start, if_neg Bool.false_ne_true, if_neg ended]
    rw [first, join_of_names (root.text ++ "/") named relative, join, start',
      if_neg Bool.false_ne_true, if_neg ended]
    simp only [String.append_assoc]

end Path

/-! ## Files in a directory -/

namespace FileTree

variable {tree : FileTree} {location : FileLocation} {directory : Path} {name : String}

/-- A tree as a file system keeps it: everything has a name that it can have. -/
def Stored (tree : FileTree) : Prop :=
  ∀ entry ∈ tree.entries, ∀ piece ∈ entry.1, IsName piece ∧ isValidPiece piece = true

instance : DecidablePred Stored :=
  fun tree => inferInstanceAs (Decidable (∀ entry ∈ tree.entries, ∀ piece ∈ entry.1, _ ∧ _))

theorem mem_names_iff :
    name ∈ tree.names location ↔ (tree.node? (location ++ [name])).isSome = true := by
  have below : location ++ [name] ≠ [] := by simp
  rw [names, List.mem_mergeSort, List.mem_filterMap, node?, if_neg below, List.lookup_isSome_iff]
  apply exists_congr
  intro entry
  apply and_congr_right
  intro _
  rw [beq_iff_eq]
  constructor
  · intro named
    dsimp only at named
    split at named
    · rename_i last found
      split at named
      · rename_i same
        cases named
        rw [← same]
        exact List.dropLast_append_getLast? _ found
      · cases named
    · cases named
  · intro same
    simp [← same]

theorem Stored.named (stored : tree.Stored)
    (there : (tree.node? (location ++ [name])).isSome = true) :
    IsName name ∧ isValidPiece name = true := by
  have below : location ++ [name] ≠ [] := by simp
  rw [node?, if_neg below, List.lookup_isSome_iff] at there
  obtain ⟨entry, member, same⟩ := there
  exact stored entry member name (by simp [← beq_iff_eq.mp same])

theorem isShort_of_join {path : Path} (relative : path.isAbsolute = false)
    (short : isShort (directory.join path) = true) : isShort directory = true := by
  rw [isShort, decide_eq_true_iff] at short ⊢
  refine Nat.lt_of_le_of_lt ?_ short
  unfold Path.join
  rw [if_neg (Bool.eq_false_iff.mp relative)]
  split <;> simp only [String.utf8ByteSize_append] <;> omega

theorem pieces_of_name (named : IsName name) : (Path.mk name).pieces = [name] :=
  Text.splitOn_of_not_mem named.2.2

theorem isFile_iff {path : Path} :
    tree.isFile path = true ↔ ∃ bytes, tree.nodeAt? path = some (.file bytes) := by
  unfold isFile
  rcases tree.nodeAt? path with _ | _ | _ | _ <;> simp

/-- What a name leads to from a directory, if the path of both is not too long. -/
theorem nodeAt?_entry (there : tree.isDirectory directory = true) (named : IsName name)
    (valid : isValidPiece name = true) : tree.nodeAt? (directory.join ⟨name⟩) =
      if isShort (directory.join ⟨name⟩) then tree.node? (tree.place directory ++ [name])
      else none := by
  have pieces := pieces_of_name named
  have relative : (Path.mk name).isAbsolute = false :=
    Path.relative_of_names (by simpa [pieces] using named)
  obtain ⟨front, joined, fronts, -, -⟩ := follow_join there relative
  by_cases short : isShort (directory.join ⟨name⟩) = true
  · have accepted : isAccepted (directory.join ⟨name⟩).pieces = true := by
      rw [isAccepted_iff, joined, pieces]
      exact ⟨short, by simpa using ⟨List.all_eq_true.mp fronts, valid⟩⟩
    rw [if_pos short, nodeAt?, locate_below there relative accepted, pieces,
      follow_cons (node?_of_isDirectory there).2, follow, stepTo_name named]
  · rw [if_neg short, nodeAt?, locate, if_neg short]

theorem isDirectory_of_isFile (some_text : directory.text ≠ "") (named : IsName name)
    (found : tree.isFile (directory.join ⟨name⟩) = true) :
    tree.isDirectory directory = true ∧ isValidPiece name = true := by
  have pieces := pieces_of_name named
  have relative : (Path.mk name).isAbsolute = false :=
    Path.relative_of_names (by simpa [pieces] using named)
  obtain ⟨bytes, there⟩ := isFile_iff.mp found
  obtain ⟨short, resolved⟩ := locate_run (nodeAt?_eq_some.mp there).1
  obtain ⟨valid, -, followed⟩ := resolve_run resolved
  obtain ⟨front, -, whole, joined, -⟩ := Path.pieces_join some_text relative
  rw [joined, pieces] at followed valid
  rw [List.all_append, Bool.and_eq_true] at valid
  rw [startOf_join directory relative] at followed
  obtain ⟨middle, first, rest⟩ := follow_of_append followed
  have there := node?_of_follow_cons rest
  have resolves : tree.resolve directory = .ok middle := by
    have nonempty : directory.text.isEmpty = false := by simpa using some_text
    rcases whole with same | same
    · rw [resolve, same, valid.1, nonempty]
      exact first
    · rw [resolve, same, List.all_append, valid.1, nonempty, follow_append first,
        follow_cons there, follow, stepTo_of_idle (by decide)]
      rfl
  have way : tree.locate directory = .ok middle := by
    rw [locate, if_pos (isShort_of_join relative short), resolves]
  refine ⟨decide_eq_true ?_, by simpa using valid.2⟩
  simp [nodeAt?, way, there]

/-! ## Entries that are listed -/

/-- In a directory there is something of a name that does not pass for a directory. -/
def Lists (tree : FileTree) (directory : Path) (name : String) : Prop :=
  tree.isDirectory directory = true ∧
    (tree.node? (tree.place directory ++ [name])).isSome = true ∧
    tree.isDirectory (directory.join ⟨name⟩) = false

/-- What is listed, but not found as a file: it is special, or its path is too long. -/
def Stray (tree : FileTree) (directory : Path) (name : String) : Prop :=
  tree.isDirectory directory = true ∧ ∃ node,
    tree.node? (tree.place directory ++ [name]) = some node ∧
      (node = .special ∨ isShort (directory.join ⟨name⟩) = false)

/-- Whether the entries of a directory can be read, if it is one. -/
def Readable (tree : FileTree) (directory : Path) : Prop :=
  tree.isDirectory directory = true → tree.place directory ∉ tree.sealed

instance : DecidablePred tree.Readable :=
  fun _ => inferInstanceAs (Decidable (_ = true → _ ∉ _))

theorem lists_iff (stored : tree.Stored) (some_text : directory.text ≠ "") (named : IsName name) :
    tree.Lists directory name ↔
      tree.isFile (directory.join ⟨name⟩) = true ∨ tree.Stray directory name := by
  constructor
  · rintro ⟨there, present, other⟩
    obtain ⟨-, valid⟩ := stored.named present
    have entry := nodeAt?_entry there named valid
    obtain ⟨node, here⟩ := Option.isSome_iff_exists.mp present
    by_cases short : isShort (directory.join ⟨name⟩) = true
    · rw [if_pos short, here] at entry
      cases node with
      | directory => simp [isDirectory, entry] at other
      | file bytes => exact .inl (isFile_iff.mpr ⟨bytes, entry⟩)
      | special => exact .inr ⟨there, _, here, .inl rfl⟩
    · exact .inr ⟨there, node, here, .inr (Bool.eq_false_iff.mpr short)⟩
  · rintro (found | ⟨there, node, here, stray⟩)
    · obtain ⟨there, valid⟩ := isDirectory_of_isFile some_text named found
      obtain ⟨bytes, leads⟩ := isFile_iff.mp found
      have entry := nodeAt?_entry there named valid
      rw [if_pos (tree.isShort_of_isFile found), leads] at entry
      exact ⟨there, by rw [← entry]; rfl, by simp [isDirectory, leads]⟩
    · have present : (tree.node? (tree.place directory ++ [name])).isSome = true := by
        rw [here]
        rfl
      refine ⟨there, present, ?_⟩
      have entry := nodeAt?_entry there named (stored.named present).2
      rcases stray with rfl | long
      · rw [here] at entry
        rw [isDirectory, entry]
        split <;> rfl
      · rw [if_neg (Bool.eq_false_iff.mp long)] at entry
        rw [isDirectory, entry]
        rfl

theorem readDirectory_of_readable (there : tree.isDirectory directory = true)
    (readable : tree.Readable directory) :
    tree.readDirectory directory = .ok (tree.names (tree.place directory)) := by
  obtain ⟨located, node⟩ := node?_of_isDirectory there
  rw [readDirectory, located]
  simp [node, readable there]

theorem readDirectory_of_sealed (there : tree.isDirectory directory = true)
    (closed : ¬tree.Readable directory) : tree.readDirectory directory = .error .unreadable := by
  obtain ⟨located, node⟩ := node?_of_isDirectory there
  have hidden : tree.place directory ∈ tree.sealed := by
    by_contra open_
    exact closed fun _ => open_
  rw [readDirectory, located]
  simp [node, hidden]

end FileTree

end UnitForge
