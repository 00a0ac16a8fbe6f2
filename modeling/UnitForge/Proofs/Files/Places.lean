import UnitForge.Files.Tree
import UnitForge.Proofs.Text.Pieces

/-! # Where paths lead

Two paths of the same components may be written differently, but a path that goes on from one of
them leads where it leads from the other. -/
set_option autoImplicit false
namespace UnitForge

namespace Path

def isStep (piece : String) : Bool :=
  !(piece = "" ∨ piece = ".")

theorem isStep_eq_false {piece : String} : isStep piece = false ↔ piece = "" ∨ piece = "." := by
  rw [isStep, Bool.not_eq_false', decide_eq_true_iff]

def steps (path : Path) : List String :=
  path.pieces.filter isStep

namespace Component

def piece? : Component → Option String
  | .root | .here => none
  | .up => some ".."
  | .name text => some text

theorem piece?_ofPiece? (piece : String) :
    (ofPiece? piece).bind piece? = if isStep piece then some piece else none := by
  unfold ofPiece?
  by_cases idle : piece = "" ∨ piece = "."
  · simp [isStep, idle]
  · by_cases up : piece = ".."
    · simp [up, isStep, piece?]
    · simp [isStep, idle, up, piece?]

theorem ofPiece?_ne_root (piece : String) : ofPiece? piece ≠ some .root := by
  unfold ofPiece?
  split
  · nofun
  · split <;> nofun

end Component

variable {path a b : Path}

theorem pieces_ne_nil (path : Path) : path.pieces ≠ [] :=
  Text.splitOn_ne_nil '/' path.text

theorem pieces_of_isAbsolute (absolute : path.isAbsolute = true) :
    ∃ rest, path.pieces = "" :: rest := by
  obtain ⟨rest, chars⟩ : ∃ rest, path.text.toList = '/' :: rest := by
    cases chars : path.text.toList with
    | nil => simp [isAbsolute, chars] at absolute
    | cons c rest =>
        have slash : c = '/' := by simpa [isAbsolute, chars] using absolute
        exact ⟨rest, slash ▸ rfl⟩
  refine ⟨(Text.stretches '/' rest).map String.ofList, ?_⟩
  simp [pieces, Text.splitOn, chars, Text.stretches]

theorem text_eq_empty {rest : List String} (whole : path.pieces = "" :: rest)
    (relative : path.isAbsolute = false) : path.text = "" := by
  cases chars : path.text.toList with
  | nil => exact String.toList_eq_nil_iff.mp chars
  | cons c more =>
      have other : c ≠ '/' := by simpa [isAbsolute, chars] using relative
      have nonempty := Text.stretches_ne_nil '/' more
      cases stretches : Text.stretches '/' more with
      | nil => exact absurd stretches nonempty
      | cons first others =>
          simp [pieces, Text.splitOn, chars, Text.stretches, other, stretches] at whole

theorem components_eq {first : String} {rest : List String} (whole : path.pieces = first :: rest) :
    path.components =
      (if path.isAbsolute then some .root
        else if first = "." then some .here else Component.ofPiece? first).toList ++
      rest.filterMap Component.ofPiece? := by
  have others : (rest.map fun piece => (piece, Component.ofPiece? piece)).filterMap (·.2) =
      rest.filterMap Component.ofPiece? := by
    rw [List.filterMap_map]
    rfl
  simp only [components, marked, whole, List.filterMap_cons, others]
  split <;> simp_all

theorem steps_eq (path : Path) : path.steps = path.components.filterMap Component.piece? := by
  have later (rest : List String) :
      (rest.filterMap Component.ofPiece?).filterMap Component.piece? = rest.filter isStep := by
    rw [List.filterMap_filterMap]
    simp only [Component.piece?_ofPiece?]
    induction rest with
    | nil => rfl
    | cons piece rest ih =>
        by_cases step : isStep piece = true <;> simp [step, ih]
  cases whole : path.pieces with
  | nil => exact absurd whole path.pieces_ne_nil
  | cons first rest =>
      rw [components_eq whole, List.filterMap_append, later, steps, whole]
      by_cases absolute : path.isAbsolute = true
      · obtain ⟨others, same⟩ := pieces_of_isAbsolute absolute
        obtain rfl : first = "" := (List.cons.inj (whole.symm.trans same)).1
        simp [absolute, Component.piece?, isStep]
      · rw [if_neg absolute]
        by_cases here : first = "."
        · simp [here, Component.piece?, isStep]
        · rw [if_neg here]
          have one := Component.piece?_ofPiece? first
          cases given : Component.ofPiece? first <;> rw [given] at one <;>
            by_cases step : isStep first = true <;> simp_all

theorem isAbsolute_iff (path : Path) : path.isAbsolute = true ↔ .root ∈ path.components := by
  cases whole : path.pieces with
  | nil => exact absurd whole path.pieces_ne_nil
  | cons first rest =>
      have none_later : Component.root ∉ rest.filterMap Component.ofPiece? := by
        intro member
        obtain ⟨piece, -, given⟩ := List.mem_filterMap.mp member
        exact Component.ofPiece?_ne_root piece given
      rw [components_eq whole]
      by_cases absolute : path.isAbsolute = true
      · simp [absolute]
      · have first_other := Component.ofPiece?_ne_root first
        by_cases here : first = "." <;> simp [absolute, here, none_later, first_other]

theorem components_eq_nil (path : Path) : path.components = [] ↔ path.text = "" := by
  constructor
  · intro none
    have relative : path.isAbsolute = false := by
      rw [← Bool.not_eq_true, isAbsolute_iff, none]
      exact List.not_mem_nil
    cases whole : path.pieces with
    | nil => exact absurd whole path.pieces_ne_nil
    | cons first rest =>
        obtain ⟨head, -⟩ := List.append_eq_nil_iff.mp ((components_eq whole).symm.trans none)
        rw [if_neg (Bool.eq_false_iff.mp relative)] at head
        by_cases here : first = "."
        · rw [if_pos here] at head
          cases head
        · have idle := Component.piece?_ofPiece? first
          rw [if_neg here, Option.toList_eq_nil_iff] at head
          rw [head] at idle
          have empty : first = "" := by simpa [isStep, here] using idle
          exact text_eq_empty (empty ▸ whole) relative
  · intro empty
    simp [components, marked, pieces, isAbsolute, empty, Text.splitOn, Text.stretches,
      Component.ofPiece?]

theorem steps_of_same (same : a.same b = true) : a.steps = b.steps := by
  rw [steps_eq, steps_eq, of_decide_eq_true same]

theorem isAbsolute_of_same (same : a.same b = true) : a.isAbsolute = b.isAbsolute := by
  rw [Bool.eq_iff_iff, isAbsolute_iff, isAbsolute_iff, of_decide_eq_true same]

/-- The pieces of a path that goes on from another one, which may end in a slash. -/
theorem pieces_join (some_text : a.text ≠ "") (relative : path.isAbsolute = false) :
    ∃ front, front ≠ [] ∧ (a.pieces = front ∨ a.pieces = front ++ [""]) ∧
      (a.join path).pieces = front ++ path.pieces ∧ (a.join path).isAbsolute = a.isAbsolute := by
  have whole : a.text.isEmpty = false := by simpa using some_text
  have kept (rest : String) : (Path.mk (a.text ++ rest)).isAbsolute = a.isAbsolute := by
    cases chars : a.text.toList with
    | nil => exact absurd (String.toList_eq_nil_iff.mp chars) some_text
    | cons c cs => simp [isAbsolute, chars]
  by_cases ended : a.text.toList.getLast? = some '/'
  · have joined : a.join path = ⟨a.text ++ path.text⟩ := by simp [join, relative, ended]
    obtain ⟨cs, chars⟩ := List.getLast?_eq_some_iff.mp ended
    have text : a.text = String.ofList cs ++ "/" ++ "" := by
      rw [← String.toList_inj, chars]
      simp
    refine ⟨Text.splitOn '/' (String.ofList cs), Text.splitOn_ne_nil _ _, .inr ?_, ?_,
      by rw [joined, kept]⟩
    · rw [pieces, text]
      exact Text.splitOn_join _ _
    · rw [joined, pieces, pieces, ← Text.splitOn_join, text]
      simp
  · have joined : a.join path = ⟨a.text ++ "/" ++ path.text⟩ := by
      simp [join, relative, ended, whole]
    refine ⟨a.pieces, a.pieces_ne_nil, .inl rfl, ?_, by rw [joined, String.append_assoc, kept]⟩
    rw [joined]
    exact Text.splitOn_join _ _

theorem steps_of_front {front : List String} (whole : a.pieces = front ∨ a.pieces = front ++ [""]) :
    front.filter isStep = a.steps := by
  rcases whole with same | same
  · rw [steps, same]
  · rw [steps, same, List.filter_append]
    simp [isStep]

theorem components_of_front {first : String} {rest : List String}
    (whole : a.pieces = first :: rest ∨ a.pieces = first :: (rest ++ [""])) :
    a.components =
      (if a.isAbsolute then some .root
        else if first = "." then some .here else Component.ofPiece? first).toList ++
      rest.filterMap Component.ofPiece? := by
  rcases whole with same | same
  · exact components_eq same
  · rw [components_eq same, List.filterMap_append]
    simp [Component.ofPiece?]

theorem components_join (a : Path) (relative : path.isAbsolute = false) :
    a.components <+: (a.join path).components := by
  by_cases empty : a.text = ""
  · rw [(components_eq_nil a).mpr empty]
    exact List.nil_prefix
  · obtain ⟨front, some_piece, whole, joined, start⟩ := pieces_join empty relative
    obtain ⟨first, rest, rfl⟩ := List.exists_cons_of_ne_nil some_piece
    rw [List.cons_append] at whole joined
    rw [components_eq joined, components_of_front whole, start, List.filterMap_append,
      ← List.append_assoc]
    exact List.prefix_append _ _

end Path

namespace FileTree

variable (tree : FileTree) {a b : Path}

/-- A piece that makes no step means nothing in front of another piece. -/
theorem follow_idle {piece : String} (idle : Path.isStep piece = false) (location : FileLocation)
    (next : String) (rest : List String) :
    tree.follow location (piece :: next :: rest) = tree.follow location (next :: rest) := by
  have nothing := Path.isStep_eq_false.mp idle
  rw [follow]
  cases there : tree.node? location with
  | none => rw [follow, there]
  | some node =>
      cases node with
      | file | special => rw [follow, there]
      | directory =>
          dsimp only
          rw [if_pos nothing]

theorem follow_steps (front : List String) {rest : List String} (some_piece : rest ≠ [])
    (location : FileLocation) :
    tree.follow location (front ++ rest) =
      tree.follow location (front.filter Path.isStep ++ rest) := by
  induction front generalizing location with
  | nil => rfl
  | cons piece front ih =>
      by_cases step : Path.isStep piece = true
      · have moves : ¬(piece = "" ∨ piece = ".") := by simpa [Path.isStep] using step
        rw [List.filter_cons_of_pos step, List.cons_append, List.cons_append, follow, follow]
        simp only [if_neg moves, ih]
      · have idle := Bool.eq_false_iff.mpr step
        rw [List.filter_cons_of_neg step, ← ih, List.cons_append]
        cases more : front ++ rest with
        | nil => exact absurd (List.append_eq_nil_iff.mp more).2 some_piece
        | cons next others => exact tree.follow_idle idle location next others

theorem all_isValidPiece (pieces : List String) :
    pieces.all isValidPiece = (pieces.filter Path.isStep).all isValidPiece := by
  rw [List.all_filter]
  congr 1
  funext piece
  by_cases step : Path.isStep piece = true
  · simp [step]
  · rcases Path.isStep_eq_false.mp (Bool.eq_false_iff.mpr step) with rfl | rfl <;> decide

theorem resolve_join (same : a.same b = true) (path : Path) :
    tree.resolve (a.join path) = tree.resolve (b.join path) := by
  have components : a.components = b.components := of_decide_eq_true same
  by_cases absolute : path.isAbsolute = true
  · simp [Path.join, absolute]
  by_cases empty : a.text = ""
  · have other : b.text = "" := by
      rwa [← Path.components_eq_nil, ← components, Path.components_eq_nil]
    simp [Path.join, empty, other]
  have other : b.text ≠ "" := by
    rwa [Ne, ← Path.components_eq_nil, ← components, Path.components_eq_nil]
  obtain ⟨front, -, whole, pieces, start⟩ :=
    Path.pieces_join empty (Bool.eq_false_iff.mpr absolute)
  obtain ⟨front', -, whole', pieces', start'⟩ :=
    Path.pieces_join other (Bool.eq_false_iff.mpr absolute)
  have alike : front.filter Path.isStep = front'.filter Path.isStep := by
    rw [Path.steps_of_front whole, Path.steps_of_front whole', Path.steps_of_same same]
  have nonempty {base : Path} (some_text : base.text ≠ "") :
      (base.join path).text.isEmpty = false := by
    unfold Path.join
    rw [if_neg absolute]
    split <;> simp [some_text]
  unfold resolve startOf
  rw [nonempty empty, nonempty other, pieces, pieces', start, start',
    Path.isAbsolute_of_same same, List.all_append, List.all_append, all_isValidPiece front,
    all_isValidPiece front', alike, tree.follow_steps front path.pieces_ne_nil,
    tree.follow_steps front' path.pieces_ne_nil, alike]

theorem isShort_of_isFile {path : Path} (found : tree.isFile path = true) :
    isShort path = true := by
  by_contra long
  simp [isFile, nodeAt?, locate, long] at found

/-- A file that is found from a directory is found from every path that names the directory, unless
that makes the path of the file too long. -/
theorem isFile_join (same : a.same b = true) {path : Path}
    (short : isShort (a.join path) = true) (found : tree.isFile (b.join path) = true) :
    tree.isFile (a.join path) = true := by
  have short' := tree.isShort_of_isFile found
  simp only [isFile, nodeAt?, locate, short, short', tree.resolve_join same path] at found ⊢
  exact found

end FileTree

end UnitForge
