import UnitForge.Proofs.Compiler.Options

/-! # Merging into the class path

Directories that are merged into options join the class path behind what the options up to the
extended value put there. If the options behind that add nothing, they come last and hide no unit;
else a unit that was found in a later directory may be found in one of them instead, or, if a
directory is written in two ways, not at all because the one that stays is too long. A flag that is
itself the value of another option is not told apart, and what is extended then is an option. -/
set_option autoImplicit false
namespace UnitForge

namespace ClassPath

/-- How many of the options have taken effect when what is merged into them does. -/
def extent (options : List String) : Nat :=
  match valueIndex? options with
  | some i => i + 1
  | none => options.length

variable {options paths : List String} {i : Nat}

/-- The value to extend stands right behind a flag. -/
theorem valueIndex?_split (found : valueIndex? options = some i) :
    ∃ before flag value rest, options = before ++ flag :: value :: rest ∧ flag ∈ flags ∧
      i = before.length + 1 := by
  unfold valueIndex? at found
  cases first : flags.findSome? (options.idxOf? ·) with
  | none =>
      rw [first] at found
      cases found
  | some at_ =>
      rw [first] at found
      by_cases inside : at_ + 1 < options.length
      · simp only [if_pos inside, Option.some.injEq] at found
        obtain ⟨flag, member, index⟩ := List.exists_of_findSome?_eq_some first
        obtain ⟨here, same, -⟩ := List.idxOf?_eq_some_iff.mp index
        refine ⟨options.take at_, flag, options[at_ + 1], options.drop (at_ + 2), ?_, member, ?_⟩
        · rw [← List.drop_eq_getElem_cons inside, ← same, ← List.drop_eq_getElem_cons,
            List.take_append_drop]
        · rw [List.length_take]
          omega
      · simp only [if_neg inside] at found
        cases found

theorem merge_nil : merge options [] = options :=
  rfl

theorem merge_none (some_path : paths ≠ []) (absent : valueIndex? options = none) :
    merge options paths = options ++ [flag, join (addPaths [] paths)] := by
  rw [merge, if_neg (by simpa using some_path), absent]

theorem merge_some {before rest : List String} {given value : String} (some_path : paths ≠ [])
    (found : valueIndex? (before ++ given :: value :: rest) = some (before.length + 1)) :
    merge (before ++ given :: value :: rest) paths =
      before ++ given :: join (addPaths (entries value) paths) :: rest := by
  rw [merge, if_neg (by simpa using some_path), found]
  have replaced (change : String → String) :
      (before ++ given :: value :: rest).modify (before.length + 1) change =
        before ++ given :: change value :: rest := by
    clear found
    induction before with
    | nil => rfl
    | cons first before ih => simpa using ih
  exact replaced _

end ClassPath

namespace UnitCompiler

open StandardFiles

def opened (tree : FileTree) (options : List String) : Bool × Session StandardFiles :=
  applyOptions StandardFiles.manager options (.start (.ofTree tree))

def withClassPath (classPath : List Path) (session : Session StandardFiles) :
    Session StandardFiles :=
  { session with files := { session.files with classPath } }

/-- The class path of the options up to the value that a merge extends. -/
def frontPath (tree : FileTree) (options : List String) : List Path :=
  (opened tree (options.take (ClassPath.extent options))).2.files.classPath

/-- The directories that options behind that value add. -/
def backPath (tree : FileTree) (options : List String) : List Path :=
  (opened tree options).2.files.classPath.drop (frontPath tree options).length

structure Merged (tree : FileTree) (options paths : List String) : Prop where
  /-- The rest of the class path stems from later options. -/
  split : (opened tree options).2.files.classPath =
    frontPath tree options ++ backPath tree options
  outcome : opened tree (ClassPath.merge options paths) =
    (true, withClassPath
      (inserted (frontPath tree options) (backPath tree options) (paths.map Path.mk))
      (opened tree options).2)
  appended : backPath tree options = [] →
    (opened tree (ClassPath.merge options paths)).2.files.classPath =
      (opened tree options).2.files.classPath ++
        additions (opened tree options).2.files.classPath (paths.map Path.mk)
  found : ∀ name kind file,
    (opened tree options).2.files.input .classPath name kind = some file →
    (opened tree (ClassPath.merge options paths)).2.files.input .classPath name kind = some file ∨
      file.root ∈ backPath tree options ∧
        ∃ entry ∈ additions (frontPath tree options) (paths.map Path.mk),
          (opened tree (ClassPath.merge options paths)).2.files.input .classPath name kind =
              some { kind, path := entry.join (relativePath name kind), root := entry } ∨
            entry.same file.root = true ∧
              FileTree.isShort (entry.join (relativePath name kind)) = false

section Outcome
variable {tree : FileTree} {options paths : List String}

theorem applyOptions_classPath {flag value : String} {rest : List String}
    {session : Session StandardFiles} (member : flag ∈ ClassPath.flags) :
    applyOptions StandardFiles.manager (flag :: value :: rest) session =
      applyOptions StandardFiles.manager rest (withClassPath
        (((ClassPath.entries value).map Path.mk).foldl addEntry session.files.classPath)
        session) := by
  have suppresses : flag ≠ noWarningsFlag := by
    rintro rfl
    revert member
    decide
  have denies : flag ≠ denyWarningsFlag := by
    rintro rfl
    revert member
    decide
  exact applyOptions_accepted suppresses denies (ask_arity_standard session (.inl member))
    (handOver_classPath member)

theorem merged_of_outcome
    (split : (opened tree options).2.files.classPath =
      frontPath tree options ++ backPath tree options)
    (outcome : opened tree (ClassPath.merge options paths) =
      (true, withClassPath
        (inserted (frontPath tree options) (backPath tree options) (paths.map Path.mk))
        (opened tree options).2)) : Merged tree options paths where
  split := split
  outcome := outcome
  appended := by
    intro last
    have front : (opened tree options).2.files.classPath = frontPath tree options := by
      rw [split, last, List.append_nil]
    rw [outcome, last, front, ← inserted_nil]
    rfl
  found := by
    intro name kind file before
    rw [outcome]
    exact input_inserted (paths.map Path.mk) split before

theorem merge_appends (accepted : (opened tree options).1 = true)
    (entries : ∀ path ∈ paths, ClassPath.IsEntry path)
    (absent : ClassPath.valueIndex? options = none) : Merged tree options paths := by
  have front : frontPath tree options = (opened tree options).2.files.classPath := by
    rw [frontPath, ClassPath.extent, absent, List.take_length]
  have back : backPath tree options = [] := by
    rw [backPath, front, List.drop_length]
  apply merged_of_outcome (by rw [front, back, List.append_nil])
  rw [back, inserted_nil, ← foldl_addEntry, front]
  by_cases none : paths = []
  · subst none
    exact Prod.ext accepted rfl
  · have joined : ClassPath.entries (ClassPath.join (ClassPath.addPaths [] paths)) =
        ClassPath.addPaths [] paths :=
      ClassPath.entries_join (ClassPath.isEntry_addPaths (List.forall_mem_nil _) entries)
    have member : ClassPath.flag ∈ ClassPath.flags := by decide
    rw [ClassPath.merge_none none absent, opened, applyOptions_append _ accepted,
      applyOptions_classPath member, applyOptions_nil, joined, foldl_addPaths]
    rfl

theorem merge_extends (accepted : (opened tree options).1 = true)
    (entries : ∀ path ∈ paths, ClassPath.IsEntry path) {i : Nat}
    (found : ClassPath.valueIndex? options = some (i + 1))
    (stands : (opened tree (options.take i)).1 = true) : Merged tree options paths := by
  obtain ⟨before, flag, value, rest, whole, member, at_⟩ := ClassPath.valueIndex?_split found
  obtain rfl : i = before.length := by omega
  have base : options.take before.length = before := by rw [whole, List.take_left]
  rw [base] at stands
  obtain ⟨settings, settle⟩ := exists_settings rest
  -- Whatever is written behind the flag, the options after it do the same.
  have run (text : String) : opened tree (before ++ flag :: text :: rest) =
      (settings.accepted, settings.on (withClassPath
        (((ClassPath.entries text).map Path.mk).foldl addEntry
          (opened tree before).2.files.classPath) (opened tree before).2)) := by
    rw [opened, applyOptions_append _ stands, applyOptions_classPath member, settle]
    rfl
  have front : frontPath tree options = ((ClassPath.entries value).map Path.mk).foldl addEntry
      (opened tree before).2.files.classPath := by
    have taken : options.take (before.length + 1 + 1) = before ++ [flag, value] := by
      rw [whole, List.take_append, List.take_of_length_le (by omega)]
      congr 1
      rw [show before.length + 1 + 1 - before.length = 2 by omega]
      rfl
    rw [frontPath, ClassPath.extent, found]
    dsimp only
    rw [taken, opened, applyOptions_append _ stands, applyOptions_classPath member,
      applyOptions_nil]
    rfl
  have later : (opened tree options).2.files.classPath =
      settings.directories.foldl addEntry (frontPath tree options) := by
    rw [front, whole, run]
    rfl
  have back : backPath tree options = additions (frontPath tree options) settings.directories := by
    rw [backPath, later, foldl_addEntry, List.drop_left]
  have fine : settings.accepted = true := by
    rw [whole, run] at accepted
    exact accepted
  apply merged_of_outcome (by rw [later, back, foldl_addEntry])
  have joined : ClassPath.entries
      (ClassPath.join (ClassPath.addPaths (ClassPath.entries value) paths)) =
        ClassPath.addPaths (ClassPath.entries value) paths :=
    ClassPath.entries_join
      (ClassPath.isEntry_addPaths (fun _ => ClassPath.isEntry_of_mem_entries) entries)
  have merged : opened tree (ClassPath.merge options paths) = opened tree
      (before ++ flag :: ClassPath.join (ClassPath.addPaths (ClassPath.entries value) paths) ::
        rest) := by
    by_cases none : paths = []
    · subst none
      rw [ClassPath.merge_nil, whole, run, run, joined]
      rfl
    · subst whole
      rw [ClassPath.merge_some none found]
  rw [merged, run, joined, foldl_addPaths, ← front, fine, back, ← foldl_addEntry_inserted]
  congr 1
  rw [whole, run]
  rfl

end Outcome

/-- Merging directories into options that are accepted puts those that are not there into the class
path, behind what the options up to the extended value put there, and leaves all else that the
options did as it is. A unit is found where it was found, unless that was in a later directory and
one of the new ones has it, or is the same directory but written too long. -/
theorem merge_inserts (tree : FileTree) (options paths : List String)
    (accepted : (opened tree options).1 = true)
    (entries : ∀ path ∈ paths, ClassPath.IsEntry path)
    (stands : ∀ i, ClassPath.valueIndex? options = some (i + 1) →
      (opened tree (options.take i)).1 = true) : Merged tree options paths := by
  cases found : ClassPath.valueIndex? options with
  | none => exact merge_appends accepted entries found
  | some at_ =>
      obtain ⟨before, flag, value, rest, -, -, rfl⟩ := ClassPath.valueIndex?_split found
      exact merge_extends accepted entries found (stands _ found)

def twoCopies : FileTree where
  entries := [(["work"], .directory), (["work", "b"], .directory), (["work", "c"], .directory),
    (["work", "b", "P.unit"], .file []), (["work", "c", "P.unit"], .file [])]
  workingDirectory := ["work"]

def twoFlags : List String :=
  ["-cp", "a", "-cp", "b"]

/-- With a flag behind the extended value, what is merged does not come last, and a unit that was
found behind it is found in a merged directory. -/
theorem merge_precedes_later_flags :
    (opened twoCopies twoFlags).1 = true ∧ ClassPath.IsEntry "c" ∧
      (opened twoCopies (ClassPath.merge twoFlags ["c"])).2.files.classPath ≠
        (opened twoCopies twoFlags).2.files.classPath ++
          additions (opened twoCopies twoFlags).2.files.classPath [⟨"c"⟩] ∧
      ((opened twoCopies twoFlags).2.files.input .classPath "P" .unit).map FileObject.path =
        some ⟨"b/P.unit"⟩ ∧
      ((opened twoCopies (ClassPath.merge twoFlags ["c"])).2.files.input .classPath "P" .unit).map
        FileObject.path = some ⟨"c/P.unit"⟩ := by
  decide +kernel

/-- A value is extended behind another option, and a further flag follows. -/
def threeFlags : List String :=
  ["-nowarn", "-classpath", "a:b", "-d", "out", "--class-path", "c"]

theorem merge_inserts_between : Merged twoCopies threeFlags ["c", "b", "e"] := by
  have index : ClassPath.valueIndex? threeFlags = some 2 := by decide
  apply merge_inserts twoCopies threeFlags ["c", "b", "e"] (by decide +kernel) (by decide)
  intro i at_
  rw [index, Option.some.injEq] at at_
  obtain rfl : i = 1 := by omega
  decide +kernel

/-! ## A flag that is a value -/

/-- Where the flag to extend is a value itself, the word behind it is an option, and merging leaves
that as it is or makes a word of it that is none. -/
theorem merge_refused {tree : FileTree} {options paths : List String}
    (accepted : (opened tree options).1 = true)
    (entries : ∀ path ∈ paths, ClassPath.IsEntry path) {i : Nat}
    (found : ClassPath.valueIndex? options = some (i + 1))
    (astray : (opened tree (options.take i)).1 = false) :
    (opened tree (ClassPath.merge options paths)).1 = true ↔
      ClassPath.merge options paths = options := by
  refine ⟨?_, fun same => by rw [same, accepted]⟩
  intro merged
  by_cases none : paths = []
  · rw [none, ClassPath.merge_nil]
  obtain ⟨before, flag, value, rest, rfl, -, at_⟩ := ClassPath.valueIndex?_split found
  obtain rfl : i = before.length := by omega
  rw [List.take_left] at astray
  rw [ClassPath.merge_some none found] at merged ⊢
  obtain ⟨completed, run⟩ := exists_completed flag accepted astray
  have old : value ∈ optionWords := by
    rw [opened, run] at accepted
    exact mem_optionWords accepted
  have new : ClassPath.join (ClassPath.addPaths (ClassPath.entries value) paths) ∈ optionWords := by
    rw [opened, run] at merged
    exact mem_optionWords merged
  -- An option is a single entry, and the entries of the old word are the first of the new one.
  have single := entries_optionWord _ new
  rw [ClassPath.entries_join
    (ClassPath.isEntry_addPaths (fun _ => ClassPath.isEntry_of_mem_entries) entries),
    entries_optionWord value old] at single
  obtain ⟨more, split⟩ := ClassPath.addPaths_split [value] paths
  rw [split, List.singleton_append, List.cons.injEq] at single
  rw [entries_optionWord value old, split, List.singleton_append, ← single.1]

example :
    (opened twoCopies ["-d", "-cp", "-nowarn"]).1 = true ∧
      ClassPath.merge ["-d", "-cp", "-nowarn"] ["a"] = ["-d", "-cp", "-nowarn:a"] ∧
      (opened twoCopies ["-d", "-cp", "-nowarn:a"]).1 = false := by
  decide +kernel

end UnitCompiler

end UnitForge
