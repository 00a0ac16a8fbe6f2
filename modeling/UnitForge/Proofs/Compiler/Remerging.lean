import UnitForge.Proofs.Compiler.Merging

/-! # Merging the same directories twice

A second merge looks for its value in what the first one gave. It finds the same value there, and
nothing to add to it, unless the first merge changed which flag comes first: a flag that was the
last option got a value by what was put behind it, or the value that was extended is itself a
spelling of the flag now. -/
set_option autoImplicit false
namespace UnitForge.ClassPath

/-! ## Adding -/

variable {entries paths : List String}

theorem mem_addPaths {entry : String} :
    entry ∈ addPaths entries paths ↔ entry ∈ entries ∨ entry ∈ paths := by
  induction paths generalizing entries with
  | nil => simp [addPaths]
  | cons path paths ih =>
      rw [addPaths_cons, ih]
      by_cases present : path ∈ entries
      · rw [if_pos present, List.mem_cons]
        constructor
        · rintro (old | new)
          · exact .inl old
          · exact .inr (.inr new)
        · rintro (old | rfl | new)
          · exact .inl old
          · exact .inl present
          · exact .inr new
      · rw [if_neg present, List.mem_append, List.mem_singleton, List.mem_cons, or_assoc]

theorem addPaths_of_forall_mem (known : ∀ path ∈ paths, path ∈ entries) :
    addPaths entries paths = entries := by
  induction paths with
  | nil => rfl
  | cons path paths ih =>
      rw [addPaths_cons, if_pos (known path List.mem_cons_self)]
      exact ih fun other member => known other (List.mem_cons_of_mem _ member)

def extended (paths : List String) (value : String) : String :=
  join (addPaths (ClassPath.entries value) paths)

theorem entries_extended (entry : ∀ path ∈ paths, IsEntry path) (value : String) :
    ClassPath.entries (extended paths value) = addPaths (ClassPath.entries value) paths := by
  apply entries_join
  apply isEntry_addPaths _ entry
  intro old member
  exact isEntry_of_mem_entries member

theorem extended_extended (entry : ∀ path ∈ paths, IsEntry path) (value : String) :
    extended paths (extended paths value) = extended paths value := by
  rw [extended, entries_extended entry, addPaths_of_forall_mem]
  · rfl
  · intro path member
    exact mem_addPaths.mpr (.inr member)

theorem extended_eq_self_iff {value : String} (entry : ∀ path ∈ paths, IsEntry path)
    (single : IsEntry value) : extended paths value = value ↔ ∀ path ∈ paths, path = value := by
  have alone : ClassPath.entries value = [value] := by
    have whole : ClassPath.entries (join [value]) = [value] :=
      entries_join (by simpa using single)
    simpa [join] using whole
  constructor
  · intro same path member
    have there : path ∈ ClassPath.entries (extended paths value) := by
      rw [entries_extended entry]
      exact mem_addPaths.mpr (.inr member)
    rw [same, alone, List.mem_singleton] at there
    exact there
  · intro same
    rw [extended, alone, addPaths_of_forall_mem]
    · simp [join]
    · intro path member
      rw [same path member]
      exact List.mem_singleton_self value

/-! ## The flag that counts -/

/-- The spellings of the flag that are looked for before this one. -/
def preferred (given : String) : List String :=
  flags.takeWhile (· ≠ given)

/-- Where the flag stands whose value counts. -/
structure Leads (before : List String) (given : String) (rest : List String) : Prop where
  spelling : given ∈ flags
  first : given ∉ before
  unpreferred : ∀ other ∈ preferred given, other ∉ before ∧ other ∉ rest

section Leading
variable {options before rest : List String} {given value : String}

theorem idxOf?_of_first (first : given ∉ before) :
    (before ++ given :: rest).idxOf? given = some before.length := by
  rw [List.idxOf?_eq_some_iff]
  refine ⟨by simp, by simp, ?_⟩
  intro i earlier
  rw [List.getElem_append_left earlier]
  rintro rfl
  exact first (List.getElem_mem earlier)

theorem preferred_eq {passed later : List String} (whole : flags = passed ++ given :: later)
    (fresh : given ∉ passed) : preferred given = passed := by
  have others : ∀ other ∈ passed, decide (other ≠ given) = true := by
    intro other member
    rw [decide_eq_true_iff]
    rintro rfl
    exact fresh member
  rw [preferred, whole, List.takeWhile_append_of_pos others]
  simp

theorem Leads.findSome? (leads : Leads before given rest) :
    flags.findSome? ((before ++ given :: rest).idxOf? ·) = some before.length := by
  obtain ⟨passed, later, whole, fresh⟩ := List.eq_append_cons_of_mem leads.spelling
  rw [List.findSome?_eq_some_iff]
  refine ⟨passed, given, later, whole, idxOf?_of_first leads.first, ?_⟩
  intro other member
  have different : other ≠ given := by
    rintro rfl
    exact fresh member
  rw [← preferred_eq whole fresh] at member
  obtain ⟨front, back⟩ := leads.unpreferred other member
  rw [List.idxOf?_eq_none_iff]
  simp [front, back, different]

theorem Leads.valueIndex? (leads : Leads before given (value :: rest)) :
    valueIndex? (before ++ given :: value :: rest) = some (before.length + 1) := by
  rw [ClassPath.valueIndex?, leads.findSome?]
  simp

theorem Leads.valueIndex?_last (leads : Leads before given []) :
    ClassPath.valueIndex? (before ++ [given]) = none := by
  rw [ClassPath.valueIndex?, leads.findSome?]
  simp

theorem valueIndex?_of_no_flag (absent : ∀ spelling ∈ flags, spelling ∉ options) :
    valueIndex? options = none := by
  have none : flags.findSome? (options.idxOf? ·) = none := by
    rw [List.findSome?_eq_none_iff]
    intro spelling member
    exact List.idxOf?_eq_none_iff.mpr (absent spelling member)
  rw [ClassPath.valueIndex?, none]

theorem no_flag_or_leads (options : List String) :
    (∀ spelling ∈ flags, spelling ∉ options) ∨
      ∃ before given rest, options = before ++ given :: rest ∧ Leads before given rest := by
  cases search : flags.findSome? (options.idxOf? ·) with
  | none =>
      left
      intro spelling member
      exact List.idxOf?_eq_none_iff.mp (List.findSome?_eq_none_iff.mp search spelling member)
  | some at_ =>
      right
      obtain ⟨passed, given, later, whole, found, missed⟩ := List.findSome?_eq_some_iff.mp search
      have present : given ∈ options := by
        by_contra absent
        rw [List.idxOf?_eq_none_iff.mpr absent] at found
        cases found
      obtain ⟨before, rest, split, first⟩ := List.eq_append_cons_of_mem present
      have fresh : given ∉ passed := by
        have distinct : flags.Nodup := by decide
        rw [whole, List.nodup_append] at distinct
        intro member
        exact distinct.2.2 given member given List.mem_cons_self rfl
      refine ⟨before, given, rest, split, ?_, first, ?_⟩
      · rw [whole]
        simp
      · intro other member
        rw [preferred_eq whole fresh] at member
        have absent := List.idxOf?_eq_none_iff.mp (missed other member)
        rw [split] at absent
        simp only [List.mem_append, List.mem_cons, not_or] at absent
        exact ⟨absent.1, absent.2.2⟩

theorem Leads.merge (leads : Leads before given (value :: rest)) (some_path : paths ≠ []) :
    merge (before ++ given :: value :: rest) paths =
      before ++ given :: extended paths value :: rest :=
  merge_some some_path leads.valueIndex?

theorem Leads.replace {text : String} (leads : Leads before given (value :: rest))
    (plain : text ∉ preferred given) : Leads before given (text :: rest) where
  spelling := leads.spelling
  first := leads.first
  unpreferred := by
    intro other member
    obtain ⟨front, back⟩ := leads.unpreferred other member
    refine ⟨front, ?_⟩
    rw [List.mem_cons, not_or] at back ⊢
    refine ⟨?_, back.2⟩
    rintro rfl
    exact plain member

theorem preferred_of_preferred : ∀ given ∈ flags, ∀ text ∈ preferred given,
    text ∈ flags ∧ text ≠ given ∧ ∀ other ∈ preferred text, other ∈ preferred given ∧ other ≠ given := by
  decide

/-- An extended value that is a preferred spelling is the flag that counts from then on. -/
theorem Leads.displace {text : String} (leads : Leads before given (value :: rest))
    (disguised : text ∈ preferred given) : Leads (before ++ [given]) text rest := by
  obtain ⟨spelling, different, earlier⟩ := preferred_of_preferred given leads.spelling text disguised
  refine ⟨spelling, ?_, ?_⟩
  · rw [List.mem_append, List.mem_singleton, not_or]
    exact ⟨(leads.unpreferred text disguised).1, different⟩
  · intro other member
    obtain ⟨still, apart⟩ := earlier other member
    obtain ⟨front, back⟩ := leads.unpreferred other still
    rw [List.mem_append, List.mem_singleton, not_or]
    exact ⟨⟨front, apart⟩, List.not_mem_of_not_mem_cons back⟩

theorem Leads.unique {before' rest' : List String} {given' : String}
    (leads : Leads before given rest) (other : Leads before' given' rest')
    (same : before ++ given :: rest = before' ++ given' :: rest') :
    before = before' ∧ given = given' ∧ rest = rest' := by
  have place := leads.findSome?
  rw [same, other.findSome?, Option.some.injEq] at place
  obtain ⟨front, back⟩ := List.append_inj same place.symm
  rw [List.cons.injEq] at back
  exact ⟨front, back⟩

/-- Nothing is looked for before the first spelling. -/
theorem leads_flag (first : flag ∉ before) (rest : List String) : Leads before flag rest where
  spelling := by decide
  first := first
  unpreferred := by
    have none : preferred flag = [] := by decide
    rw [none]
    exact List.forall_mem_nil _

end Leading

/-! ## Merging twice -/

/-- The first `-cp` is the last option, and not all paths are that text. -/
def Trailing (options paths : List String) : Prop :=
  ∃ before, options = before ++ [flag] ∧ flag ∉ before ∧ ∃ path ∈ paths, path ≠ flag

/-- The extended value is a preferred spelling of the flag, and so it is the text behind it that a
second merge extends; there is none, or paths are added to it. -/
def Disguised (options paths : List String) : Prop :=
  paths ≠ [] ∧ ∃ before given value rest, options = before ++ given :: value :: rest ∧
    Leads before given (value :: rest) ∧ extended paths value ∈ preferred given ∧
    ∀ next ∈ rest.head?, extended paths next ≠ next

section Twice
variable {options before rest : List String} {given value : String}
  (entry : ∀ path ∈ paths, IsEntry path) (some_path : paths ≠ [])
include entry some_path

theorem Leads.merge_extended (leads : Leads before given (extended paths value :: rest)) :
    ClassPath.merge (before ++ given :: extended paths value :: rest) paths =
      before ++ given :: extended paths value :: rest := by
  rw [leads.merge some_path, extended_extended entry]

/-- The value that was put at the end is the one that is found, if no `-cp` stands before it. -/
theorem merge_merge_of_appended (absent : valueIndex? options = none) (fresh : flag ∉ options) :
    merge (merge options paths) paths = merge options paths := by
  have once : merge options paths = options ++ [flag, extended paths ""] :=
    merge_none some_path absent
  rw [once]
  exact (leads_flag fresh _).merge_extended entry some_path

/-- A last `-cp` gets the one that is put behind it as its value. -/
theorem merge_merge_of_last (first : flag ∉ before) :
    merge (merge (before ++ [flag]) paths) paths = merge (before ++ [flag]) paths ↔
      ∀ path ∈ paths, path = flag := by
  have once : merge (before ++ [flag]) paths = before ++ [flag, flag, extended paths ""] := by
    rw [merge_none some_path (leads_flag first []).valueIndex?_last, List.append_assoc]
    rfl
  have twice := (leads_flag first [flag, extended paths ""]).merge some_path
  rw [once, twice, ← extended_eq_self_iff entry (by decide)]
  simp

theorem Leads.merge_merge_of_plain (leads : Leads before given (value :: rest))
    (plain : extended paths value ∉ preferred given) :
    ClassPath.merge (ClassPath.merge (before ++ given :: value :: rest) paths) paths =
      ClassPath.merge (before ++ given :: value :: rest) paths := by
  rw [leads.merge some_path]
  exact (leads.replace plain).merge_extended entry some_path

omit entry in
theorem Leads.merge_merge_of_disguised (leads : Leads before given (value :: rest))
    (disguised : extended paths value ∈ preferred given) :
    ClassPath.merge (ClassPath.merge (before ++ given :: value :: rest) paths) paths =
        ClassPath.merge (before ++ given :: value :: rest) paths ↔
      ∃ next ∈ rest.head?, extended paths next = next := by
  have displaced := leads.displace disguised
  have regroup (text : String) (rest : List String) :
      before ++ given :: text :: rest = (before ++ [given]) ++ text :: rest := by
    simp
  rw [leads.merge some_path, regroup]
  cases rest with
  | nil =>
      rw [merge_none some_path displaced.valueIndex?_last]
      simp
  | cons next rest =>
      rw [displaced.merge some_path]
      simp

end Twice

/-- Merging paths twice is merging them once, except where a last `-cp` has got a value or the
extended value is taken for the flag. -/
theorem merge_merge_iff (options paths : List String) (entry : ∀ path ∈ paths, IsEntry path) :
    merge (merge options paths) paths = merge options paths ↔
      ¬Trailing options paths ∧ ¬Disguised options paths := by
  by_cases none : paths = []
  · subst none
    simp [merge_nil, Trailing, Disguised]
  rcases no_flag_or_leads options with absent | ⟨before, given, rest, rfl, leads⟩
  · have index := valueIndex?_of_no_flag absent
    have twice := merge_merge_of_appended entry none index (absent flag (by decide))
    refine iff_of_true twice ⟨?_, ?_⟩
    · rintro ⟨before, rfl, -⟩
      exact absent flag (by decide) (by simp)
    · rintro ⟨-, before, given, value, rest, rfl, leads, -⟩
      exact absent given leads.spelling (by simp)
  cases rest with
  | nil =>
      have single : ¬Disguised (before ++ [given]) paths := by
        rintro ⟨-, before', given', value, rest, same, other, -⟩
        obtain ⟨-, -, empty⟩ := leads.unique other same
        cases empty
      by_cases short : given = flag
      · subst short
        rw [merge_merge_of_last entry none leads.first, and_iff_left single]
        constructor
        · rintro all ⟨-, -, -, path, member, different⟩
          exact different (all path member)
        · intro settled path member
          by_contra different
          exact settled ⟨before, rfl, leads.first, path, member, different⟩
      · have fresh : flag ∉ before ++ [given] := by
          have earlier : flag ∈ preferred given := by
            have spelling := leads.spelling
            simp only [flags, List.mem_cons, List.not_mem_nil, or_false] at spelling
            rcases spelling with rfl | rfl | rfl
            · exact absurd rfl short
            · decide
            · decide
          rw [List.mem_append, List.mem_singleton, not_or]
          exact ⟨(leads.unpreferred flag earlier).1, Ne.symm short⟩
        have twice := merge_merge_of_appended entry none leads.valueIndex?_last fresh
        refine iff_of_true twice ⟨?_, single⟩
        rintro ⟨before', same, -⟩
        exact fresh (by rw [same]; simp)
  | cons value rest =>
      have inside : ¬Trailing (before ++ given :: value :: rest) paths := by
        rintro ⟨before', same, first, -⟩
        obtain ⟨-, -, empty⟩ := leads.unique (leads_flag first []) same
        cases empty
      rw [and_iff_right inside]
      by_cases disguised : extended paths value ∈ preferred given
      · rw [leads.merge_merge_of_disguised none disguised]
        constructor
        · rintro ⟨next, member, kept⟩ ⟨-, before', given', value', rest', same, other, -, changed⟩
          obtain ⟨-, -, tail⟩ := leads.unique other same
          rw [List.cons.injEq] at tail
          rw [← tail.2] at changed
          exact changed next member kept
        · intro settled
          by_contra changed
          push Not at changed
          exact settled ⟨none, before, given, value, rest, rfl, leads, disguised, changed⟩
      · apply iff_of_true (leads.merge_merge_of_plain entry none disguised)
        rintro ⟨-, before', given', value', rest', same, other, there, -⟩
        obtain ⟨-, rfl, tail⟩ := leads.unique other same
        rw [List.cons.injEq] at tail
        rw [← tail.1] at there
        exact disguised there

def spelledOut : List String :=
  ["-nowarn", "--class-path", "a::b", "-classpath"]

theorem merge_merge_spelledOut : (∀ path ∈ ["b", "c"], IsEntry path) ∧
    ¬Trailing spelledOut ["b", "c"] ∧ ¬Disguised spelledOut ["b", "c"] := by
  have entry : ∀ path ∈ ["b", "c"], IsEntry path := by decide
  have settled : merge (merge spelledOut ["b", "c"]) ["b", "c"] = merge spelledOut ["b", "c"] := by
    decide
  exact ⟨entry, (merge_merge_iff spelledOut ["b", "c"] entry).mp settled⟩

/-- A trailing `-cp` takes the flag that the first merge puts behind it as its value, and the second
merge extends that. -/
theorem merge_merge_trailing :
    (∀ path ∈ ["b"], IsEntry path) ∧ merge (merge ["-cp"] ["b"]) ["b"] ≠ merge ["-cp"] ["b"] := by
  decide

end UnitForge.ClassPath
