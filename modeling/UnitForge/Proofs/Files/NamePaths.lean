import UnitForge.Proofs.Files.Containment

/-! # Names of units as paths

The path of the file of a unit has a piece for every segment of its name, with the extension behind
the last one. No piece is one that leads nowhere or up, and different names have different paths. -/
set_option autoImplicit false
namespace UnitForge

namespace Name

variable {name : String}

/-- Every segment of a name can be the name of a file or a directory. -/
def Proper (name : String) : Prop :=
  ∀ segment ∈ segments name, segment ≠ "" ∧ '/' ∉ segment.toList

theorem segments_ne_nil (name : String) : segments name ≠ [] :=
  Text.splitOn_ne_nil '.' name

theorem segments_eq (name : String) :
    segments name = (segments name).dropLast ++ [simple name] := by
  have last : simple name = (segments name).getLast (segments_ne_nil name) := by
    rw [simple, List.getLastD_eq_getLast?, List.getLast?_eq_some_getLast (segments_ne_nil name)]
    rfl
  rw [last, List.dropLast_concat_getLast]

theorem mem_of_mem_dropLast {segment : String} (member : segment ∈ (segments name).dropLast) :
    segment ∈ segments name :=
  (List.dropLast_sublist _).subset member

theorem proper_of_isLogical (logical : isLogical name = true) : Proper name := by
  intro segment member
  have formed : isSegment segment = true := List.all_eq_true.mp logical segment member
  unfold isSegment at formed
  cases chars : segment.toList with
  | nil => rw [chars] at formed; cases formed
  | cons c rest =>
      rw [chars] at formed
      simp only [Bool.and_eq_true, List.all_eq_true] at formed
      obtain ⟨⟨starts, continues⟩, -⟩ := formed
      refine ⟨fun empty => by simp [empty] at chars, ?_⟩
      intro slash
      rcases List.mem_cons.mp slash with rfl | later
      · exact absurd starts (by decide)
      · exact absurd (continues _ later) (by decide)

theorem splitOn_toPathText (proper : Proper name) :
    Text.splitOn '/' (toPathText name) = segments name := by
  have free : '/' ∉ name.toList := by
    intro slash
    have dot : '/' ≠ '.' := by decide
    obtain ⟨segment, member, inside⟩ := Text.exists_mem_splitOn slash dot
    exact (proper segment member).2 inside
  have same (cs : List Char) (free : '/' ∉ cs) :
      Text.stretches '/' (cs.map fun c => if c = '.' then '/' else c) = Text.stretches '.' cs := by
    induction cs with
    | nil => rfl
    | cons c rest ih =>
        rw [List.mem_cons, not_or] at free
        rw [List.map_cons, Text.stretches, Text.stretches, ih free.2]
        by_cases dot : c = '.'
        · simp [dot]
        · simp [dot, Ne.symm free.1]
  rw [Text.splitOn, toList_toPathText, same _ free]
  rfl

theorem segments_qualify {simple : String} (proper : Proper name) (free : '.' ∉ simple.toList) :
    segments (qualify (package name) simple) = (segments name).dropLast ++ [simple] := by
  have alone : segments simple = [simple] := Text.splitOn_of_not_mem free
  by_cases top : (segments name).dropLast = []
  · have none : package name = "" := by simp [package, top]
    simp [qualify, none, top, alone]
  · have front : segments (package name) = (segments name).dropLast :=
      Text.splitOn_intercalate top fun segment member =>
        Text.not_mem_of_mem_splitOn (mem_of_mem_dropLast member)
    have some_text : (package name).isEmpty = false := by
      rw [← Bool.not_eq_true, String.isEmpty_iff]
      intro empty
      have head : [""] = (segments name).dropLast := by
        rw [← front, empty]
        rfl
      have member : "" ∈ (segments name).dropLast := head ▸ List.mem_singleton.mpr rfl
      exact (proper _ (mem_of_mem_dropLast member)).1 rfl
    rw [qualify, some_text, if_neg Bool.false_ne_true, ← alone, ← front]
    exact Text.splitOn_join _ _

theorem Proper.qualify {simple : String} (proper : Proper name) (some_text : simple ≠ "")
    (dot : '.' ∉ simple.toList) (slash : '/' ∉ simple.toList) :
    Proper (qualify (package name) simple) := by
  intro segment member
  rw [segments_qualify proper dot] at member
  rcases List.mem_append.mp member with front | last
  · exact proper segment (mem_of_mem_dropLast front)
  · rw [List.mem_singleton.mp last]
    exact ⟨some_text, slash⟩

end Name

namespace StandardFiles

open FileTree Name

variable {name other : String} (proper : Proper name)

section
include proper

theorem pieces_relativePath (kind : ArtifactKind) : (relativePath name kind).pieces =
    (segments name).dropLast ++ [simple name ++ kind.extension] := by
  have free : '/' ∉ kind.extension.toList := by cases kind <;> decide
  rw [relativePath, Path.pieces, Text.splitOn_append free, splitOn_toPathText proper]
  rfl

theorem isName_segment {segment : String} (member : segment ∈ segments name) (ending : String)
    (free : '/' ∉ ending.toList) : IsName (segment ++ ending) := by
  obtain ⟨some_text, slash⟩ := proper segment member
  have dot : '.' ∉ segment.toList := Text.not_mem_of_mem_splitOn member
  obtain ⟨c, rest, chars⟩ : ∃ c rest, segment.toList = c :: rest := by
    cases chars : segment.toList with
    | nil => exact absurd (String.toList_eq_nil_iff.mp chars) some_text
    | cons c rest => exact ⟨c, rest, rfl⟩
  have first : c ≠ '.' := fun same => dot (chars ▸ same ▸ List.mem_cons_self)
  have differs (text : String) (starts : ∀ d, text.toList.head? = some d → d = '.') :
      segment ++ ending ≠ text := by
    rintro rfl
    exact first (starts c (by simp [chars]))
  refine ⟨?_, differs ".." (by simp), by simp [slash, free]⟩
  rw [Path.isStep, Bool.not_eq_true', decide_eq_false_iff_not, not_or]
  exact ⟨differs "" (by simp), differs "." (by simp)⟩

theorem isName_of_mem_relativePath {kind : ArtifactKind} {piece : String}
    (member : piece ∈ (relativePath name kind).pieces) : IsName piece := by
  rw [pieces_relativePath proper] at member
  rcases List.mem_append.mp member with front | last
  · simpa using isName_segment proper (mem_of_mem_dropLast front) "" (by simp)
  · rw [List.mem_singleton.mp last]
    have member : simple name ∈ segments name := by
      rw [segments_eq name]
      simp
    exact isName_segment proper member kind.extension (by cases kind <;> decide)

theorem isAbsolute_of_proper (kind : ArtifactKind) :
    (relativePath name kind).isAbsolute = false := by
  rw [← Bool.not_eq_true]
  intro absolute
  obtain ⟨rest, whole⟩ := Path.pieces_of_isAbsolute absolute
  have member : "" ∈ (relativePath name kind).pieces := whole ▸ List.mem_cons_self
  exact absurd (isName_of_mem_relativePath proper member) (by decide)

end

/-- Different units have different files. -/
theorem relativePath_injective {kind : ArtifactKind} (proper : Proper name)
    (proper' : Proper other)
    (same : (relativePath name kind).pieces = (relativePath other kind).pieces) : name = other := by
  rw [pieces_relativePath proper, pieces_relativePath proper'] at same
  obtain ⟨fronts, lasts⟩ := List.append_inj' same rfl
  have last : simple name = simple other :=
    (String.append_left_inj _).mp (List.singleton_inj.mp lasts)
  apply Text.splitOn_injective '.'
  change segments name = segments other
  rw [segments_eq name, segments_eq other, fronts, last]

end StandardFiles

end UnitForge
