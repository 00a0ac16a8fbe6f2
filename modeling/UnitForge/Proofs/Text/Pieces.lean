import Mathlib.Data.List.Basic
import UnitForge.Text.Split

/-! # Texts in pieces

What is joined with a separator is cut at it into the same pieces again. -/
set_option autoImplicit false
namespace UnitForge.Text

variable {separator : Char}

theorem stretches_eq_splitOn (separator : Char) (cs : List Char) :
    stretches separator cs = cs.splitOn separator := by
  induction cs with
  | nil => rfl
  | cons c rest ih =>
      rw [List.splitOn_cons_eq_if_modifyHead, stretches, ih]
      by_cases same : c = separator
      · simp [same]
      · rw [if_neg same, if_neg (by simpa using same)]
        have some_piece := List.splitOn_ne_nil separator rest
        cases pieces : rest.splitOn separator with
        | nil => exact absurd pieces some_piece
        | cons first others => rfl

theorem splitOn_eq (separator : Char) (s : String) :
    splitOn separator s = (s.toList.splitOn separator).map String.ofList := by
  rw [splitOn, stretches_eq_splitOn]

theorem splitOn_ne_nil (separator : Char) (s : String) : splitOn separator s ≠ [] := by
  simpa [splitOn] using stretches_ne_nil separator s.toList

theorem not_mem_of_mem_splitOn {piece s : String} (member : piece ∈ splitOn separator s) :
    separator ∉ piece.toList := by
  have free (cs : List Char) : ∀ stretch ∈ stretches separator cs, separator ∉ stretch := by
    induction cs with
    | nil => simp [stretches]
    | cons c rest ih =>
        rw [stretches]
        by_cases same : c = separator
        · simpa [same] using ih
        · rw [if_neg same]
          cases pieces : stretches separator rest with
          | nil => simpa using Ne.symm same
          | cons first others =>
              rw [pieces] at ih
              simpa [Ne.symm same] using ih
  obtain ⟨stretch, inside, rfl⟩ := List.mem_map.mp member
  simpa using free s.toList stretch inside

theorem exists_mem_splitOn {c : Char} {s : String} (member : c ∈ s.toList)
    (other : c ≠ separator) : ∃ piece ∈ splitOn separator s, c ∈ piece.toList := by
  have inside (cs : List Char) (member : c ∈ cs) : ∃ stretch ∈ stretches separator cs,
      c ∈ stretch := by
    induction cs with
    | nil => cases member
    | cons d rest ih =>
        rw [stretches]
        by_cases same : d = separator
        · have later : c ∈ rest := by simpa [same, other] using member
          simpa [same] using ih later
        · rw [if_neg same]
          cases pieces : stretches separator rest with
          | nil => exact absurd pieces (stretches_ne_nil separator rest)
          | cons first others =>
              rw [pieces] at ih
              rcases List.mem_cons.mp member with rfl | later
              · exact ⟨_, List.mem_cons_self, List.mem_cons_self⟩
              · obtain ⟨stretch, known, there⟩ := ih later
                rcases List.mem_cons.mp known with rfl | known
                · exact ⟨_, List.mem_cons_self, List.mem_cons_of_mem _ there⟩
                · exact ⟨stretch, List.mem_cons_of_mem _ known, there⟩
  obtain ⟨stretch, known, there⟩ := inside s.toList member
  exact ⟨String.ofList stretch, List.mem_map_of_mem known, by simpa using there⟩

theorem splitOn_intercalate {pieces : List String} (some_piece : pieces ≠ [])
    (free : ∀ piece ∈ pieces, separator ∉ piece.toList) :
    splitOn separator ((String.singleton separator).intercalate pieces) = pieces := by
  have whole : (pieces.map String.toList) ≠ [] := by simpa using some_piece
  rw [splitOn_eq, String.toList_intercalate, String.toList_singleton,
    List.splitOn_intercalate separator (by simpa using free) whole, List.map_map]
  simp

theorem splitOn_join (front back : String) :
    splitOn separator (front ++ String.singleton separator ++ back) =
      splitOn separator front ++ splitOn separator back := by
  simp only [splitOn_eq, String.toList_append, String.toList_singleton, List.append_assoc,
    List.singleton_append, List.splitOn_append_cons_self, List.map_append]

theorem intercalate_splitOn (separator : Char) (s : String) :
    (String.singleton separator).intercalate (splitOn separator s) = s := by
  rw [← String.toList_inj, String.toList_intercalate, splitOn_eq, List.map_map,
    String.toList_singleton]
  simp [List.intercalate_splitOn]

theorem splitOn_injective (separator : Char) : Function.Injective (splitOn separator) := by
  intro first second same
  rw [← intercalate_splitOn separator first, same, intercalate_splitOn]

theorem splitOn_of_not_mem {s : String} (free : separator ∉ s.toList) :
    splitOn separator s = [s] := by
  have whole : splitOn separator ((String.singleton separator).intercalate [s]) = [s] :=
    splitOn_intercalate (by simp) (by simpa using free)
  simpa using whole

/-- What is written behind the last separator belongs to the last piece. -/
theorem splitOn_append {ending : String} (free : separator ∉ ending.toList) (s : String) :
    splitOn separator (s ++ ending) =
      (splitOn separator s).dropLast ++ [(splitOn separator s).getLastD "" ++ ending] := by
  have grown (cs : List Char) : stretches separator (cs ++ ending.toList) =
      (stretches separator cs).dropLast ++
        [(stretches separator cs).getLastD [] ++ ending.toList] := by
    induction cs with
    | nil =>
        have alone := List.splitOn_eq_singleton free
        simp [stretches_eq_splitOn, alone]
    | cons c rest ih =>
        rw [List.cons_append, stretches, stretches]
        cases pieces : stretches separator rest with
        | nil => exact absurd pieces (stretches_ne_nil separator rest)
        | cons first others =>
            rw [pieces] at ih
            by_cases same : c = separator
            · simp [same, ih]
            · cases others <;> simp [same, ih]
  have last (pieces : List (List Char)) :
      (pieces.map String.ofList).getLastD "" = String.ofList (pieces.getLastD []) := by
    rw [List.getLastD_eq_getLast?, List.getLastD_eq_getLast?, List.getLast?_map]
    cases pieces.getLast? <;> rfl
  simp only [splitOn, String.toList_append, grown, List.map_append, List.map_dropLast, last]
  simp

theorem stripSuffix?_append (s suffix : String) : stripSuffix? suffix (s ++ suffix) = some s := by
  have ends : suffix.toList.isSuffixOf (s ++ suffix).toList = true := by
    rw [String.toList_append]
    exact List.isSuffixOf_iff_suffix.mpr (List.suffix_append _ _)
  have length : (s ++ suffix).toList.length - suffix.toList.length = s.toList.length := by
    rw [String.toList_append, List.length_append]
    omega
  rw [stripSuffix?, if_pos ends, length, String.toList_append, List.take_left',
    String.ofList_toList]
  rfl

end UnitForge.Text
