import UnitForge.Artifact

/-! # Artifact tables

What a table gives for a name after an artifact has been put in, written to or taken out. -/
set_option autoImplicit false
namespace UnitForge.ArtifactTable

theorem find?_place_self (output : OutputUnit) (outputs : List OutputUnit)
    (fresh : ∀ other ∈ outputs, other.name ≠ output.name) :
    (place output outputs).find? (·.name = output.name) = some output := by
  induction outputs with
  | nil => simp [place]
  | cons first rest ih =>
      have other : ¬first.name = output.name := fresh first List.mem_cons_self
      unfold place
      split
      · simp
      · rw [List.find?_cons_of_neg (by simpa using other)]
        exact ih fun known member => fresh known (List.mem_cons_of_mem _ member)

theorem find?_place_other {name : String} (output : OutputUnit) (outputs : List OutputUnit)
    (other : output.name ≠ name) :
    (place output outputs).find? (·.name = name) = outputs.find? (·.name = name) := by
  induction outputs with
  | nil => simp [place, other]
  | cons first rest ih =>
      unfold place
      split
      · rw [List.find?_cons_of_neg (by simpa using other)]
      · by_cases same : first.name = name
        · simp [same]
        · simp [same, ih]

theorem place_perm (output : OutputUnit) (outputs : List OutputUnit) :
    (place output outputs).Perm (output :: outputs) := by
  induction outputs with
  | nil => exact .refl _
  | cons first rest ih =>
      unfold place
      split
      · exact .refl _
      · exact (ih.cons first).trans (.swap output first rest)

theorem insert_perm {table : ArtifactTable} {output : OutputUnit}
    (fresh : output.name ∉ table.names) :
    (table.insert output).outputs.Perm (output :: table.outputs) := by
  have kept : (table.erase output.name).outputs = table.outputs := by
    apply List.filter_eq_self.mpr
    intro other member
    exact decide_eq_true fun same => fresh (same ▸ List.mem_map_of_mem member)
  unfold insert
  rw [kept]
  exact place_perm output table.outputs

theorem get?_insert_self (table : ArtifactTable) (output : OutputUnit) :
    (table.insert output).get? output.name = some output := by
  apply find?_place_self output _
  intro other member
  simpa using (List.mem_filter.mp member).2

theorem get?_erase_other {name erased : String} (table : ArtifactTable) (other : erased ≠ name) :
    (table.erase erased).get? name = table.get? name := by
  unfold erase get?
  rw [List.find?_filter]
  congr 1
  funext output
  by_cases same : output.name = name
  · simp [same, other.symm]
  · simp [same]

theorem get?_erase_self (table : ArtifactTable) (name : String) :
    (table.erase name).get? name = none := by
  simp [erase, get?]

theorem get?_insert_other {name : String} (table : ArtifactTable) (output : OutputUnit)
    (other : output.name ≠ name) : (table.insert output).get? name = table.get? name := by
  apply (find?_place_other output _ other).trans
  exact get?_erase_other table other

theorem get?_append (table : ArtifactTable) (name written : String) (chunk : Bytes) :
    (table.append written chunk).get? name =
      (table.get? name).map fun output =>
        if name = written then output.append chunk else output := by
  unfold append get?
  rw [List.find?_map]
  have same : ((fun output : OutputUnit => decide (output.name = name)) ∘ fun output =>
      if output.name = written then output.append chunk else output) =
        fun output => decide (output.name = name) := by
    funext output
    simp only [Function.comp_apply]
    split <;> rfl
  rw [same]
  cases found : table.outputs.find? fun output => decide (output.name = name) with
  | none => rfl
  | some output =>
      have named : output.name = name := by simpa using List.find?_some found
      simp [named]

end UnitForge.ArtifactTable
