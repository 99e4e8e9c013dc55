import Mathlib.Data.List.Basic
import ModuleAtlas.Proofs.Json.Reading
import ModuleAtlas.Report

/-! # The text of a report

The text of a report is JSON text, and it spells the value of the report and nothing else
(`ModuleAtlas.Report.toText_decodes`). The value has a field for all that the report says, so
two different reports have different texts.
-/

namespace ModuleAtlas

/-- The names of the fields of an object, in order. -/
def Json.names : Json → List String
  | .obj fields => fields.map Prod.fst
  | _ => []

private theorem Json.strs_injective : Function.Injective Json.strs := by
  intro first second same
  exact List.map_injective_iff.mpr (fun _ _ => Json.str.inj) (Json.arr.inj same)

private theorem Json.nat_injective : Function.Injective Json.nat := by
  intro first second same
  exact Int.ofNat.inj (Json.int.inj same)

namespace Report

/-- A field that is left out differs from one that is there, whatever its value. -/
theorem optionalField_injective (name : String) : Function.Injective (optionalField name) := by
  intro first second same
  cases first with
  | none => cases second with
    | none => rfl
    | some value => cases same
  | some value => cases second with
    | none => cases same
    | some other =>
        cases same
        rfl

private theorem dependencyJson_injective : Function.Injective dependencyJson := by
  intro first second same
  simp only [dependencyJson, Json.obj.injEq, List.cons.injEq, Prod.mk.injEq, Json.str.injEq,
    Json.bool.injEq] at same
  exact Prod.ext same.1.2 same.2.1.2

private theorem nodeJson_injective : Function.Injective nodeJson := by
  intro first second same
  simp only [nodeJson, Json.obj.injEq, List.cons_append, List.nil_append, List.cons.injEq,
    Prod.mk.injEq, Json.str.injEq, Json.bool.injEq, Json.arr.injEq, true_and] at same
  obtain ⟨id, external, dependencies, circular, modes⟩ := same
  have listed := List.map_injective_iff.mpr dependencyJson_injective dependencies
  have held := Option.map_injective Json.strs_injective (optionalField_injective _ modes)
  cases first
  cases second
  subst id external listed circular held
  rfl

private theorem summaryJson_injective : Function.Injective summaryJson := by
  intro first second same
  simp only [summaryJson, Json.obj.injEq, List.cons.injEq, Prod.mk.injEq, true_and, and_true,
    Json.nat_injective.eq_iff] at same
  obtain ⟨files, inside, outside, dependencies, circular, cycles⟩ := same
  cases first
  cases second
  subst files inside outside dependencies circular cycles
  rfl

private theorem modeJson_injective : Function.Injective modeJson := by
  intro first second same
  simp only [modeJson, Json.obj.injEq, List.cons.injEq, Prod.mk.injEq, true_and, and_true,
    Json.nat_injective.eq_iff, Json.strs_injective.eq_iff] at same
  obtain ⟨count, files⟩ := same
  cases first
  cases second
  subst count files
  rfl

private theorem modesJson_injective : Function.Injective modesJson := by
  intro first second same
  refine List.map_injective_iff.mpr ?_ (Json.obj.inj same)
  intro mode other same
  obtain ⟨name, files⟩ := Prod.mk.inj same
  exact Prod.ext name (modeJson_injective files)

/-- The value of a report has all that the report says. -/
theorem toJson_injective : Function.Injective toJson := by
  intro first second same
  simp only [toJson, Json.obj.injEq, List.cons_append, List.nil_append, List.cons.injEq,
    Prod.mk.injEq, Json.arr.injEq, true_and] at same
  obtain ⟨nodes, cycles, summary, modes⟩ := same
  have nodes := List.map_injective_iff.mpr nodeJson_injective nodes
  have cycles := List.map_injective_iff.mpr Json.strs_injective cycles
  have summary := summaryJson_injective summary
  have modes := Option.map_injective modesJson_injective (optionalField_injective _ modes)
  cases first
  cases second
  subst nodes cycles summary modes
  rfl

/-- The text of a report is JSON text. It spells the value of the report and no other, and it
is read as this value. The fields of the value and of each node come in order, and a field is
left out exactly if the report has nothing for it, not if what it has is empty. Reports with
the same text are the same. -/
theorem toText_decodes (report : Report) :
    (∀ value, Json.Spells report.toText.toList value ↔ value = report.toJson) ∧
      Json.read? report.toText = some report.toJson ∧
      report.toJson.names = ["nodes", "cycles", "summary"] ++
        (if report.deploymentModes.isSome then ["deploymentModes"] else []) ∧
      (∀ node ∈ report.nodes, (nodeJson node).names =
        ["id", "isExternal", "dependencies", "hasCircularDependency"] ++
          if node.deploymentModes.isSome then ["deploymentModes"] else []) ∧
      ∀ other : Report, other.toText = report.toText → other = report := by
  have spelled (report : Report) : Json.Spells report.toText.toList report.toJson :=
    Json.spells_pretty report.toJson
  have read (report : Report) := Json.read?_of_spells (spelled report)
  refine ⟨fun value => ⟨fun other => other.unique (spelled report), ?_⟩, read report, ?_, ?_, ?_⟩
  · rintro rfl
    exact spelled report
  · cases report with
    | mk nodes cycles summary modes => cases modes <;> rfl
  · intro node _
    cases node with
    | mk id external dependencies circular modes => cases modes <;> rfl
  · intro other same
    apply toJson_injective
    have both := read other
    rw [same, read report] at both
    exact (Option.some.inj both).symm

end Report

end ModuleAtlas
