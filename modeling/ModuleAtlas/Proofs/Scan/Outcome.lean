import ModuleAtlas.Proofs.Build.Targets
import ModuleAtlas.Proofs.Discovery.Exact
import ModuleAtlas.Scan

/-! # What a scan comes down to

A scan is a build and what is made of its graph (`ModuleAtlas.scan_eq_ok_iff`). Every
scanned file has passed the filter of the scan, unless the scan starts from it
(`ModuleAtlas.startsFrom_or_passes`).
-/

namespace ModuleAtlas

variable {tree : FileTree} {root : Path} {options : ScanOptions} {result : ScanResult}
variable {file : String}

/-- What a scan asks of the build. -/
def ScanOptions.toRequest (options : ScanOptions) : BuildRequest :=
  ⟨options.filter, options.startFile, options.limit⟩

/-- The project that a scan builds the graph of. -/
def scannedProject (tree : FileTree) (root : Path) (policy : ExternalPolicy) : Project :=
  ⟨tree, Build.absoluteRoot tree root, policy⟩

/-- A scan succeeds exactly if it is given a known policy and its build succeeds. -/
theorem scan_eq_ok_iff : (scan tree root options).2 = .ok result ↔
    ∃ policy, ExternalPolicy.ofName? options.externalEdges = some policy ∧
      let built := Build.build (scannedProject tree root policy) options.toRequest Store.empty
      built.failure = none ∧
        (Scan.analyze root options.analyzeModes built.store.graph).2 = result := by
  unfold scan scannedProject ScanOptions.toRequest
  cases known : ExternalPolicy.ofName? options.externalEdges with
  | none => simp only [reduceCtorEq, false_and, exists_false]
  | some policy =>
      dsimp only
      cases ended : (Build.build ⟨tree, Build.absoluteRoot tree root, policy⟩
          ⟨options.filter, options.startFile, options.limit⟩ Store.empty).failure with
      | some failure =>
          simp only [reduceCtorEq, Option.some.injEq, exists_eq_left', ended, false_and]
      | none => simp only [Except.ok.injEq, Option.some.injEq, exists_eq_left', ended, true_and]

/-- A file is the one that a scan of a tree starts from. -/
def ScanOptions.StartsFrom (options : ScanOptions) (tree : FileTree) (root : Path)
    (file : String) : Prop :=
  ∃ start policy, options.startFile = some start ∧
    Build.startPoint? (scannedProject tree root policy) start = .ok (some file)

/-- A scanned file has passed the filter, unless the scan starts from it. -/
theorem startsFrom_or_passes (found : (scan tree root options).2 = .ok result)
    (scanned : file ∈ result.graph.scanned) :
    options.StartsFrom tree root file ∨
      options.filter.ignores file = false ∧ options.filter.supports file = true := by
  obtain ⟨policy, -, -, rfl⟩ := scan_eq_ok_iff.mp found
  rcases Build.mem_scanned_cases scanned with listed | ⟨start, named, point⟩
  · obtain ⟨files, discovery, member⟩ := Build.exists_discover_of_mem listed
    exact Or.inr (FileTree.passes_of_mem_discover discovery member).2
  · exact Or.inl ⟨start, policy, named, point⟩

/-- The path of a scanned file is made of proper names. -/
theorem exists_parts_of_mem_scanned (found : (scan tree root options).2 = .ok result)
    (scanned : file ∈ result.graph.scanned) :
    ∃ parts, Path.relativeText parts = file ∧ ∀ part ∈ parts, Path.IsProper part := by
  obtain ⟨policy, -, -, rfl⟩ := scan_eq_ok_iff.mp found
  rcases Build.mem_scanned_cases scanned with listed | ⟨start, -, point⟩
  · exact ⟨Text.splitAt '/' file, Path.relativeText_splitAt file,
      (Build.isNormal_of_discovered listed).isProper⟩
  · unfold Build.startPoint? at point
    dsimp only at point
    split at point
    · cases point
    · next parts _ below =>
        cases point
        exact ⟨parts, rfl, Path.isProper_of_relativeTo? below⟩
    · cases point

end ModuleAtlas
