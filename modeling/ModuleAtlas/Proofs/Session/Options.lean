import Mathlib.Logic.Basic
import ModuleAtlas.Session.Options

/-! # What named options do to a scan

The values of named options are of any kind, and a scan takes some of them. What it makes of a
value is a relation for each option (`ModuleAtlas.NamedOptions.Lists` and those after it). An
option that is given replaces the configured one, and the others stay
(`ModuleAtlas.NamedOptions.Overrides`). Named options are accepted exactly if there are such scan
options, and these are the ones that the scan is run with
(`ModuleAtlas.NamedOptions.applyTo_eq_ok_iff`); the order in which values are checked shows only
in the failure.
-/

namespace ModuleAtlas

/-- A value that counts as a no. -/
inductive Json.IsFalsy : Json → Prop where
  | null : IsFalsy .null
  | no : IsFalsy (.bool false)
  | zero : IsFalsy (.int 0)
  | real {value : Decimal} (zero : (value.toFloat == 0) = true) : IsFalsy (.real value)
  | text : IsFalsy (.str "")
  | list : IsFalsy (.arr [])
  | object : IsFalsy (.obj [])

namespace NamedOptions

/-- A value lists texts: as a list of them, as the names of an object or as the characters of a
text. -/
inductive Lists : Json → List String → Prop where
  | items (texts : List String) : Lists (.arr (texts.map .str)) texts
  | names (fields : List (String × Json)) : Lists (.obj fields) (fields.map Prod.fst)
  | letters (text : String) : Lists (.str text) (text.toList.map fun c => String.ofList [c])

/-- A value names a file to start from, or none. -/
inductive Starts : Json → Option String → Prop where
  | file (name : String) : Starts (.str name) (some name)
  | none {value : Json} (empty : value.IsFalsy) (noText : ∀ name, value ≠ .str name) :
      Starts value none

/-- A value sets a limit: none, a number of steps, or what cannot be told before a depth is
compared with it. -/
inductive Limits : Json → DepthLimit → Prop where
  | none : Limits .null .unlimited
  | depth (depth : Int) : Limits (.int depth) (.atMost depth)
  | other {value : Json} (given : value ≠ .null) (noDepth : ∀ depth, value ≠ .int depth) :
      Limits value (.other value)

/-- A value says whether something is to be done. -/
def Decides (value : Json) (yes : Bool) : Prop := yes = false ↔ value.IsFalsy

/-- A value is a text. -/
def Spells (value : Json) (text : String) : Prop := value = .str text

/-- A new setting is what a given value is read as, or else the old one. -/
def Replaces {α : Type} (given : Option Json) (reads : Json → α → Prop) (old new : α) : Prop :=
  match given with
  | none => new = old
  | some value => reads value new

/-- Scan options are those that are configured, each replaced by the named one if that is given.
All names are those of options, and the policy is a known one. -/
structure Overrides (named : NamedOptions) (configured options : ScanOptions) : Prop where
  known : ∀ option ∈ named, option.1 ∈ scanNames
  extensions : Replaces (named.lookup "extensions") Lists
    configured.filter.extensions options.filter.extensions
  excluded : Replaces (named.lookup "exclude_dirs") Lists
    configured.filter.excluded options.filter.excluded
  startFile : Replaces (named.lookup "start_file") Starts configured.startFile options.startFile
  limit : Replaces (named.lookup "max_depth") Limits configured.limit options.limit
  analyzeModes : Replaces (named.lookup "analyze_modes") Decides
    configured.analyzeModes options.analyzeModes
  externalEdges : Replaces (named.lookup "external_edges") Spells
    configured.externalEdges options.externalEdges
  policy : options.externalEdges = "strict" ∨ options.externalEdges = "lenient"

section Values

variable {value : Json} {named : NamedOptions}

/-- The values that count as a no are those that are empty, zero or missing. -/
theorem isTruthy_eq_false_iff : value.isTruthy = false ↔ value.IsFalsy := by
  constructor
  · intro falsy
    cases value with
    | null => exact .null
    | bool value =>
        cases falsy
        exact .no
    | int value =>
        have zero : value = 0 := not_not.mp (of_decide_eq_false falsy)
        exact zero ▸ .zero
    | real value => exact .real (Bool.not_eq_eq_eq_not.mp falsy)
    | str value =>
        have empty : value = "" := not_not.mp (of_decide_eq_false falsy)
        exact empty ▸ .text
    | arr items =>
        have empty := List.isEmpty_iff.mp (Bool.not_eq_eq_eq_not.mp falsy)
        exact empty ▸ .list
    | obj fields =>
        have empty := List.isEmpty_iff.mp (Bool.not_eq_eq_eq_not.mp falsy)
        exact empty ▸ .object
  · intro falsy
    cases falsy with
    | real zero => exact Bool.not_eq_eq_eq_not.mpr zero
    | null | no | zero | text | list | object => rfl

private theorem map_str_eq_iff {texts others : List String} :
    texts.map Json.str = others.map .str ↔ others = texts :=
  (List.map_inj_right fun _ _ => Json.str.inj).trans eq_comm

private theorem textsFrom_eq_ok_iff {index : Nat} {items : List Json} {texts : List String} :
    textsFrom index items = .ok texts ↔ items = texts.map .str := by
  induction items generalizing index texts with
  | nil => cases texts <;> simp [textsFrom]
  | cons item items ih =>
      cases item with
      | str text =>
          rw [textsFrom]
          cases later : textsFrom (index + 1) items with
          | error failure =>
              refine iff_of_false (fun failed => nomatch failed) fun whole => ?_
              obtain ⟨first, rest, rfl, -, same⟩ := List.map_eq_cons_iff.mp whole.symm
              cases (ih.mpr same.symm).symm.trans later
          | ok rest =>
              have same := ih.mp later
              cases texts with
              | nil =>
                  simp only [bind, Except.bind, Except.ok.injEq, reduceCtorEq, same, List.map_nil]
              | cons first others =>
                  rw [same, List.map_cons, List.cons.injEq, map_str_eq_iff, Json.str.injEq]
                  constructor
                  · rintro ⟨⟩
                    exact ⟨rfl, rfl⟩
                  · rintro ⟨rfl, rfl⟩
                    rfl
      | null | bool | int | real | arr | obj =>
          refine iff_of_false (fun failed => nomatch failed) fun whole => ?_
          cases texts <;> cases whole

/-- Taken apart and read as texts, a value gives what it lists. -/
theorem lists_iff {texts : List String} :
    (∃ parts, items value = .ok parts ∧ textsFrom 0 parts = .ok texts) ↔ Lists value texts := by
  have opened : ∀ {parts}, items value = .ok parts →
      ((∃ parts, items value = .ok parts ∧ textsFrom 0 parts = .ok texts) ↔
        parts = texts.map .str) := by
    intro parts taken
    simp only [taken, Except.ok.injEq, exists_eq_left', textsFrom_eq_ok_iff]
  cases value with
  | arr items =>
      rw [opened rfl]
      constructor
      · rintro rfl
        exact .items texts
      · intro lists
        cases lists
        rfl
  | obj fields =>
      have named : fields.map (fun field => Json.str field.1) = (fields.map Prod.fst).map .str := by
        rw [List.map_map]
        rfl
      rw [opened rfl, named, map_str_eq_iff]
      constructor
      · rintro rfl
        exact .names fields
      · intro lists
        cases lists
        rfl
  | str text =>
      have spelled : text.toList.map (fun c => Json.str (String.ofList [c])) =
          (text.toList.map fun c => String.ofList [c]).map .str := by
        rw [List.map_map]
        rfl
      rw [opened rfl, spelled, map_str_eq_iff]
      constructor
      · rintro rfl
        exact .letters text
      · intro lists
        cases lists
        rfl
  | null | bool | int | real =>
      refine iff_of_false ?_ fun lists => nomatch lists
      rintro ⟨parts, taken, -⟩
      cases taken

private theorem startOf_of_noText (noText : ∀ name, value ≠ .str name) :
    startOf value = if value.isTruthy then .error (.notJoinable value.kind) else .ok none := by
  cases value with
  | str name => exact absurd rfl (noText name)
  | null | bool | int | real | arr | obj => rfl

/-- The start file is what a value names. -/
theorem startOf_eq_ok_iff {start : Option String} :
    startOf value = .ok start ↔ Starts value start := by
  by_cases text : ∃ name, value = .str name
  · obtain ⟨name, rfl⟩ := text
    constructor
    · rintro ⟨⟩
      exact .file name
    · intro starts
      cases starts with
      | file name => rfl
      | none _ noText => exact absurd rfl (noText name)
  · have noText := not_exists.mp text
    rw [startOf_of_noText noText]
    cases truth : value.isTruthy with
    | true =>
        refine iff_of_false (fun failed => nomatch failed) fun starts => ?_
        cases starts with
        | file name => exact noText name rfl
        | none empty => cases truth.symm.trans (isTruthy_eq_false_iff.mpr empty)
    | false =>
        constructor
        · rintro ⟨⟩
          exact .none (isTruthy_eq_false_iff.mp truth) noText
        · intro starts
          cases starts with
          | file name => exact absurd rfl (noText name)
          | none => rfl

/-- The limit is what a value sets. -/
theorem ofJson_eq_iff {limit : DepthLimit} :
    DepthLimit.ofJson value = limit ↔ Limits value limit := by
  constructor
  · rintro rfl
    cases value with
    | null => exact .none
    | int depth => exact .depth depth
    | bool | real | str | arr | obj =>
        exact .other (fun same => nomatch same) fun _ same => nomatch same
  · intro limits
    cases limits with
    | none => rfl
    | depth => rfl
    | other given noDepth =>
        cases value with
        | null => exact absurd rfl given
        | int depth => exact absurd rfl (noDepth depth)
        | bool | real | str | arr | obj => rfl

private theorem isSome_ofName?_iff {name : String} :
    (ExternalPolicy.ofName? name).isSome = true ↔ name = "strict" ∨ name = "lenient" := by
  unfold ExternalPolicy.ofName?
  split <;> simp_all

/-- The policy is what a value spells, if it is a known one. -/
theorem policyOf_eq_ok_iff {policy : String} :
    policyOf value = .ok policy ↔
      Spells value policy ∧ (policy = "strict" ∨ policy = "lenient") := by
  cases value with
  | str name =>
      rw [policyOf, Spells, Json.str.injEq, ← isSome_ofName?_iff]
      constructor
      · intro named
        split at named
        · next known =>
            cases named
            exact ⟨rfl, known⟩
        · cases named
      · rintro ⟨rfl, known⟩
        rw [if_pos known]
  | null | bool | int | real | arr | obj =>
      exact iff_of_false (fun failed => nomatch failed) fun spells => nomatch spells.1

/-- The names are accepted exactly if they are all those of options. -/
theorem checkNames_eq_ok_iff :
    named.checkNames = .ok () ↔ ∀ option ∈ named, option.1 ∈ scanNames := by
  have foreign : "settings" ∉ scanNames := by decide
  have all : (∀ option ∈ named, option.1 ∈ scanNames) ↔ ∀ name ∈ named.names, name ∈ scanNames :=
    List.forall_mem_map.symm
  rw [all, checkNames]
  by_cases repeated : "settings" ∈ named.names
  · rw [if_pos repeated]
    exact iff_of_false (fun failed => nomatch failed) fun known => foreign (known _ repeated)
  · rw [if_neg repeated]
    cases found : named.names.find? (· ∉ scanNames) with
    | none =>
        refine iff_of_true rfl fun name member => ?_
        simpa using List.find?_eq_none.mp found name member
    | some name =>
        have strange : name ∉ scanNames := by simpa using List.find?_some found
        refine iff_of_false (fun accepted => ?_) fun known =>
          strange (known name (List.mem_of_find?_eq_some found))
        dsimp only at accepted
        split at accepted <;> cases accepted

/-- A value that takes the place of a configured one is read as a replacement, if the configured
one is read as itself. -/
private theorem reads_value_iff {α : Type} {reads : Json → α → Prop} {configured : Json}
    {old new : α} (name : String) (faithful : reads configured new ↔ new = old) :
    reads (named.value name configured) new ↔ Replaces (named.lookup name) reads old new := by
  unfold value Replaces
  cases named.lookup name with
  | none => exact faithful
  | some value => exact Iff.rfl

end Values

section Application

variable {named : NamedOptions} {tree : FileTree} {root : Path} {configured options : ScanOptions}

private theorem after_bind_eq_ok_iff {α β : Type} {notices : List Notice}
    {outcome : Except Failure α} {next : α → Except (List Notice × Failure) β} {result : β} :
    (after notices outcome >>= next) = .ok result ↔
      ∃ value, outcome = .ok value ∧ next value = .ok result := by
  cases outcome with
  | error failure =>
      exact iff_of_false (fun failed => nomatch failed) fun ⟨_, failed, _⟩ => nomatch failed
  | ok value => simp only [Except.ok.injEq, exists_eq_left']; rfl

private theorem lists_strs_iff {old new : List String} : Lists (.strs old) new ↔ new = old := by
  rw [← lists_iff, Json.strs]
  simp only [items, Except.ok.injEq, exists_eq_left', textsFrom_eq_ok_iff, map_str_eq_iff]

private theorem starts_configured_iff {old new : Option String} :
    Starts ((old.map .str).getD .null) new ↔ new = old := by
  have read : startOf ((old.map .str).getD .null) = .ok old := by
    cases old <;> rfl
  rw [← startOf_eq_ok_iff, read, Except.ok.injEq, eq_comm]

private theorem spells_str_iff {old new : String} : Spells (.str old) new ↔ new = old := by
  rw [Spells, Json.str.injEq, eq_comm]

private theorem replaces_limit_iff {given : Option Json} {old new : DepthLimit} :
    Replaces given Limits old new ↔ new = (given.map .ofJson).getD old := by
  cases given with
  | none => exact Iff.rfl
  | some value => exact ofJson_eq_iff.symm.trans eq_comm

private theorem replaces_decision_iff {given : Option Json} {old new : Bool} :
    Replaces given Decides old new ↔ new = (given.map Json.isTruthy).getD old := by
  cases given with
  | none => exact Iff.rfl
  | some value =>
      have same : Decides value new ↔ new = value.isTruthy := by
        rw [Decides, ← isTruthy_eq_false_iff]
        cases new <;> cases value.isTruthy <;> decide
      exact same

/-- Named options are accepted exactly if they override the configured ones, and then the scan
options are as they say. -/
theorem applyTo_eq_ok_iff :
    named.applyTo tree root configured = .ok options ↔ named.Overrides configured options := by
  unfold applyTo
  simp only [after_bind_eq_ok_iff, startOf_eq_ok_iff, policyOf_eq_ok_iff]
  constructor
  · rintro ⟨⟨⟩, named, start, starts, extensions, front, excluded, back, policy, ⟨spelled, valid⟩,
      listed, early, others, late, same⟩
    cases same
    constructor
    case known => exact checkNames_eq_ok_iff.mp named
    case extensions =>
      exact (reads_value_iff _ lists_strs_iff).mp (lists_iff.mp ⟨extensions, front, early⟩)
    case excluded =>
      exact (reads_value_iff _ lists_strs_iff).mp (lists_iff.mp ⟨excluded, back, late⟩)
    case startFile => exact (reads_value_iff _ starts_configured_iff).mp starts
    case limit => exact replaces_limit_iff.mpr rfl
    case analyzeModes => exact replaces_decision_iff.mpr rfl
    case externalEdges => exact (reads_value_iff _ spells_str_iff).mp spelled
    case policy => exact valid
  · intro overrides
    obtain ⟨extensions, front, early⟩ :=
      lists_iff.mpr ((reads_value_iff _ lists_strs_iff).mpr overrides.extensions)
    obtain ⟨excluded, back, late⟩ :=
      lists_iff.mpr ((reads_value_iff _ lists_strs_iff).mpr overrides.excluded)
    have starts := (reads_value_iff _ starts_configured_iff).mpr overrides.startFile
    have spelled := (reads_value_iff _ spells_str_iff).mpr overrides.externalEdges
    have known := checkNames_eq_ok_iff.mpr overrides.known
    refine ⟨(), known, _, starts, _, front, _, back, _, ⟨spelled, overrides.policy⟩, _,
      early, _, late, ?_⟩
    rw [← replaces_limit_iff.mp overrides.limit, ← replaces_decision_iff.mp overrides.analyzeModes]

/-- The names of the options that replace a part of the filter. -/
def filterNames : List String := ["extensions", "exclude_dirs"]

/-- Options of other names leave the filter as it is. -/
theorem Overrides.filter_eq (overrides : named.Overrides configured options)
    (others : ∀ option ∈ named, option.1 ∉ filterNames) : options.filter = configured.filter := by
  have absent : ∀ name ∈ filterNames, named.lookup name = none := by
    intro name filters
    rw [← Option.not_isSome_iff_eq_none, ← Table.mem_names_iff]
    intro given
    obtain ⟨option, member, rfl⟩ := List.mem_map.mp given
    exact others option member filters
  have extensions := overrides.extensions
  have excluded := overrides.excluded
  rw [absent _ (by decide)] at extensions excluded
  exact congrArg₂ SourceFilter.mk extensions excluded

end Application

end NamedOptions

/-- A configured scan succeeds exactly if its options are accepted and the scan with them
succeeds. -/
theorem scanConfigured_eq_ok_iff {tree : FileTree} {settings : Settings} {named : NamedOptions}
    {result : ScanResult} :
    (scanConfigured tree settings named).2 = .ok result ↔
      ∃ options, named.Overrides (settings.scanOptions tree) options ∧
        (scan tree (settings.rootDir tree) options).2 = .ok result := by
  simp only [← @NamedOptions.applyTo_eq_ok_iff named tree (settings.rootDir tree)]
  unfold scanConfigured
  cases named.applyTo tree (settings.rootDir tree) (settings.scanOptions tree) with
  | error refusal =>
      exact iff_of_false (fun failed => nomatch failed) fun ⟨_, failed, _⟩ => nomatch failed
  | ok options => simp only [Except.ok.injEq, exists_eq_left']

end ModuleAtlas
