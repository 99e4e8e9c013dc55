import ModuleAtlas.Proofs.Path.Normal

/-! # The text of an absolute path

The text of a path spells that path again (`ModuleAtlas.Path.ofString_toString`), and the
directory that the text of an absolute path names is the path of the parent
(`ModuleAtlas.Path.directoryOf_toString`). Both follow from how the text is split at its
slashes (`ModuleAtlas.Path.exists_splitAt_toString`).
-/

namespace ModuleAtlas

private theorem Text.utf8ByteSize_join_concat_le (texts : List String) (last : String) :
    (join "/" (texts ++ [last])).utf8ByteSize ≤
      (join "/" texts).utf8ByteSize + 1 + last.utf8ByteSize := by
  have slash : "/".utf8ByteSize = 1 := by decide +kernel
  induction texts with
  | nil =>
      simp only [List.nil_append, join, String.utf8ByteSize_empty, Nat.zero_add, Nat.le_add_left]
  | cons first rest ih =>
      cases rest with
      | nil =>
          simp only [List.cons_append, List.nil_append, join, String.utf8ByteSize_append, slash,
            Std.le_refl]
      | cons second rest =>
          simp only [List.cons_append, join, String.utf8ByteSize_append] at ih ⊢
          omega

namespace Path

variable {path base : Path}

/-- A spelling is absolute exactly when it begins with a slash. -/
theorem isAbsolute_ofString (s : String) : (ofString s).isAbsolute = Text.beginsWith s "/" := by
  have slash : "/".toList = ['/'] := rfl
  unfold ofString isAbsolute Text.beginsWith
  rw [slash]
  cases s.toList with
  | nil => rfl
  | cons c chars =>
      by_cases same : '/' = c
      · subst same
        unfold rootOf
        split <;> simp_all
      · have differs : ['/'].isPrefixOf (c :: chars) = false := by
          rw [List.isPrefixOf, beq_eq_false_iff_ne.mpr same, Bool.false_and]
        rw [differs]
        unfold rootOf
        split <;> simp_all

/-- The text of proper relative parts does not begin with a slash. -/
theorem beginsWith_relativeText {parts : List String} (proper : ∀ part ∈ parts, IsProper part) :
    Text.beginsWith (relativeText parts) "/" = false := by
  rw [← isAbsolute_ofString, ofString_relativeText proper]
  rfl

/-- A normal name is relative. -/
theorem IsNormal.beginsWith_eq {name : String} (normal : IsNormal name) :
    Text.beginsWith name "/" = false := by
  have relative := beginsWith_relativeText normal.isProper
  rwa [relativeText_splitAt] at relative

/-- Nothing joined to an absolute path makes it relative. -/
theorem isAbsolute_join (absolute : base.isAbsolute = true) (s : String) :
    (base.join s).isAbsolute = true := by
  unfold join append
  split
  · next rooted => exact rooted
  · exact absolute

private theorem toList_spell_slash (parts : List String) :
    (spell .slash parts).toList = '/' :: (Text.join "/" parts).toList := by
  simp [spell, rootText]

private theorem toList_spell_doubleSlash (parts : List String) :
    (spell .doubleSlash parts).toList = '/' :: '/' :: (Text.join "/" parts).toList := by
  simp [spell, rootText]

/-- An absolute path is written with a slash in front. -/
theorem beginsWith_toString (absolute : path.isAbsolute = true) :
    Text.beginsWith path.toString "/" = true := by
  have slash : "/".toList = ['/'] := rfl
  rcases path with ⟨_ | _ | _, parts, proper⟩
  · cases absolute
  · rw [toString, Text.beginsWith, toList_spell_slash, slash]
    rfl
  · rw [toString, Text.beginsWith, toList_spell_doubleSlash, slash]
    rfl

private theorem partsOf_slash_append (s : String) : partsOf ("/" ++ s) = partsOf s := by
  have chars : ("/" ++ s).toList = '/' :: s.toList := by simp
  unfold partsOf Text.splitAt
  rw [chars, Text.splitChars, if_pos rfl, List.map_cons, List.filter_cons_of_neg (by decide)]

/-- The parts of a path are read back from its text. -/
theorem partsOf_toString (path : Path) : partsOf path.toString = path.parts := by
  rcases path with ⟨_ | _ | _, parts, proper⟩
  · exact congrArg Path.parts (ofString_relativeText proper)
  · exact (partsOf_slash_append _).trans (partsOf_join proper)
  · have twice : spell .doubleSlash parts = "/" ++ ("/" ++ Text.join "/" parts) := by
      rw [← String.append_assoc]
      rfl
    rw [toString, twice, partsOf_slash_append, partsOf_slash_append, partsOf_join proper]

/-- The text of an absolute path is split into nothing at first, and then its parts. -/
theorem exists_splitAt_toString (absolute : path.isAbsolute = true) (nonempty : path.parts ≠ []) :
    ∃ front, (∀ piece ∈ front, piece = "") ∧
      Text.splitAt '/' path.toString = front ++ path.parts := by
  have split := Text.splitAt_join nonempty fun part member => (path.proper part member).2
  rcases path with ⟨_ | _ | _, parts, proper⟩
  · cases absolute
  · refine ⟨[""], by simp, ?_⟩
    rw [toString, Text.splitAt, toList_spell_slash, Text.splitChars, if_pos rfl, List.map_cons]
    exact congrArg ("" :: ·) split
  · refine ⟨["", ""], by simp, ?_⟩
    rw [toString, Text.splitAt, toList_spell_doubleSlash, Text.splitChars, if_pos rfl,
      Text.splitChars, if_pos rfl, List.map_cons, List.map_cons]
    exact congrArg ("" :: "" :: ·) split

/-- The characters of a written absolute path are slashes and those of its parts. -/
theorem mem_toList_toString {c : Char} (absolute : path.isAbsolute = true)
    (member : c ∈ path.toString.toList) : c = '/' ∨ ∃ part ∈ path.parts, c ∈ part.toList := by
  rcases path with ⟨_ | _ | _, parts, proper⟩
  · cases absolute
  · rw [toString, toList_spell_slash, List.mem_cons] at member
    exact member.elim Or.inl fun later =>
      (Text.mem_toList_join later).imp_left List.mem_singleton.mp
  · rw [toString, toList_spell_doubleSlash, List.mem_cons, List.mem_cons] at member
    exact member.elim Or.inl fun later => later.elim Or.inl fun last =>
      (Text.mem_toList_join last).imp_left List.mem_singleton.mp

/-- A name written below an absolute path takes a slash and its own bytes at most. -/
theorem utf8ByteSize_spell_concat_le (absolute : path.isAbsolute = true) (name : String) :
    (spell path.root (path.parts ++ [name])).utf8ByteSize ≤
      path.toString.utf8ByteSize + 1 + name.utf8ByteSize := by
  have joined := Text.utf8ByteSize_join_concat_le path.parts name
  have relative : path.root ≠ .relative := by simpa [isAbsolute] using absolute
  simp only [toString, spell, if_neg relative, String.utf8ByteSize_append]
  omega

/-- One slash before a relative spelling is the root, and two are the other root. -/
theorem rootOf_cons_of_relative {chars : List Char} (relative : rootOf chars = .relative) :
    rootOf ('/' :: chars) = .slash ∧ rootOf ('/' :: '/' :: chars) = .doubleSlash := by
  cases chars with
  | nil => exact ⟨rfl, rfl⟩
  | cons c rest =>
      have noSlash : c ≠ '/' := by
        rintro rfl
        unfold rootOf at relative
        split at relative <;> simp_all
      constructor
      · unfold rootOf
        split <;> simp_all
      · unfold rootOf
        split
        · simp_all
        · rfl
        · next tail others same =>
            cases same
            exact absurd rfl (others (c :: rest))
        · simp_all

private theorem rootOf_toString (absolute : path.isAbsolute = true) :
    rootOf path.toString.toList = path.root := by
  have root := rootOf_cons_of_relative (rootOf_join path.proper)
  rcases path with ⟨_ | _ | _, parts, proper⟩
  · cases absolute
  · rw [toString, toList_spell_slash]
    exact root.1
  · rw [toString, toList_spell_doubleSlash]
    exact root.2

private theorem rootOf_append_of_relative {chars tail : List Char}
    (relative : rootOf chars = .relative) (begins : chars ≠ [] ∨ rootOf tail = .relative) :
    rootOf (chars ++ tail) = .relative := by
  cases chars with
  | nil => exact begins.resolve_left fun nonempty => nonempty rfl
  | cons c rest =>
      have noSlash : c ≠ '/' := by
        rintro rfl
        unfold rootOf at relative
        split at relative <;> simp_all
      unfold rootOf
      split <;> simp_all

/-- What is written behind the text of an absolute path leaves its leading slashes as they are,
unless it brings slashes to a bare root. -/
theorem root_ofString_append (absolute : path.isAbsolute = true) {tail : String}
    (apart : path.parts ≠ [] ∨ rootOf tail.toList = .relative) :
    (ofString (path.toString ++ tail)).root = path.root := by
  have begins : (Text.join "/" path.parts).toList ≠ [] ∨ rootOf tail.toList = .relative := by
    refine apart.imp_left fun nonempty blank => nonempty ?_
    rw [← partsOf_join path.proper, String.toList_inj.mp (blank.trans String.toList_empty.symm)]
    rfl
  have root := rootOf_cons_of_relative (rootOf_append_of_relative (rootOf_join path.proper) begins)
  change rootOf (path.toString ++ tail).toList = path.root
  rcases path with ⟨_ | _ | _, parts, proper⟩
  · cases absolute
  · rw [String.toList_append, toString, toList_spell_slash]
    exact root.1
  · rw [String.toList_append, toString, toList_spell_doubleSlash]
    exact root.2

/-- A relative name joined to an absolute path in writing keeps the root of the path. -/
theorem root_ofString_joinText (absolute : path.isAbsolute = true) {name : String}
    (relative : rootOf name.toList = .relative) :
    (ofString (joinText path.toString name)).root = path.root := by
  unfold joinText
  split
  · exact root_ofString_append absolute (Or.inr relative)
  · next unslashed =>
      rw [String.append_assoc]
      refine root_ofString_append absolute (Or.inl fun bare => unslashed ?_)
      rw [toString, bare]
      cases kind : path.root with
      | relative =>
          rw [isAbsolute, kind] at absolute
          cases absolute
      | slash => decide +kernel
      | doubleSlash => decide +kernel

/-- The text of a path spells that path. -/
theorem ofString_toString (path : Path) : ofString path.toString = path := by
  by_cases relative : path.root = .relative
  · obtain ⟨root, parts, proper⟩ := path
    cases relative
    exact ofString_relativeText proper
  · exact eq_of_parts (rootOf_toString (by simpa [isAbsolute] using relative))
      (partsOf_toString path)

/-- The directory in the text of an absolute path is its parent. -/
theorem directoryOf_toString (absolute : path.isAbsolute = true) (nonempty : path.parts ≠ []) :
    directoryOf path.toString = path.parent := by
  obtain ⟨front, blank, split⟩ := exists_splitAt_toString absolute nonempty
  have dropped : front.filter isPart = [] :=
    List.filter_eq_nil_iff.mpr fun piece member => by simp [blank piece member, isPart]
  have kept : path.parts.dropLast.filter isPart = path.parts.dropLast :=
    List.filter_eq_self.mpr fun part member => (path.parent.proper part member).1
  apply eq_of_parts
  · exact rootOf_toString absolute
  · change ((Text.splitAt '/' path.toString).dropLast.filter isPart) = path.parts.dropLast
    rw [split, List.dropLast_append_of_ne_nil nonempty, List.filter_append, dropped, kept,
      List.nil_append]

private theorem behind_append (base rest : List String) :
    behind base (base ++ rest) = some rest := by
  induction base with
  | nil => rfl
  | cons first base ih => rw [List.cons_append, behind, if_pos rfl, ih]

/-- Relative to its base, an extended path is what it was extended by. -/
theorem relativeTo?_extend (base : Path) {rest : List String}
    (proper : ∀ part ∈ rest, IsProper part) :
    (base.extend rest proper).relativeTo? base = some rest := by
  rw [relativeTo?, root_extend, if_pos rfl, parts_extend, behind_append]

end Path

end ModuleAtlas
