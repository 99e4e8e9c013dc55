import ModuleAtlas.Proofs.Json.Cutting

/-! # Reading what the grammar admits

The tokens of a value are put together to the value again (`ModuleAtlas.Json.reads`). So the
reader finds the value of every text of the grammar (`ModuleAtlas.Json.read?_of_spells`), no
text spells two values, and what the printer writes is read back.
-/

namespace ModuleAtlas.Json

section Reading

private theorem tokens_eq_cons (value : Json) :
    ∃ first rest, value.tokens = first :: rest ∧ first ≠ .closeList := by
  cases value with
  | arr items => cases items <;> exact ⟨_, _, by rw [tokens], by simp⟩
  | obj fields =>
      rcases fields with _ | ⟨⟨name, value⟩, fields⟩ <;> exact ⟨_, _, by rw [tokens], by simp⟩
  | _ => exact ⟨_, _, by rw [tokens], by simp⟩

/-- What becomes of a reading when tokens are fed to it. -/
def feed (reading : Reading) (tokens : List Token) : Option Reading :=
  tokens.foldlM Reading.step reading

private theorem feed_cons {reading next : Reading} {token : Token}
    (stepped : reading.step token = some next) (tokens : List Token) :
    feed reading (token :: tokens) = feed next tokens := by
  unfold feed
  rw [List.foldlM_cons, stepped]
  rfl

private theorem feed_append {reading next : Reading} {tokens : List Token}
    (fed : feed reading tokens = some next) (more : List Token) :
    feed reading (tokens ++ more) = feed next more := by
  unfold feed at fed ⊢
  rw [List.foldlM_append, fed]
  rfl

private theorem feed_singleton (reading : Reading) (token : Token) :
    feed reading [token] = reading.step token := by
  unfold feed
  rw [List.foldlM_cons]
  cases reading.step token <;> rfl

/-- The tokens of a value put it wherever a value may stand. -/
def Reads (value : Json) : Prop :=
  ∀ frames, feed ⟨frames, .value, none⟩ value.tokens = Reading.accept value frames

/-- So they do at the start of a list, since they do not close it. -/
theorem Reads.first {value : Json} (reads : Reads value) (frames : List Frame) :
    feed ⟨frames, .firstItem, none⟩ value.tokens = Reading.accept value frames := by
  obtain ⟨first, rest, shape, opens⟩ := tokens_eq_cons value
  have start : Reading.step ⟨frames, .firstItem, none⟩ first =
      Reading.step ⟨frames, .value, none⟩ first := by
    cases first <;> first | rfl | exact absurd rfl opens
  rw [← reads frames, shape]
  unfold feed
  rw [List.foldlM_cons, List.foldlM_cons, start]

private theorem feed_itemTokens {items : List Json} (each : ∀ item ∈ items, Reads item)
    (done : List Json) (frames : List Frame) :
    feed ⟨.list done :: frames, .next, none⟩ (itemTokens items ++ [.closeList]) =
      Reading.accept (.arr (done.reverse ++ items)) frames := by
  induction items generalizing done with
  | nil =>
      rw [itemTokens, List.nil_append, feed_singleton, List.append_nil]
      rfl
  | cons item items ih =>
      have reads := each item List.mem_cons_self (.list done :: frames)
      have others := ih (fun other member => each other (List.mem_cons_of_mem item member))
        (item :: done)
      rw [itemTokens, List.cons_append, List.append_assoc, feed_cons rfl, feed_append reads, others,
        List.reverse_cons, List.append_assoc, List.singleton_append]

private theorem feed_fieldTokens {fields : List (String × Json)}
    (each : ∀ field ∈ fields, Reads field.2) (done : List (String × Json)) (frames : List Frame) :
    feed ⟨.object done :: frames, .next, none⟩ (fieldTokens fields ++ [.closeObject]) =
      Reading.accept (.obj (done.reverse ++ fields)) frames := by
  induction fields generalizing done with
  | nil =>
      rw [fieldTokens, List.nil_append, feed_singleton, List.append_nil]
      rfl
  | cons field fields ih =>
      have reads := each field List.mem_cons_self (.member done field.1 :: frames)
      have others := ih (fun other member => each other (List.mem_cons_of_mem field member))
        (field :: done)
      rw [fieldTokens, List.cons_append, List.cons_append, List.cons_append, List.append_assoc,
        feed_cons rfl, feed_cons rfl, feed_cons rfl, feed_append reads, others,
        List.reverse_cons, List.append_assoc, List.singleton_append]

/-- The tokens of a value are put together to the value. -/
theorem reads (value : Json) : Reads value := by
  induction value using Json.induction with
  | arr items ih =>
      intro frames
      cases items with
      | nil =>
          rw [tokens, feed_cons rfl, feed_singleton]
          rfl
      | cons item items =>
          have first := (ih item List.mem_cons_self).first (.list [] :: frames)
          rw [tokens, feed_cons rfl, feed_append first,
            feed_itemTokens fun other member => ih other (List.mem_cons_of_mem item member)]
          rfl
  | obj fields ih =>
      intro frames
      rcases fields with _ | ⟨⟨name, value⟩, fields⟩
      · rw [tokens, feed_cons rfl, feed_singleton]
        rfl
      · have first := ih (name, value) List.mem_cons_self (.member [] name :: frames)
        rw [tokens, feed_cons rfl, feed_cons rfl, feed_cons rfl, feed_append first,
          feed_fieldTokens fun other member => ih other (List.mem_cons_of_mem _ member)]
        rfl
  | _ =>
      intro frames
      rw [tokens, feed_singleton]
      rfl

end Reading

/-- The reader finds the value that a text spells. -/
theorem read?_of_spells {text : String} {value : Json} (spelled : Spells text.toList value) :
    read? text = some value := by
  have cut : tokens? text.toList = some value.tokens := by
    have whole := cuts_of_spells spelled [] ends_nil
    simpa only [tokens?, List.append_nil, cutFrom, Option.map_some] using whole
  have fed : value.tokens.foldlM Reading.step {} = some ⟨[], .next, some value⟩ := reads value []
  unfold read?
  rw [cut]
  change (value.tokens.foldlM Reading.step {}).bind _ = _
  rw [fed]
  rfl

/-- A text spells one value at most. -/
theorem Spells.unique {text : List Char} {first second : Json} (one : Spells text first)
    (other : Spells text second) : first = second := by
  rw [← String.toList_ofList (l := text)] at one other
  exact Option.some.inj ((read?_of_spells one).symm.trans (read?_of_spells other))

/-- The indented text of a value spells it. -/
theorem spells_pretty (value : Json) : Spells value.pretty.toList value := by
  unfold pretty
  rw [String.toList_ofList]
  exact spells_write value 0

end ModuleAtlas.Json
