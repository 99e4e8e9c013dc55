import Mathlib.Data.List.Basic
import ModuleAtlas.Text.Utf8

/-! # What decodes and to what

The bytes that decode are those that spell a text, and they decode to that text
(`ModuleAtlas.Text.Utf8.decode_eq_ok_iff`). The decoder reads one byte at a time, so this comes
down to the bytes that it takes after a leading one
(`ModuleAtlas.Text.Utf8.Pending.Fills`): together they are the bytes of one character.
-/

namespace ModuleAtlas.Text.Utf8

/-- An incomplete character with one byte more. -/
def Pending.add (pending : Pending) (byte : UInt8) : Pending :=
  ⟨pending.start, pending.first, pending.missing - 1, pending.point * 64 + (byte.toNat - 0x80),
    0x80, 0xBF⟩

/-- Bytes complete a character. -/
inductive Pending.Fills : Pending → List UInt8 → Char → Prop where
  | last {pending : Pending} {byte : UInt8} (within : pending.low ≤ byte ∧ byte ≤ pending.high)
      (single : pending.missing ≤ 1) :
      pending.Fills [byte] (Char.ofNat (pending.add byte).point)
  | more {pending : Pending} {byte : UInt8} {tail : List UInt8} {c : Char}
      (within : pending.low ≤ byte ∧ byte ≤ pending.high) (several : ¬ pending.missing ≤ 1)
      (later : (pending.add byte).Fills tail c) : pending.Fills (byte :: tail) c

section Decoding

variable {pending : Pending} {bytes tail : List UInt8} {c : Char} {position : Nat}

private theorem decodeFrom_within {byte : UInt8} {rest : List UInt8}
    (within : pending.low ≤ byte ∧ byte ≤ pending.high) :
    decodeFrom position (some pending) (byte :: rest) =
      if pending.missing ≤ 1 then
        (decodeFrom (position + 1) none rest).map (Char.ofNat (pending.add byte).point :: ·)
      else decodeFrom (position + 1) (some (pending.add byte)) rest := by
  rw [decodeFrom, if_pos (by simpa only [Bool.and_eq_true, decide_eq_true_eq] using within)]
  split
  · cases decodeFrom (position + 1) none rest <;> rfl
  · rfl

private theorem decodeFrom_of_fills (fills : pending.Fills tail c) (position : Nat)
    (rest : List UInt8) :
    decodeFrom position (some pending) (tail ++ rest) =
      (decodeFrom (position + tail.length) none rest).map (c :: ·) := by
  induction fills generalizing position with
  | last within single => rw [List.cons_append, decodeFrom_within within, if_pos single]; rfl
  | more within several _ ih =>
      rw [List.cons_append, decodeFrom_within within, if_neg several, ih, List.length_cons,
        Nat.add_assoc, Nat.add_comm 1]

private theorem exists_fills_of_decodeFrom {chars : List Char}
    (decoded : decodeFrom position (some pending) bytes = .ok chars) :
    ∃ tail c rest later others, bytes = tail ++ rest ∧ chars = c :: others ∧
      pending.Fills tail c ∧ decodeFrom later none rest = .ok others := by
  induction bytes generalizing position pending with
  | nil => cases decoded
  | cons byte bytes ih =>
      by_cases within : pending.low ≤ byte ∧ byte ≤ pending.high
      · rw [decodeFrom_within within] at decoded
        split at decoded
        · next single =>
            cases ended : decodeFrom (position + 1) none bytes with
            | error fault =>
                rw [ended] at decoded
                cases decoded
            | ok others =>
                rw [ended] at decoded
                cases decoded
                exact ⟨[byte], _, bytes, _, others, rfl, rfl, .last within single, ended⟩
        · next several =>
            obtain ⟨tail, c, rest, later, others, rfl, rfl, fills, ended⟩ := ih decoded
            exact ⟨byte :: tail, c, rest, later, others, rfl, rfl, .more within several fills,
              ended⟩
      · rw [decodeFrom, if_neg (by simpa using within)] at decoded
        cases decoded

end Decoding

section Characters

variable {lead second third fourth : UInt8} {tail : List UInt8} {c : Char}

private theorem val_ofNat {point : Nat} (valid : point.isValidChar) :
    (Char.ofNat point).val.toNat = point := by
  rw [Char.ofNat, dif_pos valid]
  rfl

/-- What holds of a byte that continues a character. -/
def IsTail (byte : UInt8) : Prop := 0x80 ≤ byte.toNat ∧ byte.toNat ≤ 0xBF

private theorem utf8EncodeChar_one (low : lead < 0x80) :
    String.utf8EncodeChar (Char.ofNat lead.toNat) = [lead] := by
  have small : lead.toNat < 0x80 := UInt8.lt_iff_toNat_lt.mp low
  have valid : lead.toNat.isValidChar := by
    left
    omega
  rw [String.utf8EncodeChar, val_ofNat valid, if_pos (by omega), UInt8.ofNat_toNat]

private theorem utf8EncodeChar_two (low : 0xC2 ≤ lead.toNat) (high : lead.toNat < 0xE0)
    (tail : IsTail second) :
    String.utf8EncodeChar (Char.ofNat ((lead.toNat - 0xC0) * 64 + (second.toNat - 0x80))) =
      [lead, second] := by
  obtain ⟨second_low, second_high⟩ := tail
  have valid : ((lead.toNat - 0xC0) * 64 + (second.toNat - 0x80)).isValidChar := by
    left
    omega
  rw [String.utf8EncodeChar, val_ofNat valid, if_neg (by omega), if_pos (by omega)]
  simp only [List.cons.injEq, and_true, ← UInt8.toNat_inj, UInt8.toNat_ofNat']
  omega

private theorem utf8EncodeChar_three (low : 0xE0 ≤ lead.toNat) (high : lead.toNat < 0xF0)
    (tail : IsTail second) (long : lead.toNat = 0xE0 → 0xA0 ≤ second.toNat)
    (single : lead.toNat = 0xED → second.toNat ≤ 0x9F) (last : IsTail third) :
    String.utf8EncodeChar (Char.ofNat (((lead.toNat - 0xE0) * 64 + (second.toNat - 0x80)) * 64 +
      (third.toNat - 0x80))) = [lead, second, third] := by
  obtain ⟨second_low, second_high⟩ := tail
  obtain ⟨third_low, third_high⟩ := last
  have valid : (((lead.toNat - 0xE0) * 64 + (second.toNat - 0x80)) * 64 +
      (third.toNat - 0x80)).isValidChar := by
    unfold Nat.isValidChar
    omega
  rw [String.utf8EncodeChar, val_ofNat valid, if_neg (by omega), if_neg (by omega),
    if_pos (by omega)]
  simp only [List.cons.injEq, and_true, ← UInt8.toNat_inj, UInt8.toNat_ofNat']
  omega

private theorem utf8EncodeChar_four (low : 0xF0 ≤ lead.toNat) (high : lead.toNat < 0xF5)
    (tail : IsTail second) (long : lead.toNat = 0xF0 → 0x90 ≤ second.toNat)
    (bounded : lead.toNat = 0xF4 → second.toNat ≤ 0x8F) (next : IsTail third)
    (last : IsTail fourth) :
    String.utf8EncodeChar (Char.ofNat ((((lead.toNat - 0xF0) * 64 + (second.toNat - 0x80)) * 64 +
      (third.toNat - 0x80)) * 64 + (fourth.toNat - 0x80))) = [lead, second, third, fourth] := by
  obtain ⟨second_low, second_high⟩ := tail
  obtain ⟨third_low, third_high⟩ := next
  obtain ⟨fourth_low, fourth_high⟩ := last
  have valid : ((((lead.toNat - 0xF0) * 64 + (second.toNat - 0x80)) * 64 +
      (third.toNat - 0x80)) * 64 + (fourth.toNat - 0x80)).isValidChar := by
    unfold Nat.isValidChar
    omega
  rw [String.utf8EncodeChar, val_ofNat valid, if_neg (by omega), if_neg (by omega),
    if_neg (by omega)]
  simp only [List.cons.injEq, and_true, ← UInt8.toNat_inj, UInt8.toNat_ofNat']
  omega

private theorem isTail_iff : (0x80 : UInt8) ≤ second ∧ second ≤ 0xBF ↔ IsTail second := by
  simp only [UInt8.le_iff_toNat_le]
  exact Iff.rfl

/-- After some leading bytes the next one lies in a smaller range. -/
private theorem within_iff {long short least most : UInt8} (low : 0x80 ≤ least.toNat)
    (high : most.toNat ≤ 0xBF) :
    (if lead = long then least else 0x80) ≤ second ∧
      second ≤ (if lead = short then most else 0xBF) ↔
      IsTail second ∧ (lead.toNat = long.toNat → least.toNat ≤ second.toNat) ∧
        (lead.toNat = short.toNat → second.toNat ≤ most.toNat) := by
  simp only [IsTail, UInt8.toNat_inj, UInt8.le_iff_toNat_le]
  split <;> split <;> simp_all <;> omega

private theorem not_lt_of_le {bound : UInt8} (high : bound.toNat ≤ lead.toNat) : ¬ lead < bound :=
  fun below => absurd (UInt8.lt_iff_toNat_lt.mp below) (Nat.not_lt.mpr high)

private theorem ofLead_two (start : Nat) (low : 0xC2 ≤ lead.toNat) (high : lead.toNat < 0xE0) :
    Pending.ofLead start lead = some ⟨start, lead, 1, lead.toNat - 0xC0, 0x80, 0xBF⟩ := by
  have above : ¬ lead < 0xC2 := not_lt_of_le low
  have below : lead < 0xE0 := UInt8.lt_iff_toNat_lt.mpr high
  rw [Pending.ofLead, if_neg above, if_pos below]

private theorem ofLead_three (start : Nat) (low : 0xE0 ≤ lead.toNat) (high : lead.toNat < 0xF0) :
    Pending.ofLead start lead = some ⟨start, lead, 2, lead.toNat - 0xE0,
      if lead = 0xE0 then 0xA0 else 0x80, if lead = 0xED then 0x9F else 0xBF⟩ := by
  have least : ¬ lead < 0xC2 := not_lt_of_le (Nat.le_trans (by decide) low)
  have above : ¬ lead < 0xE0 := not_lt_of_le low
  have below : lead < 0xF0 := UInt8.lt_iff_toNat_lt.mpr high
  rw [Pending.ofLead, if_neg least, if_neg above, if_pos below]

private theorem ofLead_four (start : Nat) (low : 0xF0 ≤ lead.toNat) (high : lead.toNat < 0xF5) :
    Pending.ofLead start lead = some ⟨start, lead, 3, lead.toNat - 0xF0,
      if lead = 0xF0 then 0x90 else 0x80, if lead = 0xF4 then 0x8F else 0xBF⟩ := by
  have least : ¬ lead < 0xC2 := not_lt_of_le (Nat.le_trans (by decide) low)
  have less : ¬ lead < 0xE0 := not_lt_of_le (Nat.le_trans (by decide) low)
  have above : ¬ lead < 0xF0 := not_lt_of_le low
  have below : lead < 0xF5 := UInt8.lt_iff_toNat_lt.mpr high
  rw [Pending.ofLead, if_neg least, if_neg less, if_neg above, if_pos below]

private theorem range_of_ofLead {start : Nat} {pending : Pending}
    (leads : Pending.ofLead start lead = some pending) :
    0xC2 ≤ lead.toNat ∧ lead.toNat < 0xF5 := by
  by_cases low : lead < 0xC2
  · rw [Pending.ofLead, if_pos low] at leads
    cases leads
  refine ⟨Nat.not_lt.mp fun below => low (UInt8.lt_iff_toNat_lt.mpr below), ?_⟩
  by_contra high
  have most := Nat.not_lt.mp high
  have four : ¬ lead < 0xF5 := not_lt_of_le most
  have three : ¬ lead < 0xF0 := not_lt_of_le (Nat.le_trans (by decide) most)
  have two : ¬ lead < 0xE0 := not_lt_of_le (Nat.le_trans (by decide) most)
  rw [Pending.ofLead, if_neg low, if_neg two, if_neg three, if_neg four] at leads
  cases leads

/-- A leading byte and what completes its character are the bytes of the character. -/
theorem utf8EncodeChar_of_fills {start : Nat} {pending : Pending}
    (leads : Pending.ofLead start lead = some pending) (fills : pending.Fills tail c) :
    String.utf8EncodeChar c = lead :: tail := by
  obtain ⟨low, high⟩ := range_of_ofLead leads
  by_cases two : lead.toNat < 0xE0
  · cases leads.symm.trans (ofLead_two start low two)
    cases fills with
    | last within _ => exact utf8EncodeChar_two low two (isTail_iff.mp within)
    | more _ several => exact absurd (Nat.le_refl 1) several
  by_cases three : lead.toNat < 0xF0
  · cases leads.symm.trans (ofLead_three start (Nat.not_lt.mp two) three)
    cases fills with
    | last _ single => exact absurd single (by decide : ¬ 2 ≤ 1)
    | more within _ later =>
        obtain ⟨second, long, single⟩ := (within_iff (by decide) (by decide)).mp within
        cases later with
        | last within _ =>
            exact utf8EncodeChar_three (Nat.not_lt.mp two) three second long single
              (isTail_iff.mp within)
        | more _ several => exact absurd (Nat.le_refl 1) several
  · cases leads.symm.trans (ofLead_four start (Nat.not_lt.mp three) high)
    cases fills with
    | last _ single => exact absurd single (by decide : ¬ 3 ≤ 1)
    | more within _ later =>
        obtain ⟨second, long, bounded⟩ := (within_iff (by decide) (by decide)).mp within
        cases later with
        | last _ single => exact absurd single (by decide : ¬ 2 ≤ 1)
        | more third _ latest =>
            cases latest with
            | last fourth _ =>
                exact utf8EncodeChar_four (Nat.not_lt.mp three) high second long bounded
                  (isTail_iff.mp third) (isTail_iff.mp fourth)
            | more _ several => exact absurd (Nat.le_refl 1) several

private theorem exists_fills_two (start : Nat) (low : 0xC2 ≤ lead.toNat) (high : lead.toNat < 0xE0)
    (tail : IsTail second) :
    ∃ pending, Pending.ofLead start lead = some pending ∧ pending.Fills [second]
      (Char.ofNat ((lead.toNat - 0xC0) * 64 + (second.toNat - 0x80))) :=
  ⟨_, ofLead_two start low high, .last (isTail_iff.mpr tail) (Nat.le_refl 1)⟩

private theorem exists_fills_three (start : Nat) (low : 0xE0 ≤ lead.toNat)
    (high : lead.toNat < 0xF0) (tail : IsTail second)
    (long : lead.toNat = 0xE0 → 0xA0 ≤ second.toNat)
    (single : lead.toNat = 0xED → second.toNat ≤ 0x9F) (last : IsTail third) :
    ∃ pending, Pending.ofLead start lead = some pending ∧ pending.Fills [second, third]
      (Char.ofNat (((lead.toNat - 0xE0) * 64 + (second.toNat - 0x80)) * 64 +
        (third.toNat - 0x80))) := by
  have within := (@within_iff lead second 0xE0 0xED 0xA0 0x9F (by decide) (by decide)).mpr
    ⟨tail, long, single⟩
  exact ⟨_, ofLead_three start low high, .more within (by decide : ¬ 2 ≤ 1)
    (.last (isTail_iff.mpr last) (Nat.le_refl 1))⟩

private theorem exists_fills_four (start : Nat) (low : 0xF0 ≤ lead.toNat)
    (high : lead.toNat < 0xF5) (tail : IsTail second)
    (long : lead.toNat = 0xF0 → 0x90 ≤ second.toNat)
    (bounded : lead.toNat = 0xF4 → second.toNat ≤ 0x8F) (next : IsTail third)
    (last : IsTail fourth) :
    ∃ pending, Pending.ofLead start lead = some pending ∧ pending.Fills [second, third, fourth]
      (Char.ofNat ((((lead.toNat - 0xF0) * 64 + (second.toNat - 0x80)) * 64 +
        (third.toNat - 0x80)) * 64 + (fourth.toNat - 0x80))) := by
  have within := (@within_iff lead second 0xF0 0xF4 0x90 0x8F (by decide) (by decide)).mpr
    ⟨tail, long, bounded⟩
  exact ⟨_, ofLead_four start low high, .more within (by decide : ¬ 3 ≤ 1)
    (.more (isTail_iff.mpr next) (by decide : ¬ 2 ≤ 1)
      (.last (isTail_iff.mpr last) (Nat.le_refl 1)))⟩

/-- The bytes of a character are a byte below 128, or a leading byte and what completes the
character. -/
theorem utf8EncodeChar_cases (start : Nat) (c : Char) :
    (∃ byte : UInt8, byte < 0x80 ∧ Char.ofNat byte.toNat = c ∧ String.utf8EncodeChar c = [byte]) ∨
      ∃ lead pending tail, ¬ lead < 0x80 ∧ Pending.ofLead start lead = some pending ∧
        pending.Fills tail c ∧ String.utf8EncodeChar c = lead :: tail := by
  have valid : c.val.toNat < 0xD800 ∨ 0xDFFF < c.val.toNat ∧ c.val.toNat < 0x110000 := c.valid
  have whole : ∀ {point : Nat}, point = c.val.toNat → Char.ofNat point = c := by
    rintro _ rfl
    exact Char.ofNat_toNat c
  have byte : ∀ {n : Nat}, n < 256 → ∃ byte : UInt8, UInt8.ofNat n = byte ∧ byte.toNat = n :=
    fun small => ⟨_, rfl, UInt8.toNat_ofNat'.trans (Nat.mod_eq_of_lt small)⟩
  generalize spelled : String.utf8EncodeChar c = bytes
  unfold String.utf8EncodeChar at spelled
  dsimp only at spelled
  generalize c.val.toNat = v at valid whole spelled
  split at spelled
  · next one =>
      obtain ⟨first, shown, same⟩ := @byte v (by omega)
      rw [shown] at spelled
      refine Or.inl ⟨first, ?_, whole same, spelled.symm⟩
      rw [UInt8.lt_iff_toNat_lt, same]
      exact Nat.lt_succ_of_le one
  refine Or.inr ?_
  split at spelled
  · next one two =>
      obtain ⟨lead, shownLead, isLead⟩ := @byte (v / 64 % 32 + 192) (by omega)
      obtain ⟨second, shownSecond, isSecond⟩ := @byte (v % 64 + 128) (by omega)
      rw [shownLead, shownSecond] at spelled
      obtain ⟨pending, leads, fills⟩ := @exists_fills_two lead second start (by omega) (by omega)
        ⟨by omega, by omega⟩
      rw [whole (by omega)] at fills
      have high : 0x80 ≤ lead.toNat := by omega
      exact ⟨lead, pending, [second], not_lt_of_le high, leads, fills, spelled.symm⟩
  split at spelled
  · next one two three =>
      obtain ⟨lead, shownLead, isLead⟩ := @byte (v / 4096 % 16 + 224) (by omega)
      obtain ⟨second, shownSecond, isSecond⟩ := @byte (v / 64 % 64 + 128) (by omega)
      obtain ⟨third, shownThird, isThird⟩ := @byte (v % 64 + 128) (by omega)
      rw [shownLead, shownSecond, shownThird] at spelled
      obtain ⟨pending, leads, fills⟩ := @exists_fills_three lead second third start (by omega)
        (by omega) ⟨by omega, by omega⟩ (by omega) (by omega) ⟨by omega, by omega⟩
      rw [whole (by omega)] at fills
      have high : 0x80 ≤ lead.toNat := by omega
      exact ⟨lead, pending, [second, third], not_lt_of_le high, leads, fills, spelled.symm⟩
  · next one two three =>
      obtain ⟨lead, shownLead, isLead⟩ := @byte (v / 262144 % 8 + 240) (by omega)
      obtain ⟨second, shownSecond, isSecond⟩ := @byte (v / 4096 % 64 + 128) (by omega)
      obtain ⟨third, shownThird, isThird⟩ := @byte (v / 64 % 64 + 128) (by omega)
      obtain ⟨fourth, shownFourth, isFourth⟩ := @byte (v % 64 + 128) (by omega)
      rw [shownLead, shownSecond, shownThird, shownFourth] at spelled
      obtain ⟨pending, leads, fills⟩ := @exists_fills_four lead second third fourth start
        (by omega) (by omega) ⟨by omega, by omega⟩ (by omega) (by omega) ⟨by omega, by omega⟩
        ⟨by omega, by omega⟩
      rw [whole (by omega)] at fills
      have high : 0x80 ≤ lead.toNat := by omega
      exact ⟨lead, pending, [second, third, fourth], not_lt_of_le high, leads, fills, spelled.symm⟩

end Characters

private theorem toList_loop_eq (bytes : ByteArray) (index : Nat) (read : List UInt8) :
    ByteArray.toList.loop bytes index read = read.reverse ++ bytes.data.toList.drop index := by
  fun_induction ByteArray.toList.loop bytes index read with
  | case1 index read inside ih =>
      have bound : index < bytes.data.toList.length := by simpa using inside
      rw [ih, List.drop_eq_getElem_cons bound, List.reverse_cons, List.append_assoc]
      simp only [ByteArray.get!, ByteArray.size_data, inside, getElem!_pos, List.cons_append,
        List.nil_append, Array.getElem_toList]
  | case2 index read outside =>
      have ended : bytes.data.toList.length ≤ index := by simpa using outside
      rw [List.drop_eq_nil_of_le ended, List.append_nil]

/-- The bytes of a text are those of its characters. -/
theorem encode_eq_flatMap (text : String) :
    encode text = text.toList.flatMap String.utf8EncodeChar := by
  have spelled : (String.ofList text.toList).toByteArray = text.toList.utf8Encode :=
    String.toByteArray_ofList
  rw [String.ofList_toList] at spelled
  rw [encode, String.toUTF8_eq_toByteArray, spelled, ByteArray.toList, toList_loop_eq,
    List.utf8Encode, List.toList_data_toByteArray]
  rfl

section Texts

variable {position : Nat} {bytes : List UInt8} {chars : List Char}

private theorem decodeFrom_flatMap (position : Nat) (chars : List Char) :
    decodeFrom position none (chars.flatMap String.utf8EncodeChar) = .ok chars := by
  induction chars generalizing position with
  | nil => rfl
  | cons c chars ih =>
      rw [List.flatMap_cons]
      rcases utf8EncodeChar_cases position c with ⟨byte, low, rfl, spelled⟩ |
        ⟨lead, pending, tail, high, leads, fills, spelled⟩
      · rw [spelled, List.singleton_append, decodeFrom, if_pos low, ih]
        rfl
      · rw [spelled, List.cons_append, decodeFrom, if_neg high, leads]
        dsimp only
        rw [decodeFrom_of_fills fills, ih]
        rfl

private theorem eq_flatMap_of_decodeFrom (decoded : decodeFrom position none bytes = .ok chars) :
    bytes = chars.flatMap String.utf8EncodeChar := by
  induction length : bytes.length using Nat.strongRecOn generalizing position bytes chars with
  | ind count ih =>
      cases bytes with
      | nil =>
          cases decoded
          rfl
      | cons byte rest =>
          rw [decodeFrom] at decoded
          split at decoded
          · next low =>
              cases read : decodeFrom (position + 1) none rest with
              | error fault =>
                  rw [read] at decoded
                  cases decoded
              | ok others =>
                  rw [read] at decoded
                  cases decoded
                  have whole := ih rest.length (length ▸ Nat.lt_succ_self _) read rfl
                  rw [List.flatMap_cons, utf8EncodeChar_one low, ← whole]
                  rfl
          · next high =>
              cases leads : Pending.ofLead position byte with
              | none =>
                  rw [leads] at decoded
                  cases decoded
              | some pending =>
                  rw [leads] at decoded
                  obtain ⟨tail, c, remaining, later, others, rfl, rfl, fills, read⟩ :=
                    exists_fills_of_decodeFrom decoded
                  have shorter : remaining.length < count := by
                    rw [← length, List.length_cons, List.length_append]
                    omega
                  have whole := ih remaining.length shorter read rfl
                  rw [List.flatMap_cons, utf8EncodeChar_of_fills leads fills, whole]
                  rfl

end Texts

/-- Bytes decode exactly if they spell a text, and then to that text. -/
theorem decode_eq_ok_iff {bytes : List UInt8} {text : String} :
    decode bytes = .ok text ↔ bytes = encode text := by
  rw [encode_eq_flatMap, decode]
  constructor
  · intro decoded
    cases read : decodeFrom 0 none bytes with
    | error fault =>
        rw [read] at decoded
        cases decoded
    | ok chars =>
        rw [read] at decoded
        cases decoded
        rw [String.toList_ofList]
        exact eq_flatMap_of_decodeFrom read
  · rintro rfl
    rw [decodeFrom_flatMap]
    exact congrArg Except.ok String.ofList_toList

/-- A text is read back from its bytes. -/
theorem decode_toUTF8 (text : String) : decode text.toUTF8.toList = .ok text :=
  decode_eq_ok_iff.mpr rfl

end ModuleAtlas.Text.Utf8
