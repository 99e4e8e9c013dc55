import ModuleAtlas.Text.Quoted

/-! # Decoding UTF-8

Bytes are read one at a time. A sequence that cannot be continued is reported
with the longest part of it that could still have become a character.
-/

namespace ModuleAtlas.Text.Utf8

/-- Why bytes do not decode. -/
inductive Reason where
  | invalidStart
  | invalidContinuation
  | unexpectedEnd
  deriving DecidableEq, Repr

/-- The bytes that do not decode: where they start, how many they are, and the
first of them. -/
structure Fault where
  position : Nat
  length : Nat
  first : UInt8
  reason : Reason
  deriving DecidableEq, Repr

/-- The wording of a reason. -/
def Reason.message : Reason → String
  | .invalidStart => "invalid start byte"
  | .invalidContinuation => "invalid continuation byte"
  | .unexpectedEnd => "unexpected end of data"

/-- The wording of a fault. -/
def Fault.message (fault : Fault) : String :=
  let place :=
    if fault.length = 1 then
      "byte 0x" ++ String.ofList (hexDigits 2 fault.first.toNat) ++ " in position " ++
        toString fault.position
    else
      "bytes in position " ++ toString fault.position ++ "-" ++
        toString (fault.position + fault.length - 1)
  "'utf-8' codec can't decode " ++ place ++ ": " ++ fault.reason.message

/-- A character of which some bytes are still missing. The next byte must lie
between `low` and `high`. -/
structure Pending where
  start : Nat
  first : UInt8
  missing : Nat
  point : Nat
  low : UInt8
  high : UInt8

/-- The character that a leading byte begins. -/
def Pending.ofLead (start : Nat) (byte : UInt8) : Option Pending :=
  if byte < 0xC2 then none
  else if byte < 0xE0 then some ⟨start, byte, 1, byte.toNat - 0xC0, 0x80, 0xBF⟩
  else if byte < 0xF0 then
    some ⟨start, byte, 2, byte.toNat - 0xE0, if byte = 0xE0 then 0xA0 else 0x80,
      if byte = 0xED then 0x9F else 0xBF⟩
  else if byte < 0xF5 then
    some ⟨start, byte, 3, byte.toNat - 0xF0, if byte = 0xF0 then 0x90 else 0x80,
      if byte = 0xF4 then 0x8F else 0xBF⟩
  else none

/-- The characters that bytes spell, where `position` bytes came before and one
character may be incomplete. -/
def decodeFrom (position : Nat) : Option Pending → List UInt8 → Except Fault (List Char)
  | none, [] => .ok []
  | some pending, [] =>
      .error ⟨pending.start, position - pending.start, pending.first, .unexpectedEnd⟩
  | none, byte :: rest =>
      if byte < 0x80 then do
        let others ← decodeFrom (position + 1) none rest
        .ok (Char.ofNat byte.toNat :: others)
      else
        match Pending.ofLead position byte with
        | some pending => decodeFrom (position + 1) (some pending) rest
        | none => .error ⟨position, 1, byte, .invalidStart⟩
  | some pending, byte :: rest =>
      if pending.low ≤ byte && byte ≤ pending.high then
        let point := pending.point * 64 + (byte.toNat - 0x80)
        if pending.missing ≤ 1 then do
          let others ← decodeFrom (position + 1) none rest
          .ok (Char.ofNat point :: others)
        else
          decodeFrom (position + 1)
            (some ⟨pending.start, pending.first, pending.missing - 1, point, 0x80, 0xBF⟩) rest
      else
        .error ⟨pending.start, position - pending.start, pending.first, .invalidContinuation⟩

/-- The text that bytes spell. -/
def decode (bytes : List UInt8) : Except Fault String :=
  (decodeFrom 0 none bytes).map String.ofList

/-- The bytes that spell a text. -/
def encode (s : String) : List UInt8 := s.toUTF8.toList

end ModuleAtlas.Text.Utf8
