/-!
# UTF-8

The text that bytes encode, and where bytes stop being a text: `utf8Fault?` gives the position of
the first byte that is wrong and the number of bytes that started a character in vain.
-/

namespace BoundSql.Text

/-- The text that UTF-8 bytes encode. -/
def utf8Text? (bs : List UInt8) : Option String :=
  String.fromUTF8? (ByteArray.mk bs.toArray)

/-- The ranges of the bytes that follow the first byte of a character, if a character can start with
that byte. No character has a longer form than it needs, none is a surrogate, and none lies behind
the last plane. -/
def followers? (first : Nat) : Option (List (Nat × Nat)) :=
  let any := (0x80, 0xbf)
  if first < 0x80 then some []
  else if first < 0xc2 then none
  else if first < 0xe0 then some [any]
  else if first = 0xe0 then some [(0xa0, 0xbf), any]
  else if first = 0xed then some [(0x80, 0x9f), any]
  else if first < 0xf0 then some [any, any]
  else if first = 0xf0 then some [(0x90, 0xbf), any, any]
  else if first < 0xf4 then some [any, any, any]
  else if first = 0xf4 then some [(0x80, 0x8f), any, any]
  else none

/-- How many of the first bytes lie in ranges one by one. -/
def matching : List (Nat × Nat) → List UInt8 → Nat
  | (low, high) :: ranges, b :: bs =>
    if low ≤ b.toNat ∧ b.toNat ≤ high then matching ranges bs + 1 else 0
  | _, _ => 0

/-- The first fault among bytes, `skip` of which belong to a character that was seen to be good. -/
def faultFrom (position skip : Nat) : List UInt8 → Option (Nat × Nat)
  | [] => none
  | b :: bs =>
    match skip with
    | n + 1 => faultFrom (position + 1) n bs
    | 0 =>
      match followers? b.toNat with
      | none => some (position, 1)
      | some ranges =>
        let good := matching ranges bs
        if good = ranges.length then faultFrom (position + 1) good bs
        else some (position, good + 1)

/-- Where bytes stop being UTF-8: the position and the number of bytes at fault. -/
def utf8Fault? (bs : List UInt8) : Option (Nat × Nat) := faultFrom 0 0 bs

end BoundSql.Text
