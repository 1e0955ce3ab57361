import RespCache.Text.Unprintable

/-!
Text and bytes shown so that nothing is lost: in double quotes with escapes, or byte by byte.
-/

namespace RespCache.Text

/-- The short escape of a character that has one inside double quotes. -/
def shortEscape? : Char → Option Char
  | '\x00' => some '0'
  | '\t' => some 't'
  | '\n' => some 'n'
  | '\r' => some 'r'
  | '"' => some '"'
  | '\\' => some '\\'
  | _ => none

/-- A character inside double quotes; one that does not print is given by its number. -/
def quotedChar (c : Char) : List Char :=
  match shortEscape? c with
  | some e => ['\\', e]
  | none =>
    if unprintable c then ['\\', 'u', '\x7b'] ++ Nat.toDigits 16 c.toNat ++ ['\x7d'] else [c]

def quoted (s : String) : String := String.ofList (['"'] ++ s.toList.flatMap quotedChar ++ ['"'])

/-- A byte as a character: printing ASCII as it is, quotes and the backslash after a backslash, the
rest by its number. -/
def escapedByte (b : UInt8) : String :=
  match b with
  | 0x09 => "\\t"
  | 0x0A => "\\n"
  | 0x0D => "\\r"
  | 0x22 => "\\\""
  | 0x27 => "\\'"
  | 0x5C => "\\\\"
  | b =>
    if 0x20 ≤ b ∧ b < 0x7F then String.singleton (Char.ofNat b.toNat)
    else
      String.ofList ['\\', 'x', Nat.digitChar (b.toNat / 16), Nat.digitChar (b.toNat % 16)]

end RespCache.Text
