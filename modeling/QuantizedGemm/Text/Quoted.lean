import QuantizedGemm.Text.Unprintable

/-!
# Quoted text

Text between double quotes, on one line and without invisible characters. A quote and a backslash
are written after a backslash, the four common controls as `\0`, `\t`, `\r` and `\n`, and any other
character without a glyph by its number in hexadecimal. A single quote stands for itself.
-/

namespace QuantizedGemm.Text

/-- A character by its number: `\u`, and the hexadecimal digits between braces. -/
def escapeByNumber (c : Char) : List Char :=
  '\\' :: 'u' :: '{' :: Nat.toDigits 16 c.toNat ++ ['}']

/-- One character as it stands between quotes. -/
def escape (c : Char) : List Char :=
  if c = '\x00' then ['\\', '0']
  else if c = '\t' then ['\\', 't']
  else if c = '\r' then ['\\', 'r']
  else if c = '\n' then ['\\', 'n']
  else if c = '"' then ['\\', '"']
  else if c = '\\' then ['\\', '\\']
  else if isUnprintable c then escapeByNumber c
  else [c]

/-- The text between double quotes. -/
def quoted (s : String) : String := String.ofList ('"' :: s.toList.flatMap escape ++ ['"'])

end QuantizedGemm.Text
