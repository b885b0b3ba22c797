import NearCache.Text.Hidden

/-!
Quoted text for diagnostics. A quotation mark and a backslash are written after a backslash, four
controls have a letter of their own, every other hidden character is written as its code point, and
the rest stands as it is.
-/

namespace NearCache

/-- The shortest lower-case hexadecimal form of a code point. -/
def codePointText (c : Char) : List Char :=
  Nat.toDigits 16 c.toNat

/-- One character inside quotes. -/
def quoteChar (c : Char) : List Char :=
  if c = '"' then ['\\', '"']
  else if c = '\\' then ['\\', '\\']
  else if c = '\n' then ['\\', 'n']
  else if c = '\r' then ['\\', 'r']
  else if c = '\t' then ['\\', 't']
  else if c.toNat = 0 then ['\\', '0']
  else if isHidden c then ['\\', 'u', '\x7b'] ++ codePointText c ++ ['\x7d']
  else [c]

/-- A text in quotation marks. -/
def quoted (s : String) : String :=
  String.ofList ('"' :: s.toList.flatMap quoteChar ++ ['"'])

end NearCache
