import Formula.Text.Printable

/-!
Quoted texts, as messages show them: between single quotes, or between double quotes when the
text holds a single quote and no double one. The sign in use and the backslash are written with
a backslash before them, characters that cannot be shown by their code.
-/

namespace Formula.Text

def quoteSign (text : List Char) : Char :=
  if text.contains '\x27' && !text.contains '\x22' then '\x22' else '\x27'

/-- The code in lower-case hexadecimal digits, filled up with zeros. -/
def hexCode (width code : Nat) : List Char := (Nat.toDigits 16 code).leftpad width '0'

/-- The shortest of the three forms `\xhh`, `\uhhhh` and `\Uhhhhhhhh` that holds the code. -/
def codeEscape (c : Char) : List Char :=
  if c.toNat < 0x100 then '\\' :: 'x' :: hexCode 2 c.toNat
  else if c.toNat < 0x10000 then '\\' :: 'u' :: hexCode 4 c.toNat
  else '\\' :: 'U' :: hexCode 8 c.toNat

def quoteChar (sign c : Char) : List Char :=
  if c = sign || c = '\\' then ['\\', c]
  else if c = '\n' then ['\\', 'n']
  else if c = '\r' then ['\\', 'r']
  else if c = '\t' then ['\\', 't']
  else if isPrintable c then [c]
  else codeEscape c

def quote (text : List Char) : List Char :=
  let sign := quoteSign text
  sign :: text.flatMap (quoteChar sign) ++ [sign]

/-- The quoted form of a string. -/
def quoted (text : String) : String := String.ofList (quote text.toList)

end Formula.Text
