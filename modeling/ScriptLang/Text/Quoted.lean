/-
ScriptLang.Text.Quoted — text between double quotes, with escapes.

Two outputs quote text. The token listing in JSON form follows the JSON rule:
the quote, the backslash and the control characters below U+0020 are escaped,
five of them by a letter and the rest by four hexadecimal digits, and every
other character stands for itself. Names quoted in messages follow a similar
rule with other spellings: tab, line feed, carriage return and NUL have a
letter or digit, and every other character that is not visible is written as
`\u{…}` with as few hexadecimal digits as possible.

Both are one character map applied between two quotes, so that what is
written for a text is the concatenation of what is written for its
characters.
-/
import ScriptLang.Text.Visible

namespace ScriptLang.Text.Quoted

/-- A hexadecimal digit in lower case. -/
def hexDigit (n : Nat) : Char :=
  Nat.digitChar (n % 16)

/-- What JSON writes for a character inside a string. -/
def json (c : Char) : List Char :=
  if c = '"' then ['\\', '"']
  else if c = '\\' then ['\\', '\\']
  else if c = '\x08' then ['\\', 'b']
  else if c = '\x0c' then ['\\', 'f']
  else if c = '\n' then ['\\', 'n']
  else if c = '\r' then ['\\', 'r']
  else if c = '\t' then ['\\', 't']
  else if c.toNat < 0x20 then
    ['\\', 'u', '0', '0', hexDigit (c.toNat / 16), hexDigit c.toNat]
  else [c]

/-- What a message writes for a character of a name that it quotes. -/
def shown (c : Char) : List Char :=
  if c = '"' then ['\\', '"']
  else if c = '\\' then ['\\', '\\']
  else if c = '\n' then ['\\', 'n']
  else if c = '\r' then ['\\', 'r']
  else if c = '\t' then ['\\', 't']
  else if c.toNat = 0 then ['\\', '0']
  else if isVisible c then [c]
  else ['\\', 'u', '\x7b'] ++ Nat.toDigits 16 c.toNat ++ ['\x7d']

/-- A text between quotes, each character written by `escape`. -/
def quote (escape : Char → List Char) (text : String) : String :=
  String.ofList ('"' :: text.toList.flatMap escape ++ ['"'])

end ScriptLang.Text.Quoted
