/-
ScriptLang.Text.Visible — characters that can be shown as they are.

A message that quotes a name should let the reader see every character of it.
So it shows a character as it is only if it leaves a mark of its own. What
does not: controls, blanks other than the space, format characters, code
points for private use or without a character, the blank letters that fill
the place of a Korean letter, and marks that would merge with the character
before them. The two halfwidth sound marks of Japanese extend the character
before them but have a place of their own, and are shown.
-/
import ScriptLang.Text.Extending
import ScriptLang.Text.Unassigned

namespace ScriptLang.Text

/-! ## 1. Characters without a mark of their own -/

/-- Control characters (general category `Cc`). -/
def controls : Ranges :=
  [(0x0000, 0x001F), (0x007F, 0x009F)]

/-- Spaces and separators (general categories `Zs`, `Zl` and `Zp`). -/
def blanks : Ranges :=
  [(0x0020, 0x0020), (0x00A0, 0x00A0), (0x1680, 0x1680), (0x2000, 0x200A), (0x2028, 0x2029),
   (0x202F, 0x202F), (0x205F, 0x205F), (0x3000, 0x3000)]

/-- Characters that only guide how others are shown (general category `Cf`). -/
def formats : Ranges :=
  [(0x00AD, 0x00AD), (0x0600, 0x0605), (0x061C, 0x061C), (0x06DD, 0x06DD), (0x070F, 0x070F),
   (0x0890, 0x0891), (0x08E2, 0x08E2), (0x180E, 0x180E), (0x200B, 0x200F), (0x202A, 0x202E),
   (0x2060, 0x2064), (0x2066, 0x206F), (0xFEFF, 0xFEFF), (0xFFF9, 0xFFFB), (0x110BD, 0x110BD),
   (0x110CD, 0x110CD), (0x13430, 0x1343F), (0x1BCA0, 0x1BCA3), (0x1D173, 0x1D17A),
   (0xE0001, 0xE0001), (0xE0020, 0xE007F)]

/-- Code points whose meaning is a private agreement (general category `Co`). -/
def privateUse : Ranges :=
  [(0xE000, 0xF8FF), (0xF0000, 0xFFFFD), (0x100000, 0x10FFFD)]

/-- Letters that are blank. They are the letters among the characters that may be ignored by
default. -/
def fillers : Ranges :=
  [(0x115F, 0x1160), (0x3164, 0x3164), (0xFFA0, 0xFFA0)]

/-- Extending marks that have a place of their own. -/
def soundMarks : Ranges :=
  [(0xFF9E, 0xFF9F)]

/-! ## 2. Visible characters -/

/-- Whether a mark merges with the character before it. -/
def isMerging (c : Char) : Bool :=
  extending.has c && !soundMarks.has c

/-- Whether a character can be shown as it is. -/
def isVisible (c : Char) : Bool :=
  c = ' ' ||
    !(controls.has c || blanks.has c || formats.has c || privateUse.has c || fillers.has c
      || isMerging c || unassigned.has c)

end ScriptLang.Text
