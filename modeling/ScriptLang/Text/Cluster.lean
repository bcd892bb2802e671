/-
ScriptLang.Text.Cluster — what readers take for one character.

An accented letter, a Korean syllable, a flag or a family of pictures may be
several characters long. The standard calls such a group an extended grapheme
cluster and says between which characters a text must not be broken. The rules
depend on the class of the character before the place, on the class of the
one after it, and in three cases on what stands further before: `conjunctJoins`
for consonants with a linker between them, `pictureJoins` for pictures with a
joiner between them, and `flagJoins`, since flags are pairs of indicators.

A text before a place is given backwards in this module, so that what is
nearest comes first.
-/
import ScriptLang.Text.Cluster.Conjunct
import ScriptLang.Text.Cluster.Pictograph
import ScriptLang.Text.Cluster.Spacing
import ScriptLang.Text.Extending

namespace ScriptLang.Text.Cluster

/-! ## 1. Classes of characters -/

/-- What a character does to the text around it. -/
inductive Role where
  | carriageReturn
  | lineFeed
  /-- Stands alone. -/
  | control
  /-- Belongs to the character before it. -/
  | extending
  /-- Belongs to the character before it, and joins pictures. -/
  | joiner
  /-- Half of a flag. -/
  | indicator
  /-- Belongs to the character after it. -/
  | prepended
  /-- Belongs to the character before it, with a place of its own. -/
  | spacing
  /-- A Korean consonant that begins a syllable. -/
  | leading
  /-- A Korean vowel, or a vowel sign that combines like one. -/
  | vowel
  /-- A Korean consonant that ends a syllable. -/
  | trailing
  /-- A Korean syllable that ends in its vowel. -/
  | openSyllable
  /-- A Korean syllable that ends in a consonant. -/
  | closedSyllable
  | pictograph
  | other
  deriving DecidableEq, Repr

/-- Controls, separators and format characters (class `Control`). -/
def standingAlone : Ranges :=
  [(0x0000, 0x0009), (0x000B, 0x000C), (0x000E, 0x001F), (0x007F, 0x009F), (0x00AD, 0x00AD),
   (0x061C, 0x061C), (0x180E, 0x180E), (0x200B, 0x200B), (0x200E, 0x200F), (0x2028, 0x202E),
   (0x2060, 0x206F), (0xFEFF, 0xFEFF), (0xFFF0, 0xFFFB), (0x13430, 0x1343F), (0x1BCA0, 0x1BCA3),
   (0x1D173, 0x1D17A), (0xE0000, 0xE001F), (0xE0080, 0xE00FF), (0xE01F0, 0xE0FFF)]

/-- The character that joins pictures. -/
def zeroWidthJoiner : Char := Char.ofNat 0x200D

/-- The character that keeps letters from joining. -/
def zeroWidthNonJoiner : Char := Char.ofNat 0x200C

/-- Skin tones. They extend the picture before them. -/
def skinTones : Ranges := [(0x1F3FB, 0x1F3FF)]

/-- Letters that stand for a country in pairs. -/
def indicators : Ranges := [(0x1F1E6, 0x1F1FF)]

/-- Korean consonants that begin a syllable. -/
def leadingLetters : Ranges := [(0x1100, 0x115F), (0xA960, 0xA97C)]

/-- Korean vowels, and the vowel signs of Kirat Rai, which combine like them. -/
def vowelLetters : Ranges :=
  [(0x1160, 0x11A7), (0xD7B0, 0xD7C6), (0x16D63, 0x16D63), (0x16D67, 0x16D6A)]

/-- Korean consonants that end a syllable. -/
def trailingLetters : Ranges := [(0x11A8, 0x11FF), (0xD7CB, 0xD7FB)]

/-- Korean syllables. -/
def syllables : Ranges := [(0xAC00, 0xD7A3)]

/-- A syllable is open if it is the first of the 28 that begin alike. -/
def isOpenSyllable (c : Char) : Bool :=
  syllables.has c && (c.toNat - 0xAC00) % 28 = 0

/-- The role of a character. -/
def role (c : Char) : Role :=
  if c = '\r' then .carriageReturn
  else if c = '\n' then .lineFeed
  else if standingAlone.has c then .control
  else if c.toNat < 0x7F then .other
  else if c = zeroWidthJoiner then .joiner
  else if extending.has c || skinTones.has c then .extending
  else if indicators.has c then .indicator
  else if prepended.has c then .prepended
  else if spacing.has c then .spacing
  else if leadingLetters.has c then .leading
  else if vowelLetters.has c then .vowel
  else if trailingLetters.has c then .trailing
  else if isOpenSyllable c then .openSyllable
  else if syllables.has c then .closedSyllable
  else if pictographs.has c then .pictograph
  else .other

/-! ## 2. Where a text must not be broken -/

/-- Line ends and controls never share a cluster, but for the two characters of a line end. -/
def Role.isAlone : Role → Bool
  | .carriageReturn => true
  | .lineFeed => true
  | .control => true
  | _ => false

/-- Characters that belong to the one before them, whatever it is. -/
def Role.isAttached : Role → Bool
  | .extending => true
  | .joiner => true
  | .spacing => true
  | _ => false

/-- The parts of a Korean syllable. -/
def syllableJoins : Role → Role → Bool
  | .leading, .leading => true
  | .leading, .vowel => true
  | .leading, .openSyllable => true
  | .leading, .closedSyllable => true
  | .openSyllable, .vowel => true
  | .openSyllable, .trailing => true
  | .vowel, .vowel => true
  | .vowel, .trailing => true
  | .closedSyllable, .trailing => true
  | .trailing, .trailing => true
  | _, _ => false

/-- Marks that may stand between the consonants of a conjunct. -/
def isConjunctMark (c : Char) : Bool :=
  c ≠ zeroWidthNonJoiner && (role c = .extending || role c = .joiner)

/-- A consonant joins a consonant before it if there are only marks between them and one of
these is a linker. -/
def conjunctJoins (before : List Char) (c : Char) : Bool :=
  consonants.has c && (before.takeWhile isConjunctMark).any linkers.has
    && (before.dropWhile isConjunctMark).head?.any consonants.has

/-- A picture joins a picture before it if there is a joiner between them, and only extending
marks before the joiner. -/
def pictureJoins (before : List Char) (c : Char) : Bool :=
  match before with
  | [] => false
  | last :: rest =>
    role c = .pictograph && role last = .joiner
      && (rest.dropWhile (role · = .extending)).head?.any (role · = .pictograph)

/-- An indicator joins the one before it if that is not the second of a flag already. -/
def flagJoins (before : List Char) (c : Char) : Bool :=
  role c = .indicator && (before.takeWhile (role · = .indicator)).length % 2 = 1

/-- Whether a character belongs to the cluster of the text right before it. -/
def joins (before : List Char) (c : Char) : Bool :=
  match before with
  | [] => false
  | last :: _ =>
    if role last = .carriageReturn && role c = .lineFeed then true
    else if (role last).isAlone || (role c).isAlone then false
    else (role c).isAttached || role last = .prepended || syllableJoins (role last) (role c)
      || conjunctJoins before c || pictureJoins before c || flagJoins before c

/-! ## 3. The clusters of a text -/

/-- A cluster that has ended, if anything is in it. -/
def ended (current : List Char) : List (List Char) :=
  if current.isEmpty then [] else [current.reverse]

/-- The clusters of the rest of a text. What comes before the rest and the part of it that is
in the current cluster are given backwards. -/
def clustersFrom (before current : List Char) : List Char → List (List Char)
  | [] => ended current
  | c :: rest =>
    if joins before c then clustersFrom (c :: before) (c :: current) rest
    else ended current ++ clustersFrom (c :: before) [c] rest

/-- The clusters of a text in order. -/
def clusters (text : List Char) : List (List Char) :=
  clustersFrom [] [] text

end ScriptLang.Text.Cluster
