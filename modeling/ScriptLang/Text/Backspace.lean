/-
ScriptLang.Text.Backspace — lines in which typing errors were taken back.

A backspace in a line takes back the cluster before it, so that an accented
letter goes as a whole. At the beginning of the line it does nothing.

The size of each cluster in bytes is remembered in one byte. So a cluster of
256 bytes or more is taken back by its size modulo 256, and what is left of it
stays in the line.
-/
import ScriptLang.Text.Cluster
import ScriptLang.Text.Utf8

namespace ScriptLang.Text.Backspace

/-- The character that takes back. -/
def backspace : Char := '\x08'

/-- A line that is being typed: its bytes, backwards, and the sizes of its clusters, the last
one first. -/
structure Line where
  bytes : List UInt8
  sizes : List UInt8
  deriving DecidableEq, Repr

namespace Line

/-- Nothing typed yet. -/
def empty : Line := ⟨[], []⟩

/-- Adds a cluster. -/
def add (line : Line) (cluster : List Char) : Line :=
  let bytes := Utf8.encode (String.ofList cluster)
  ⟨bytes.reverse ++ line.bytes, bytes.length.toUInt8 :: line.sizes⟩

/-- Takes back the last cluster. -/
def takeBack (line : Line) : Line :=
  match line.sizes with
  | [] => line
  | size :: sizes => ⟨line.bytes.drop size.toNat, sizes⟩

/-- Takes a cluster from the keyboard. A backspace is always a cluster of its own. -/
def press (line : Line) (cluster : List Char) : Line :=
  if cluster = [backspace] then line.takeBack else line.add cluster

end Line

/-- The bytes of a line with its backspaces carried out. -/
def carriedOut (text : String) : List UInt8 :=
  ((Cluster.clusters text.toList).foldl Line.press .empty).bytes.reverse

end ScriptLang.Text.Backspace
