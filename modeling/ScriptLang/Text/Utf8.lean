/-
ScriptLang.Text.Utf8 — bytes read as UTF-8 text, one byte at a time.

The reader is a machine whose state is either "between characters" or "inside
a character": how many continuation bytes are still owed, the range that the
next one must lie in, and the code point collected so far. The range is the
whole of `80..BF` except directly after `E0`, `ED`, `F0` and `F4`, where it
is cut so that overlong forms, surrogates and code points above `10FFFF` are
refused at the earliest byte.

Two readings share the machine.

* `decodeLossy` never fails: a stretch that cannot be continued to a
  character becomes one replacement character U+FFFD, and the byte that
  refused to continue it is read again as a first byte. So there is one
  replacement for each maximal invalid stretch.
* `firstFlaw?` finds the first such stretch and says where it starts and how
  long it is, or that the text ends inside a character.
-/

namespace ScriptLang.Text.Utf8

/-! ## 1. The machine -/

/-- Where the machine stands between two bytes. -/
inductive Progress where
  | between
  /-- Inside a character: `owed + 1` bytes to come, the next one in `low..high`. -/
  | inside (owed : Nat) (low high : UInt8) (code : Nat)
  deriving DecidableEq, Repr

/-- What a byte does to the machine. -/
inductive Step where
  /-- The byte completes a character. -/
  | complete (c : Char)
  /-- The byte starts or continues a character. -/
  | more (next : Progress)
  /-- The byte cannot stand here. -/
  | refuse
  deriving DecidableEq, Repr

/-- A byte between characters. -/
def first (b : UInt8) : Step :=
  let n := b.toNat
  if n < 0x80 then .complete (Char.ofNat n)
  else if 0xC2 ≤ n && n ≤ 0xDF then .more (.inside 0 0x80 0xBF (n - 0xC0))
  else if n = 0xE0 then .more (.inside 1 0xA0 0xBF 0)
  else if n = 0xED then .more (.inside 1 0x80 0x9F 0xD)
  else if 0xE1 ≤ n && n ≤ 0xEF then .more (.inside 1 0x80 0xBF (n - 0xE0))
  else if n = 0xF0 then .more (.inside 2 0x90 0xBF 0)
  else if 0xF1 ≤ n && n ≤ 0xF3 then .more (.inside 2 0x80 0xBF (n - 0xF0))
  else if n = 0xF4 then .more (.inside 2 0x80 0x8F 4)
  else .refuse

/-- A byte in any state. -/
def step : Progress → UInt8 → Step
  | .between, b => first b
  | .inside owed low high code, b =>
    if low ≤ b && b ≤ high then
      let code := 64 * code + (b.toNat - 0x80)
      match owed with
      | 0 => .complete (Char.ofNat code)
      | owed + 1 => .more (.inside owed 0x80 0xBF code)
    else .refuse

/-! ## 2. Reading with replacements -/

/-- U+FFFD, which stands for bytes that are no character. -/
def replacement : Char := Char.ofNat 0xFFFD

/-- The characters still to be produced from a state and the bytes to come. -/
def decodeFrom : Progress → List UInt8 → List Char
  | .between, [] => []
  | .inside .., [] => [replacement]
  | p, b :: rest =>
    match step p b with
    | .complete c => c :: decodeFrom .between rest
    | .more next => decodeFrom next rest
    | .refuse =>
      match p with
      | .between => replacement :: decodeFrom .between rest
      | .inside .. =>
        match first b with
        | .complete c => replacement :: c :: decodeFrom .between rest
        | .more next => replacement :: decodeFrom next rest
        | .refuse => replacement :: replacement :: decodeFrom .between rest

/-- The text of some bytes, with one U+FFFD for each maximal invalid stretch. -/
def decodeLossy (bytes : List UInt8) : String :=
  String.ofList (decodeFrom .between bytes)

/-! ## 3. Finding the first flaw -/

/-- Why bytes are not UTF-8. -/
inductive Flaw where
  /-- `length` bytes at `index` begin no character. -/
  | invalid (length index : Nat)
  /-- The text ends inside the character that starts at `index`. -/
  | incomplete (index : Nat)
  deriving DecidableEq, Repr

/-- The first flaw ahead, when the character being read starts at `start` and `taken` of its
bytes have been read. -/
def flawFrom : Progress → Nat → Nat → List UInt8 → Option Flaw
  | .between, _, _, [] => none
  | .inside .., start, _, [] => some (.incomplete start)
  | p, start, taken, b :: rest =>
    match step p b with
    | .complete _ => flawFrom .between (start + taken + 1) 0 rest
    | .more next => flawFrom next start (taken + 1) rest
    | .refuse => some (.invalid (max taken 1) start)

/-- The first place where some bytes stop being UTF-8. -/
def firstFlaw? (bytes : List UInt8) : Option Flaw :=
  flawFrom .between 0 0 bytes

/-- The report of a flaw. -/
def Flaw.message : Flaw → String
  | .invalid length index =>
    s!"invalid utf-8 sequence of {length} bytes from index {index}"
  | .incomplete index => s!"incomplete utf-8 byte sequence from index {index}"

/-- The bytes of a text. -/
def encode (text : String) : List UInt8 :=
  text.toByteArray.data.toList

end ScriptLang.Text.Utf8
