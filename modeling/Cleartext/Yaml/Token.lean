/-!
# Tokens of a YAML text

The text is a list of characters with a place in it, and reading it gives
tokens: the indicators, the ends of nested blocks, and scalars.
-/

namespace Cleartext.Yaml

/-! ## Characters -/

/-- Whether a character ends a line. -/
def isBreak (c : Char) : Bool := c ∈ ['\n', '\r', '\x85', '\u2028', '\u2029']

/-- Whether a character is a blank. -/
def isBlank (c : Char) : Bool := c = ' ' || c = '\t'

/-- Whether a character may stand in the name of an anchor. -/
def isWord (c : Char) : Bool := c.isAlphanum || c = '_' || c = '-'

/-- Whether there is no character, or one that satisfies a test. -/
def endOr (p : Char → Bool) : Option Char → Bool
  | none => true
  | some c => p c

/-- Whether a word ends: a blank, a break or the end of the text. -/
def isGap : Option Char → Bool := endOr fun c => isBlank c || isBreak c

/-- Whether a line ends. -/
def isLineEnd : Option Char → Bool := endOr isBreak

/-! ## Places -/

/-- A place in a text. -/
structure Mark where
  index : Nat
  line : Nat
  column : Nat
deriving Inhabited, Repr

/-- What is left of a text, and where it starts. -/
structure Cursor where
  rest : List Char
  mark : Mark

namespace Cursor

/-- The start of a text. -/
def ofText (text : String) : Cursor := ⟨text.toList, ⟨0, 0, 0⟩⟩

/-- The next character. -/
def head? (c : Cursor) : Option Char := c.rest.head?

/-- The character `n` places on. -/
def ahead? (c : Cursor) (n : Nat) : Option Char := c.rest[n]?

/-- The column of the next character. -/
def column (c : Cursor) : Nat := c.mark.column

/-- Whether the next character is a given one. -/
def at_ (c : Cursor) (x : Char) : Bool := c.head? == some x

/-- Passes a character that ends no line. -/
def skip (c : Cursor) : Cursor :=
  match c.rest with
  | [] => c
  | _ :: rest => ⟨rest, { c.mark with index := c.mark.index + 1, column := c.mark.column + 1 }⟩

/-- Passes `n` characters. -/
def skipMany : Nat → Cursor → Cursor
  | 0, c => c
  | n + 1, c => skipMany n c.skip

/-- Passes the end of a line, if there is one, and gives what it stands for. -/
def takeBreak (c : Cursor) : List Char × Cursor :=
  let next (n : Nat) (rest : List Char) : Cursor :=
    ⟨rest, { index := c.mark.index + n, line := c.mark.line + 1, column := 0 }⟩
  match c.rest with
  | '\r' :: '\n' :: rest => (['\n'], next 2 rest)
  | '\r' :: rest | '\n' :: rest | '\x85' :: rest => (['\n'], next 1 rest)
  | '\u2028' :: rest => (['\u2028'], next 1 rest)
  | '\u2029' :: rest => (['\u2029'], next 1 rest)
  | _ => ([], c)

/-- Passes characters that satisfy a test and end no line. -/
def skipWhile (p : Char → Bool) (c : Cursor) : Cursor :=
  skipMany (c.rest.takeWhile p).length c

/-- The characters up to the end of the line, and the place of the end. -/
def takeLine (c : Cursor) : List Char × Cursor :=
  let line := c.rest.takeWhile fun x => !isBreak x
  (line, skipMany line.length c)

/-- Whether a line starts with the mark of a document. -/
def atDocumentMark (c : Cursor) (x : Char) : Bool :=
  c.column = 0 && c.rest.take 3 = [x, x, x] && isGap (c.ahead? 3)

end Cursor

/-! ## Tokens -/

/-- How a scalar is written. -/
inductive ScalarStyle
  | plain
  | singleQuoted
  | doubleQuoted
  | literal
  | folded
deriving DecidableEq, Repr, Inhabited

/-- A token. -/
inductive Token
  | versionDirective (major minor : Nat)
  | tagDirective (handle stem : String)
  | documentStart
  | documentEnd
  | streamEnd
  | blockSequenceStart
  | blockMappingStart
  | blockEnd
  | flowSequenceStart
  | flowSequenceEnd
  | flowMappingStart
  | flowMappingEnd
  | blockEntry
  | flowEntry
  | key
  | value
  | alias_ (name : String)
  | anchor (name : String)
  | tag (handle suffix : String)
  | scalar (text : String) (style : ScalarStyle)
deriving DecidableEq, Repr, Inhabited

/-- A token with the place where it starts. -/
structure Placed where
  token : Token
  mark : Mark
deriving Inhabited

/-! ## Troubles -/

/-- Why a text is not read. -/
inductive Trouble
  /-- The text holds characters that it must not hold. -/
  | character
  /-- No token can be made at `line` of something that started at `start`. -/
  | scan (start line : Nat) (problem : String)
  /-- The tokens do not fit together at `line` in something that started at
  `start`. -/
  | parse (start line : Nat) (problem : String)
  /-- What was read does not fit its use. -/
  | use (problem : String)
deriving Repr

/-- The wording of a trouble.  The line is that of the start, unless that is
the first line of the text. -/
def Trouble.message : Trouble → String
  | .character => "yaml: control characters are not allowed"
  | .scan start line problem =>
    let at_ := if start ≠ 0 then start + 1 else if line ≠ 0 then line + 1 else 0
    "yaml: " ++ (if at_ = 0 then "" else s!"line {at_}: ") ++ problem
  | .parse start line problem =>
    let at_ := if start ≠ 0 then start else line
    "yaml: " ++ (if at_ = 0 then "" else s!"line {at_}: ") ++ problem
  | .use problem => "yaml: " ++ problem

end Cleartext.Yaml
