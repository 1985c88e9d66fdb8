import Cleartext.Yaml.Token
import Cleartext.Text.Hexadecimal

/-!
# Scalars of a YAML text

Quoted, plain and block scalars.  Lines are folded: a single break reads as a
blank, and of several breaks all but the first are kept.
-/

namespace Cleartext.Yaml

/-- What scanning gives. -/
abbrev Scanned := Except Trouble

/-- A trouble at a cursor, with something that started at a place. -/
def scanFails {α : Type} (start : Mark) (c : Cursor) (problem : String) : Scanned α :=
  .error (.scan start.line c.mark.line problem)

/-! ## Blanks between words -/

/-- The blanks and breaks between two words of a scalar: blanks in front of
the first break count only when there is none. -/
structure Spacing where
  blanks : List Char := []
  first : List Char := []
  others : List Char := []
  /-- Whether a line ended. -/
  broken : Bool := false

/-- What a spacing reads as. -/
def Spacing.text (s : Spacing) : List Char :=
  if s.broken then
    if s.first.head? = some '\n' then (if s.others.isEmpty then [' '] else s.others)
    else s.first ++ s.others
  else s.blanks

/-- Takes blanks and breaks.  `check` is asked at every blank behind a break. -/
def takeSpacing (check : Cursor → Scanned Unit) : Nat → Spacing → Cursor → Scanned (Spacing × Cursor)
  | 0, s, c => return (s, c)
  | fuel + 1, s, c =>
    match c.head? with
    | none => return (s, c)
    | some x =>
      if isBlank x then do
        if s.broken then
          check c
          takeSpacing check fuel s c.skip
        else takeSpacing check fuel { s with blanks := s.blanks ++ [x] } c.skip
      else if isBreak x then
        let (b, next) := c.takeBreak
        if s.broken then takeSpacing check fuel { s with others := s.others ++ b } next
        else takeSpacing check fuel { s with first := b, broken := true } next
      else return (s, c)

/-! ## Quoted scalars -/

/-- The character that an escape of one letter stands for. -/
def escape? (c : Char) : Option Char :=
  match c with
  | '0' => some '\x00'
  | 'a' => some '\x07'
  | 'b' => some '\x08'
  | 't' | '\t' => some '\t'
  | 'n' => some '\n'
  | 'v' => some '\x0b'
  | 'f' => some '\x0c'
  | 'r' => some '\r'
  | 'e' => some '\x1b'
  | ' ' => some ' '
  | '"' => some '"'
  | '\'' => some '\''
  | '\\' => some '\\'
  | 'N' => some '\x85'
  | '_' => some '\xa0'
  | 'L' => some '\u2028'
  | 'P' => some '\u2029'
  | _ => none

/-- The number of digits of an escape by code point. -/
def escapeDigits? (c : Char) : Option Nat :=
  match c with
  | 'x' => some 2
  | 'u' => some 4
  | 'U' => some 8
  | _ => none

/-- The number of hexadecimal digits. -/
def hexNumber? (digits : List Char) : Option Nat :=
  digits.foldlM (fun n c => (Text.hexDigit? c).map fun d => n * 16 + d.toNat) 0

/-- Takes an escape behind its backslash. -/
def takeEscape (start : Mark) (c : Cursor) : Scanned (Char × Cursor) :=
  match c.ahead? 1 with
  | none => scanFails start c "found unknown escape character"
  | some x =>
    match escape? x, escapeDigits? x with
    | some y, _ => return (y, c.skipMany 2)
    | none, none => scanFails start c "found unknown escape character"
    | none, some n =>
      let c := c.skipMany 2
      let digits := c.rest.take n
      match (if digits.length = n then hexNumber? digits else none) with
      | none => scanFails start c "did not find expected hexdecimal number"
      | some v =>
        if (0xd800 ≤ v && v ≤ 0xdfff) || 0x10ffff < v then
          scanFails start c "found invalid Unicode character escape code"
        else return (Char.ofNat v, c.skipMany n)

/-- Takes the characters of a quoted scalar up to a blank, a break or the
quote; whether a break was escaped comes with them. -/
def takeQuotedWord (single : Bool) (start : Mark) :
    Nat → List Char → Cursor → Scanned (List Char × Bool × Cursor)
  | 0, word, c => return (word, false, c)
  | fuel + 1, word, c =>
    match c.head? with
    | none => return (word, false, c)
    | some x =>
      if isBlank x || isBreak x then return (word, false, c)
      else if single then
        if x = '\'' then
          if c.ahead? 1 = some '\'' then takeQuotedWord single start fuel (word ++ ['\'']) (c.skipMany 2)
          else return (word, false, c)
        else takeQuotedWord single start fuel (word ++ [x]) c.skip
      else if x = '"' then return (word, false, c)
      else if x = '\\' then
        if (c.ahead? 1).any isBreak then return (word, true, (c.skip.takeBreak).2)
        else do
          let (y, c) ← takeEscape start c
          takeQuotedWord single start fuel (word ++ [y]) c
      else takeQuotedWord single start fuel (word ++ [x]) c.skip

/-- Takes a quoted scalar behind its quote. -/
def takeQuoted (single : Bool) (start : Mark) : Nat → List Char → Cursor → Scanned (List Char × Cursor)
  | 0, _, c => scanFails start c "found unexpected end of stream"
  | fuel + 1, text, c => do
    if c.atDocumentMark '-' || c.atDocumentMark '.' then
      scanFails start c "found unexpected document indicator"
    else if c.rest.isEmpty then scanFails start c "found unexpected end of stream"
    else
      let (word, escaped, c) ← takeQuotedWord single start (c.rest.length + 1) [] c
      let text := text ++ word
      if c.at_ (if single then '\'' else '"') then return (text, c.skip)
      else
        let (spacing, c) ← takeSpacing (fun _ => pure ()) (c.rest.length + 1) { broken := escaped } c
        takeQuoted single start fuel (text ++ spacing.text) c

/-! ## Plain scalars -/

/-- Whether a plain scalar ends at a cursor. -/
def plainEnds (inFlow : Bool) (c : Cursor) : Bool :=
  match c.head? with
  | none => true
  | some x =>
    (x = ':' && isGap (c.ahead? 1)) || (inFlow && x ∈ [',', '?', '[', ']', '{', '}'])

/-- Takes a word of a plain scalar. -/
def takePlainWord (inFlow : Bool) : Nat → List Char → Cursor → List Char × Cursor
  | 0, word, c => (word, c)
  | fuel + 1, word, c =>
    match c.head? with
    | none => (word, c)
    | some x =>
      if isGap (some x) || plainEnds inFlow c then (word, c)
      else takePlainWord inFlow fuel (word ++ [x]) c.skip

/-- Takes a plain scalar that must stay right of `indent`; whether a line
ended behind it comes with it. -/
def takePlain (inFlow : Bool) (indent : Int) (start : Mark) :
    Nat → List Char → Spacing → Cursor → Scanned (List Char × Bool × Cursor)
  | 0, text, spacing, c => return (text, spacing.broken, c)
  | fuel + 1, text, spacing, c => do
    if c.atDocumentMark '-' || c.atDocumentMark '.' || c.at_ '#' then
      return (text, spacing.broken, c)
    else
      let (word, c) := takePlainWord inFlow (c.rest.length + 1) [] c
      let (text, spacing) := if word.isEmpty then (text, spacing) else (text ++ spacing.text ++ word, {})
      if !(c.head?).any fun x => isBlank x || isBreak x then return (text, spacing.broken, c)
      else
        let check (c : Cursor) : Scanned Unit :=
          if (c.column : Int) < indent && c.at_ '\t' then
            scanFails start c "found a tab character that violates indentation"
          else return ()
        let (spacing, c) ← takeSpacing check (c.rest.length + 1) spacing c
        if !inFlow && (c.column : Int) < indent then return (text, spacing.broken, c)
        else takePlain inFlow indent start fuel text spacing c

/-! ## Block scalars -/

/-- What happens to the breaks at the end of a block scalar. -/
inductive Chomping
  | strip
  | clip
  | keep
deriving DecidableEq

/-- The marks behind the indicator of a block scalar. -/
structure BlockHeader where
  chomping : Chomping := .clip
  increment : Option Nat := none

/-- Takes a chomping mark. -/
def takeChomping (h : BlockHeader) (c : Cursor) : BlockHeader × Cursor :=
  if c.at_ '+' then ({ h with chomping := .keep }, c.skip)
  else if c.at_ '-' then ({ h with chomping := .strip }, c.skip)
  else (h, c)

/-- Takes an indentation mark. -/
def takeIncrement (start : Mark) (h : BlockHeader) (c : Cursor) : Scanned (BlockHeader × Cursor) :=
  match c.head? with
  | some x =>
    if x = '0' then scanFails start c "found an indentation indicator equal to 0"
    else if x.isDigit then return ({ h with increment := some (x.toNat - 48) }, c.skip)
    else return (h, c)
  | none => return (h, c)

/-- Takes both marks, in either order. -/
def takeHeader (start : Mark) (c : Cursor) : Scanned (BlockHeader × Cursor) :=
  if c.at_ '+' || c.at_ '-' then
    let (h, c) := takeChomping {} c
    takeIncrement start h c
  else do
    let (h, next) ← takeIncrement start {} c
    return if h.increment.isSome then takeChomping h next else (h, c)

/-- Takes empty lines in front of a line of a block scalar, and the
indentation of that line; the greatest column that was met comes with them. -/
def takeEmptyLines (start : Mark) (indent : Nat) :
    Nat → Nat → List Char → Cursor → Scanned (Nat × List Char × Cursor)
  | 0, widest, breaks, c => return (widest, breaks, c)
  | fuel + 1, widest, breaks, c =>
    let blanks := (c.rest.takeWhile (· = ' ')).length
    let c := c.skipMany (if indent = 0 then blanks else min blanks (indent - c.column))
    let widest := max widest c.column
    if (indent = 0 || c.column < indent) && c.at_ '\t' then
      scanFails start c "found a tab character where an indentation space is expected"
    else if (c.head?).any isBreak then
      let (b, c) := c.takeBreak
      takeEmptyLines start indent fuel widest (breaks ++ b) c
    else return (widest, breaks, c)

/-- Takes the lines of a block scalar.  `first` is the break of the line
before, `others` are the empty lines behind it, and `blank` tells whether that
line started with a blank. -/
def takeBlockLines (isLiteral : Bool) (start : Mark) (indent : Nat) :
    Nat → List Char → (first others : List Char) → (blank : Bool) → Cursor →
      Scanned (List Char × List Char × List Char × Cursor)
  | 0, text, first, others, _, c => return (text, first, others, c)
  | fuel + 1, text, first, others, blank, c => do
    if c.column ≠ indent || c.rest.isEmpty then return (text, first, others, c)
    else
      let starts := (c.head?).any isBlank
      let joint :=
        if !isLiteral && !blank && !starts && first.head? = some '\n' then
          if others.isEmpty then [' '] else []
        else first
      let (line, c) := c.takeLine
      let (b, c) := c.takeBreak
      let (_, breaks, c) ← takeEmptyLines start indent (c.rest.length + 1) 0 [] c
      takeBlockLines isLiteral start indent fuel (text ++ joint ++ others ++ line) b breaks starts c

/-- Takes a block scalar behind its indicator, in a block that is indented by
`parent`. -/
def takeBlock (isLiteral : Bool) (start : Mark) (parent : Int) (c : Cursor) :
    Scanned (List Char × Cursor) := do
  let (header, c) ← takeHeader start c
  let c := c.skipWhile isBlank
  let c := if c.at_ '#' then (c.takeLine).2 else c
  if !isLineEnd c.head? then scanFails start c "did not find expected comment or line break"
  else
    let (_, c) := c.takeBreak
    let fixed := match header.increment with
      | some n => (max parent 0).toNat + n
      | none => 0
    let (widest, others, c) ← takeEmptyLines start fixed (c.rest.length + 1) 0 [] c
    let indent := if fixed = 0 then max (max widest (parent + 1).toNat) 1 else fixed
    let (text, first, others, c) ←
      takeBlockLines isLiteral start indent (c.rest.length + 1) [] [] others false c
    let tail := match header.chomping with
      | .strip => []
      | .clip => first
      | .keep => first ++ others
    return (text ++ tail, c)

end Cleartext.Yaml
