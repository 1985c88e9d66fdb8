import Cleartext.Yaml.Value

/-!
# Writing documents

Documents are written from data and read as trees in a `Format`, of which
nothing is known but these two operations.

`Format.standard` writes data in block style.  Texts stand plain where they read back as
texts, and else between quotes; texts of several lines stand as blocks.  Every
level is indented by four blanks, and what stands behind a dash by two.
-/

namespace Cleartext.Yaml

/-! ## How a text can be written -/

/-- Whether a character is written as itself between double quotes. -/
def isShown (c : Char) : Bool :=
  c = '\n' || (' ' ≤ c && c ≤ '~') || ('\xa0' ≤ c && c ≤ '\uFFFD' && c ≠ '\uFEFF')

/-- What forbids a style for a text. -/
structure Analysis where
  /-- An indicator that would be read as such. -/
  indicator : Bool := false
  hasBreak : Bool := false
  /-- A character that must be escaped. -/
  special : Bool := false
  hasTab : Bool := false
  /-- A blank or a break at one of the ends. -/
  openEnd : Bool := false
  trailingBlank : Bool := false
  /-- A blank behind a break. -/
  breakBlank : Bool := false
  /-- A break behind a blank. -/
  blankBreak : Bool := false

/-- Whether a character is an indicator, with its neighbours: none before it
is the start of the text. -/
def isIndicator (before : Option Char) (c : Char) (after : Option Char) : Bool :=
  let gap := endOr isBlank after
  match before with
  | none =>
    c ∈ ['#', ',', '[', ']', '{', '}', '&', '*', '!', '|', '>', '\'', '"', '%', '@', '`'] ||
      (c ∈ ['?', ':', '-'] && gap)
  | some b => (c = ':' && gap) || (c = '#' && (isBlank b || isBreak b))

/-- Looks at the characters of a text. -/
def analyzeAux : (before : Option Char) → List Char → Analysis → Analysis
  | _, [], a => a
  | before, c :: rest, a =>
    let atEnd := before.isNone || rest.isEmpty
    analyzeAux (some c) rest
      { indicator := a.indicator || isIndicator before c rest.head?
        hasBreak := a.hasBreak || isBreak c
        special := a.special || (c ≠ '\t' && !isShown c)
        hasTab := a.hasTab || c = '\t'
        openEnd := a.openEnd || (atEnd && (c = ' ' || isBreak c))
        trailingBlank := a.trailingBlank || (rest.isEmpty && c = ' ')
        breakBlank := a.breakBlank || (c = ' ' && before.any isBreak)
        blankBreak := a.blankBreak || (isBreak c && before = some ' ') }

/-- Looks at a text. -/
def analyze (text : String) : Analysis :=
  analyzeAux none text.toList { indicator := text.startsWith "---" || text.startsWith "..." }

namespace Analysis

/-- Whether the text can stand plain. -/
def plainAllowed (a : Analysis) : Bool :=
  !(a.indicator || a.hasBreak || a.special || a.hasTab || a.openEnd || a.breakBlank || a.blankBreak)

/-- Whether the text can stand between single quotes. -/
def singleAllowed (a : Analysis) : Bool :=
  !(a.special || a.hasTab || a.breakBlank || a.blankBreak)

/-- Whether the text can stand as a block. -/
def blockAllowed (a : Analysis) : Bool := !(a.special || a.trailingBlank || a.blankBreak)

end Analysis

/-- Whether a text was a truth value in older documents. -/
def isOldBool (text : String) : Bool :=
  text ∈ ["y", "Y", "yes", "Yes", "YES", "on", "On", "ON",
    "n", "N", "no", "No", "NO", "off", "Off", "OFF"]

/-- Whether groups behind colons are those of a number in base sixty: one or
two digits below sixty each, and digits behind a point at the end. -/
def isSexagesimalTail : List Char → Bool
  | ':' :: a :: b :: rest =>
    if b.isDigit then '0' ≤ a && a ≤ '5' && ends rest else a.isDigit && ends (b :: rest)
  | [':', a] => a.isDigit
  | _ => false
where
  /-- What may follow a group. -/
  ends : List Char → Bool
  | [] => true
  | '.' :: rest => rest.all fun c => c.isDigit || c = '_'
  | ':' :: rest => isSexagesimalTail (':' :: rest)
  | _ => false

/-- Whether a text was a number in base sixty in older documents. -/
def isSexagesimal (text : String) : Bool :=
  match (Decimal.splitSign text.toList).2 with
  | c :: rest => c.isDigit && isSexagesimalTail (rest.dropWhile fun c => c.isDigit || c = '_')
  | [] => false

/-- Whether a plain text would be read as this text. -/
def readsAsText (text : String) : Bool :=
  (match plainValue text with | .text _ => true | _ => false) &&
    !isOldBool text && !isSexagesimal text

/-! ## Scalars -/

/-- A character between double quotes; `always` escapes every character. -/
def escapeQuoted (always : Bool) (c : Char) : String :=
  if !always && isShown c && !isBreak c && c ≠ '"' && c ≠ '\\' then c.toString
  else match c.toNat with
    | 0 => "\\0"
    | 7 => "\\a"
    | 8 => "\\b"
    | 9 => "\\t"
    | 10 => "\\n"
    | 11 => "\\v"
    | 12 => "\\f"
    | 13 => "\\r"
    | 0x1b => "\\e"
    | 0x22 => "\\\""
    | 0x5c => "\\\\"
    | 0x85 => "\\N"
    | 0xa0 => "\\_"
    | 0x2028 => "\\L"
    | 0x2029 => "\\P"
    | n =>
      let digits (count : Nat) := (Text.hexPadded count n).toUpper
      if n ≤ 0xff then "\\x" ++ digits 2
      else if n ≤ 0xffff then "\\u" ++ digits 4
      else "\\U" ++ digits 8

/-- A text between double quotes.  A text that starts with a byte order mark
is escaped throughout. -/
def doubleQuoted (text : String) : String :=
  let always := text.startsWith "\uFEFF"
  "\"" ++ String.join (text.toList.map (escapeQuoted always)) ++ "\""

/-- Blanks. -/
def blanks (n : Nat) : String := String.ofList (List.replicate n ' ')

/-- The lines of a text, each behind an indentation; a break is kept as it is. -/
def indented (indent : Nat) : (fresh : Bool) → List Char → String
  | _, [] => ""
  | fresh, c :: rest =>
    if isBreak c then c.toString ++ indented indent true rest
    else (if fresh then blanks indent else "") ++ c.toString ++ indented indent false rest

/-- A text between single quotes; what follows a break is indented. -/
def singleQuoted (indent : Nat) (text : String) : String :=
  "'" ++ indented indent false (text.toList.flatMap fun c => if c = '\'' then ['\'', '\''] else [c]) ++ "'"

/-- The marks of a block: the indentation when the text starts with a blank or
a break, and what happens to the breaks at its end. -/
def blockMarks (text : String) : String :=
  let chars := text.toList
  (if chars.head?.any fun c => c = ' ' || isBreak c then "4" else "") ++
    match chars.reverse with
    | [] => "-"
    | [c] => if isBreak c then "+" else "-"
    | c :: d :: _ => if !isBreak c then "-" else if isBreak d then "+" else ""

/-- A text, with the break behind it. -/
def textScalar (indent : Nat) (text : String) : String :=
  let a := analyze text
  if text.toList.any (· = '\n') then
    if a.blockAllowed then
      "|" ++ blockMarks text ++ "\n" ++ indented indent true text.toList ++
        if (text.toList.getLast?).any isBreak then "" else "\n"
    else doubleQuoted text ++ "\n"
  else if !readsAsText text then doubleQuoted text ++ "\n"
  else if a.plainAllowed then text ++ "\n"
  else if a.singleAllowed then singleQuoted indent text ++ "\n"
  else doubleQuoted text ++ "\n"

/-- A number with a fraction. -/
def floatScalar (bits : Nat) : String :=
  match Decimal.Binary.ofBits64 bits.toUInt64 with
  | .nan => ".nan"
  | .infinite negative => if negative then "-.inf" else ".inf"
  | b => Decimal.general b

/-! ## Collections -/

/-- The indentation of what stands behind a key. -/
def nextIndent (indent : Nat) : Nat := 4 * ((indent + 4) / 4)

mutual

/-- A value behind a key of a mapping that is indented by `indent`, or behind
a dash when `afterDash` holds. -/
def Value.write (indent : Nat) (afterDash : Bool) : Value → String
  | .null => " null\n"
  | .bool b => if b then " true\n" else " false\n"
  | .int n => " " ++ toString n ++ "\n"
  | .float bits => " " ++ floatScalar bits ++ "\n"
  | .text s => " " ++ textScalar (if afterDash then indent + 2 else nextIndent indent) s
  | .moment s => " " ++ s ++ "\n"
  | .list [] | .units [] => " []\n"
  | .map [] => " \x7b\x7d\n"
  | .list (v :: rest) =>
    if afterDash then " " ++ Value.writeItems (indent + 2) true (v :: rest)
    else "\n" ++ Value.writeItems (nextIndent indent) false (v :: rest)
  | .map (p :: rest) =>
    if afterDash then " " ++ Value.writePairs (indent + 2) true (p :: rest)
    else "\n" ++ Value.writePairs (nextIndent indent) false (p :: rest)
  | .units (c :: rest) =>
    let indent := if afterDash then indent + 2 else nextIndent indent
    (if afterDash then " " else "\n" ++ blanks indent) ++
      ("\n" ++ blanks indent).intercalate ((c :: rest).map fun c => "- " ++ toString c) ++ "\n"

/-- The items of a list; the first one may stand in a line that was begun. -/
def Value.writeItems (indent : Nat) (begun : Bool) : List Value → String
  | [] => ""
  | v :: rest =>
    (if begun then "" else blanks indent) ++ "-" ++ v.write indent true ++
      Value.writeItems indent false rest

/-- The pairs of a map; the first one may stand in a line that was begun. -/
def Value.writePairs (indent : Nat) (begun : Bool) : List (String × Value) → String
  | [] => ""
  | (k, v) :: rest =>
    (if begun then "" else blanks indent) ++ k ++ ":" ++ v.write indent false ++
      Value.writePairs indent false rest

end

/-- A document with the given pairs. -/
def document (pairs : List (String × Value)) : String := Value.writePairs 0 false pairs

/-! ## Formats -/

/-- A format of documents. -/
structure Format where
  /-- The document of a map. -/
  document : List (String × Value) → String
  /-- The tree of a document; nothing when there is none. -/
  parse : String → Except Trouble (Option Node)

/-- The format that is written and read here. -/
def Format.standard : Format := { document := Yaml.document, parse := Yaml.parse }

end Cleartext.Yaml
