import Cleartext.Yaml.Scalar

/-!
# Tokens from a YAML text

Indentation opens and closes blocks.  A scalar or a flow collection may turn
out to be a key when a `:` follows it in the same line; then the tokens of the
key, and of the mapping that it opens, are put in front of it.
-/

namespace Cleartext.Yaml

/-- A token that may be a key. -/
structure PossibleKey where
  /-- Whether nothing but a key can stand there. -/
  required : Bool
  /-- The number of tokens in front of it. -/
  position : Nat
  mark : Mark

/-- The state of reading tokens. -/
structure Lexer where
  cursor : Cursor
  tokens : Array Placed := #[]
  /-- The column of the innermost block; -1 when there is none. -/
  indent : Int := -1
  /-- The columns of the blocks around it. -/
  outer : List Int := []
  /-- Whether a key may start here. -/
  keyAllowed : Bool := true
  /-- The possible key of the innermost collection, and those of the flow
  collections around it. -/
  key : Option PossibleKey := none
  outerKeys : List (Option PossibleKey) := []

/-- A step of reading tokens. -/
abbrev Lexing := StateT Lexer Scanned

namespace Lexing

/-- A trouble at the cursor. -/
def fails {α : Type} (start : Option Mark) (problem : String) : Lexing α := do
  let c := (← get).cursor
  throw (.scan (start.getD c.mark).line c.mark.line problem)

/-- The number of flow collections around the cursor is not zero. -/
def inFlow : Lexing Bool := return !(← get).outerKeys.isEmpty

/-- Adds a token. -/
def emit (token : Token) (mark : Mark) : Lexing Unit :=
  modify fun l => { l with tokens := l.tokens.push ⟨token, mark⟩ }

/-- Puts a token in front of the token at a position. -/
def emitAt (position : Nat) (token : Token) (mark : Mark) : Lexing Unit :=
  modify fun l => { l with tokens := l.tokens.insertIdxIfInBounds position ⟨token, mark⟩ }

/-- Moves the cursor. -/
def moveTo (c : Cursor) : Lexing Unit := modify fun l => { l with cursor := c }

/-- Sets whether a key may start. -/
def allowKey (allowed : Bool) : Lexing Unit := modify fun l => { l with keyAllowed := allowed }

/-- Opens a block at a column, if it is deeper than the innermost one. -/
def openBlock (column : Nat) (position : Option Nat) (token : Token) (mark : Mark) : Lexing Unit := do
  let l ← get
  if !(← inFlow) && l.indent < column then
    set { l with indent := column, outer := l.indent :: l.outer }
    match position with
    | some p => emitAt p token mark
    | none => emit token mark

/-- Closes the blocks that are deeper than a column. -/
def closeBlocks (column : Int) : Lexing Unit := do
  let l ← get
  if !(← inFlow) then
    let closed := (l.indent :: l.outer).takeWhile (column < ·)
    let left := (l.indent :: l.outer).dropWhile (column < ·)
    modify fun l =>
      { l with
        indent := left.headD (-1), outer := left.tail
        tokens := l.tokens ++ (closed.map fun _ => (⟨.blockEnd, l.cursor.mark⟩ : Placed)).toArray }

/-- Forgets the possible key; a required one must not be forgotten. -/
def dropKey : Lexing Unit := do
  match (← get).key with
  | some k =>
    if k.required then fails (some k.mark) "could not find expected ':'"
    else modify fun l => { l with key := none }
  | none => return ()

/-- Notes that a key may start here. -/
def saveKey : Lexing Unit := do
  if (← get).keyAllowed then
    dropKey
    let flow ← inFlow
    modify fun l =>
      { l with key := some { required := !flow && l.indent == l.cursor.column
                             position := l.tokens.size, mark := l.cursor.mark } }

/-- The longest key. -/
def longestKey : Nat := 1024

/-- The possible key, if it is still one. -/
def currentKey : Lexing (Option PossibleKey) := do
  let l ← get
  match l.key with
  | none => return none
  | some k =>
    if k.mark.line < l.cursor.mark.line || k.mark.index + longestKey < l.cursor.mark.index then
      dropKey
      return none
    else return some k

/-! ## Blanks and comments -/

/-- Passes blanks, comments and breaks. -/
def toNextToken : Nat → Lexing Unit
  | 0 => return ()
  | fuel + 1 => do
    let l ← get
    let flow ← inFlow
    let tabs := flow || !l.keyAllowed
    let c := l.cursor.skipWhile fun x => x = ' ' || (tabs && x = '\t')
    let c := if c.at_ '#' then (c.takeLine).2 else c
    moveTo c
    if (c.head?).any isBreak then
      moveTo (c.takeBreak).2
      if !flow then allowKey true
      toNextToken fuel

/-! ## Names -/

/-- Takes an anchor or an alias. -/
def takeAnchor (isAlias : Bool) : Lexing Unit := do
  saveKey
  allowKey false
  let c := (← get).cursor
  let name := (c.rest.drop 1).takeWhile isWord
  let next := c.skipMany (name.length + 1)
  moveTo next
  let ends := isGap next.head? || (next.head?).any (· ∈ ['?', ':', ',', ']', '}', '%', '@', '`'])
  if name.isEmpty || !ends then
    fails (some c.mark) "did not find expected alphabetic or numeric character"
  else
    let name := String.ofList name
    emit (if isAlias then .alias_ name else .anchor name) c.mark

/-- Whether a character may stand in a tag. -/
def isTagChar (c : Char) : Bool :=
  isWord c || c ∈ [';', '/', '?', ':', '@', '&', '=', '+', '$', '.', ',', '!', '~', '*', '\'', '(',
    ')', '[', ']', '%']

/-- Takes the characters of a tag. -/
def takeTagText (start : Mark) (needed : Bool) : Lexing String := do
  let c := (← get).cursor
  let text := c.rest.takeWhile isTagChar
  if needed && text.isEmpty then fails (some start) "did not find expected tag URI"
  else
    moveTo (c.skipMany text.length)
    return String.ofList text

/-- Takes the handle of a tag: an exclamation mark, and a word and another
mark if they follow. -/
def takeHandle : Lexing String := do
  let c := (← get).cursor
  let word := (c.rest.drop 1).takeWhile isWord
  let closed := c.ahead? (word.length + 1) = some '!'
  moveTo (c.skipMany (word.length + if closed then 2 else 1))
  return "!" ++ String.ofList word ++ if closed then "!" else ""

/-- Takes a tag. -/
def takeTag : Lexing Unit := do
  saveKey
  allowKey false
  let c := (← get).cursor
  let start := c.mark
  if c.ahead? 1 = some '<' then
    moveTo (c.skipMany 2)
    let text ← takeTagText start true
    let c := (← get).cursor
    if c.at_ '>' then
      moveTo c.skip
      emit (.tag "" text) start
    else fails (some start) "did not find the expected '>'"
  else
    let handle ← takeHandle
    if handle.length > 1 && handle.endsWith "!" then
      let text ← takeTagText start true
      emit (.tag handle text) start
    else
      let text := (handle.drop 1).toString ++ (← takeTagText start false)
      emit (if text = "" then .tag "" "!" else .tag "!" text) start
  if !isGap ((← get).cursor).head? then
    fails (some start) "did not find expected whitespace or line break"

/-! ## Directives -/

/-- Takes digits. -/
def takeNumber (start : Mark) : Lexing Nat := do
  let c := (← get).cursor
  let digits := c.rest.takeWhile Char.isDigit
  if digits.isEmpty then fails (some start) "did not find expected version number"
  else if 9 < digits.length then fails (some start) "found extremely long version number"
  else
    moveTo (c.skipMany digits.length)
    return digits.foldl (fun n d => n * 10 + (d.toNat - 48)) 0

/-- Passes blanks. -/
def skipBlanks : Lexing Unit := modify fun l => { l with cursor := l.cursor.skipWhile isBlank }

/-- Takes what a directive says. -/
def takeDirectiveBody (start : Mark) (name : String) : Lexing Token := do
  if name = "YAML" then
    skipBlanks
    let major ← takeNumber start
    let c := (← get).cursor
    if c.at_ '.' then
      moveTo c.skip
      return .versionDirective major (← takeNumber start)
    else fails (some start) "did not find expected digit or '.' character"
  else if name = "TAG" then
    skipBlanks
    if !((← get).cursor).at_ '!' then fails (some start) "did not find expected '!'"
    else
      let handle ← takeHandle
      if handle ≠ "!" && !handle.endsWith "!" then fails (some start) "did not find expected '!'"
      else if !((← get).cursor.head?).any isBlank then
        fails (some start) "did not find expected whitespace"
      else
        skipBlanks
        let text ← takeTagText start true
        if !isGap ((← get).cursor).head? then
          fails (some start) "did not find expected whitespace or line break"
        else return .tagDirective handle text
  else fails (some start) "found unknown directive name"

/-- Takes a directive. -/
def takeDirective : Lexing Unit := do
  closeBlocks (-1)
  dropKey
  allowKey false
  let c := (← get).cursor
  let start := c.mark
  let name := (c.rest.drop 1).takeWhile isWord
  let next := c.skipMany (name.length + 1)
  moveTo next
  if name.isEmpty then fails (some start) "could not find expected directive name"
  else if !isGap next.head? then fails (some start) "found unexpected non-alphabetical character"
  else
    let token ← takeDirectiveBody start (String.ofList name)
    skipBlanks
    let c := (← get).cursor
    let c := if c.at_ '#' then (c.takeLine).2 else c
    if !isLineEnd c.head? then fails (some start) "did not find expected comment or line break"
    else
      moveTo (c.takeBreak).2
      emit token start

/-! ## Indicators -/

/-- Takes `n` characters as a token. -/
def takeIndicator (n : Nat) (token : Token) : Lexing Unit := do
  let c := (← get).cursor
  moveTo (c.skipMany n)
  emit token c.mark

/-- Takes the mark of a document. -/
def takeDocumentMark (token : Token) : Lexing Unit := do
  closeBlocks (-1)
  dropKey
  allowKey false
  takeIndicator 3 token

/-- Takes the start of a flow collection. -/
def takeFlowStart (token : Token) : Lexing Unit := do
  saveKey
  modify fun l => { l with key := none, outerKeys := l.key :: l.outerKeys, keyAllowed := true }
  takeIndicator 1 token

/-- Takes the end of a flow collection. -/
def takeFlowEnd (token : Token) : Lexing Unit := do
  dropKey
  modify fun l =>
    match l.outerKeys with
    | [] => { l with keyAllowed := false }
    | k :: rest => { l with key := k, outerKeys := rest, keyAllowed := false }
  takeIndicator 1 token

/-- Takes the comma of a flow collection. -/
def takeFlowEntry : Lexing Unit := do
  dropKey
  allowKey true
  takeIndicator 1 .flowEntry

/-- Takes the dash of an item. -/
def takeBlockEntry : Lexing Unit := do
  let l ← get
  if !(← inFlow) then
    if !l.keyAllowed then fails none "block sequence entries are not allowed in this context"
    openBlock l.cursor.column none .blockSequenceStart l.cursor.mark
  dropKey
  allowKey true
  takeIndicator 1 .blockEntry

/-- Takes the question mark of a key. -/
def takeKey : Lexing Unit := do
  let l ← get
  let flow ← inFlow
  if !flow then
    if !l.keyAllowed then fails none "mapping keys are not allowed in this context"
    openBlock l.cursor.column none .blockMappingStart l.cursor.mark
  dropKey
  allowKey (!flow)
  takeIndicator 1 .key

/-- Takes the colon of a value. -/
def takeValue : Lexing Unit := do
  let flow ← inFlow
  match ← currentKey with
  | some k =>
    emitAt k.position .key k.mark
    openBlock k.mark.column (some k.position) .blockMappingStart k.mark
    modify fun l => { l with key := none, keyAllowed := false }
  | none =>
    let l ← get
    if !flow then
      if !l.keyAllowed then fails none "mapping values are not allowed in this context"
      openBlock l.cursor.column none .blockMappingStart l.cursor.mark
    allowKey (!flow)
  takeIndicator 1 .value

/-! ## Scalars -/

/-- Takes a block scalar. -/
def takeBlockScalar (isLiteral : Bool) : Lexing Unit := do
  dropKey
  allowKey true
  let l ← get
  let (text, c) ← takeBlock isLiteral l.cursor.mark l.indent l.cursor.skip
  moveTo c
  emit (.scalar (String.ofList text) (if isLiteral then .literal else .folded)) l.cursor.mark

/-- Takes a quoted scalar. -/
def takeQuotedScalar (single : Bool) : Lexing Unit := do
  saveKey
  allowKey false
  let c := (← get).cursor
  let (text, next) ← takeQuoted single c.mark (c.rest.length + 1) [] c.skip
  moveTo next
  emit (.scalar (String.ofList text) (if single then .singleQuoted else .doubleQuoted)) c.mark

/-- Takes a plain scalar. -/
def takePlainScalar : Lexing Unit := do
  saveKey
  allowKey false
  let l ← get
  let (text, broken, c) ←
    takePlain (← inFlow) (l.indent + 1) l.cursor.mark (l.cursor.rest.length + 1) [] {} l.cursor
  moveTo c
  emit (.scalar (String.ofList text) .plain) l.cursor.mark
  if broken then allowKey true

/-- Whether a plain scalar may start with a character. -/
def startsPlain (flow : Bool) (c : Cursor) (x : Char) : Bool :=
  !(isGap (some x) ||
      x ∈ ['-', '?', ':', ',', '[', ']', '{', '}', '#', '&', '*', '!', '|', '>', '\'', '"', '%', '@', '`']) ||
    (x = '-' && !(c.ahead? 1).any isBlank) ||
    (!flow && (x = '?' || x = ':') && !isGap (c.ahead? 1))

/-! ## The whole text -/

/-- Takes the end of the text. -/
def takeEnd : Lexing Unit := do
  modify fun l =>
    let m := l.cursor.mark
    if m.column = 0 then l
    else { l with cursor := { l.cursor with mark := { m with column := 0, line := m.line + 1 } } }
  closeBlocks (-1)
  dropKey
  allowKey false
  emit .streamEnd ((← get).cursor).mark

/-- Takes the next token; whether it was not the last comes back. -/
def next : Lexing Bool := do
  toNextToken (((← get).cursor).rest.length + 1)
  closeBlocks ((← get).cursor).column
  let c := (← get).cursor
  let flow ← inFlow
  match c.head? with
  | none =>
    takeEnd
    return false
  | some x =>
    if c.column = 0 && x = '%' then takeDirective
    else if c.atDocumentMark '-' then takeDocumentMark .documentStart
    else if c.atDocumentMark '.' then takeDocumentMark .documentEnd
    else if x = '[' then takeFlowStart .flowSequenceStart
    else if x = '{' then takeFlowStart .flowMappingStart
    else if x = ']' then takeFlowEnd .flowSequenceEnd
    else if x = '}' then takeFlowEnd .flowMappingEnd
    else if x = ',' then takeFlowEntry
    else if x = '-' && isGap (c.ahead? 1) then takeBlockEntry
    else if x = '?' && (flow || isGap (c.ahead? 1)) then takeKey
    else if x = ':' && (flow || isGap (c.ahead? 1)) then takeValue
    else if x = '*' then takeAnchor true
    else if x = '&' then takeAnchor false
    else if x = '!' then takeTag
    else if x = '|' && !flow then takeBlockScalar true
    else if x = '>' && !flow then takeBlockScalar false
    else if x = '\'' then takeQuotedScalar true
    else if x = '"' then takeQuotedScalar false
    else if startsPlain flow c x then takePlainScalar
    else fails none "found character that cannot start any token"
    return true

end Lexing

/-- The tokens of a text, and the trouble that ended them, if any.  Every step
but the last takes a character, so the length of the text is enough fuel. -/
def Lexer.run : Nat → Lexer → Array Placed × Option Trouble
  | 0, l => (l.tokens, none)
  | fuel + 1, l =>
    match Lexing.next l with
    | .ok (true, l) => run fuel l
    | .ok (false, l) => (l.tokens, none)
    | .error t => (l.tokens, some t)

/-- Whether a text may hold a character. -/
def isAllowed (c : Char) : Bool :=
  c = '\t' || c = '\n' || c = '\r' || (' ' ≤ c && c ≤ '~') || c = '\x85' ||
    ('\xa0' ≤ c && c ≤ '\uFFFD') || '\uFFFF' < c

/-- The tokens of a text. -/
def tokenize (text : String) : List Placed × Option Trouble :=
  let text := if text.startsWith "\uFEFF" then (text.drop 1).toString else text
  if text.toList.all isAllowed then
    let (tokens, trouble) := Lexer.run (text.length + 2) { cursor := .ofText text }
    (tokens.toList, trouble)
  else ([], some .character)

end Cleartext.Yaml
