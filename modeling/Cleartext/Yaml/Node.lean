import Cleartext.Yaml.Lexer
import Cleartext.Decimal.Numeral

/-!
# Documents

Tokens put together to the tree of a document.  An alias stands for a copy of
the node that its anchor marks; a node that holds itself is kept as such and
refused when it is used.
-/

namespace Cleartext.Yaml

/-- A node of a document.  Tags are written with two marks when they are
those of the format itself. -/
inductive Node
  | scalar (tag text : String) (style : ScalarStyle) (line : Nat)
  | sequence (tag : String) (items : List Node) (line : Nat)
  | mapping (tag : String) (pairs : List (Node × Node)) (line : Nat)
  /-- A node inside of the one that an anchor marks, which stands for it. -/
  | cycle (name : String) (line : Nat)
deriving Inhabited

/-- The line of a node, counted from one. -/
def Node.line : Node → Nat
  | .scalar _ _ _ line | .sequence _ _ line | .mapping _ _ line | .cycle _ line => line

/-- The stem of the tags of the format itself. -/
def longTagStem : String := "tag:yaml.org,2002:"

/-- A tag in its short form. -/
def shortTag (tag : String) : String :=
  if tag.startsWith longTagStem then "!!" ++ (tag.drop longTagStem.length).toString else tag

/-! ## The state of parsing -/

/-- Tokens that are left, and what was read of anchors and directives. -/
structure Parser where
  tokens : List Placed
  /-- What stopped the tokens. -/
  trouble : Option Trouble
  /-- Nodes by anchor; nothing for one that is being read. -/
  anchors : List (String × Option Node) := []
  handles : List (String × String) := [("!", "!"), ("!!", longTagStem)]

/-- A step of parsing. -/
abbrev Parsing := StateT Parser (Except Trouble)

namespace Parsing

/-- The number of tokens that are looked at in advance. -/
def lookahead : Nat := 3

/-- The next token. -/
def peek : Parsing Placed := do
  let p ← get
  match p.tokens, p.trouble with
  | t :: _, none => return t
  | t :: rest, some trouble =>
    if rest.length + 1 < lookahead then throw trouble else return t
  | [], some trouble => throw trouble
  | [], none => return ⟨.streamEnd, ⟨0, 0, 0⟩⟩

/-- Passes the next token. -/
def skip : Parsing Unit := modify fun p => { p with tokens := p.tokens.tail }

/-- A trouble with something that started at a place. -/
def fails {α : Type} (start : Mark) (t : Placed) (problem : String) : Parsing α :=
  throw (.parse start.line t.mark.line problem)

/-- The node of an empty place. -/
def empty (line : Nat) : Node := .scalar "" "" .plain (line + 1)

/-- Notes that the node of an anchor is being read. -/
def beginAnchor (name : String) : Parsing Unit :=
  modify fun p => { p with anchors := if name = "" then p.anchors else (name, none) :: p.anchors }

/-- Notes the node of an anchor. -/
def endAnchor (name : String) (n : Node) : Parsing Node := do
  if name ≠ "" then
    modify fun p =>
      { p with anchors := p.anchors.map fun (k, v) => if k = name && v.isNone then (k, some n) else (k, v) }
  return n

/-- The node that an alias stands for. -/
def aliased (name : String) (line : Nat) : Parsing Node := do
  match ((← get).anchors.find? fun a => a.1 = name).map (·.2) with
  | none => throw (.use s!"unknown anchor '{name}' referenced")
  | some none => return .cycle name line
  | some (some n) => return n

/-- The tag that a handle and a suffix stand for. -/
def resolveTag (start : Mark) (t : Placed) (handle suffix : String) : Parsing String := do
  if handle = "" then return suffix
  else
    let tag := (((← get).handles.lookup handle).map (· ++ suffix)).getD ""
    if tag = "" then fails start t "found undefined tag handle" else return tag

/-- Takes the anchor and the tag in front of a node, in either order. -/
def properties : Parsing (String × String) := do
  let start ← peek
  let anchorOf : Parsing String := do
    match (← peek).token with
    | .anchor name =>
      skip
      return name
    | _ => return ""
  let tagOf : Parsing String := do
    let t ← peek
    match t.token with
    | .tag handle suffix =>
      skip
      resolveTag start.mark t handle suffix
    | _ => return ""
  let anchor ← anchorOf
  let tag ← tagOf
  if anchor = "" then return (← anchorOf, tag) else return (anchor, tag)

/-! ## Nodes -/

mutual

/-- Parses a node.  In a block, block collections may stand; in a mapping, a
sequence need not be indented. -/
def node (isBlock indentless : Bool) : Nat → Parsing Node
  | 0 => throw (.use "the document is nested too deeply")
  | fuel + 1 => do
    let start ← peek
    let line := start.mark.line + 1
    match start.token with
    | .alias_ name =>
      skip
      aliased name line
    | _ =>
      let (anchor, tag) ← properties
      let t ← peek
      beginAnchor anchor
      let tag' := if tag = "!" then "" else shortTag tag
      match t.token with
      | .scalar text style =>
        skip
        endAnchor anchor (.scalar tag' text style line)
      | .flowSequenceStart =>
        skip
        endAnchor anchor (.sequence tag' (← flowItems t.mark true fuel) line)
      | .flowMappingStart =>
        skip
        endAnchor anchor (.mapping tag' (← flowPairs t.mark true fuel) line)
      | .blockEntry =>
        if indentless then endAnchor anchor (.sequence tag' (← plainItems fuel) line)
        else content isBlock start t anchor tag tag' fuel
      | _ => content isBlock start t anchor tag tag' fuel

/-- Parses what only stands in a block, or nothing behind an anchor or a tag. -/
def content (isBlock : Bool) (start t : Placed) (anchor tag tag' : String) : Nat → Parsing Node
  | 0 => throw (.use "the document is nested too deeply")
  | fuel + 1 => do
    let line := start.mark.line + 1
    match isBlock, t.token with
    | true, .blockSequenceStart =>
      skip
      endAnchor anchor (.sequence tag' (← blockItems t.mark fuel) line)
    | true, .blockMappingStart =>
      skip
      endAnchor anchor (.mapping tag' (← blockPairs t.mark fuel) line)
    | _, _ =>
      if anchor ≠ "" || tag ≠ "" then endAnchor anchor (.scalar tag' "" .plain line)
      else fails start.mark t "did not find expected node content"

/-- Parses the items of a block sequence. -/
def blockItems (start : Mark) : Nat → Parsing (List Node)
  | 0 => throw (.use "the document is nested too deeply")
  | fuel + 1 => do
    let t ← peek
    match t.token with
    | .blockEntry =>
      skip
      let item ← match (← peek).token with
        | .blockEntry | .blockEnd => pure (empty t.mark.line)
        | _ => node true false fuel
      return item :: (← blockItems start fuel)
    | .blockEnd =>
      skip
      return []
    | _ => fails start t "did not find expected '-' indicator"

/-- Parses the items of a sequence that is not indented. -/
def plainItems : Nat → Parsing (List Node)
  | 0 => throw (.use "the document is nested too deeply")
  | fuel + 1 => do
    let t ← peek
    match t.token with
    | .blockEntry =>
      skip
      let item ← match (← peek).token with
        | .blockEntry | .key | .value | .blockEnd => pure (empty t.mark.line)
        | _ => node true false fuel
      return item :: (← plainItems fuel)
    | _ => return []

/-- Parses the pairs of a block mapping. -/
def blockPairs (start : Mark) : Nat → Parsing (List (Node × Node))
  | 0 => throw (.use "the document is nested too deeply")
  | fuel + 1 => do
    let t ← peek
    match t.token with
    | .key =>
      skip
      let k ← match (← peek).token with
        | .key | .value | .blockEnd => pure (empty t.mark.line)
        | _ => node true true fuel
      let v ← blockValue fuel
      return (k, v) :: (← blockPairs start fuel)
    | .blockEnd =>
      skip
      return []
    | _ => fails start t "did not find expected key"

/-- Parses a value of a block mapping. -/
def blockValue : Nat → Parsing Node
  | 0 => throw (.use "the document is nested too deeply")
  | fuel + 1 => do
    let t ← peek
    match t.token with
    | .value =>
      skip
      match (← peek).token with
      | .key | .value | .blockEnd => return empty t.mark.line
      | _ => node true true fuel
    | _ => return empty t.mark.line

/-- Parses the items of a flow sequence. -/
def flowItems (start : Mark) (first : Bool) : Nat → Parsing (List Node)
  | 0 => throw (.use "the document is nested too deeply")
  | fuel + 1 => do
    let t ← peek
    match t.token with
    | .flowSequenceEnd =>
      skip
      return []
    | _ =>
      if !first then
        if t.token = .flowEntry then skip
        else fails start t "did not find expected ',' or ']'"
      let t ← peek
      match t.token with
      | .flowSequenceEnd =>
        skip
        return []
      | .key =>
        skip
        let pair ← flowPair fuel
        return .mapping "" [pair] (t.mark.line + 1) :: (← flowItems start false fuel)
      | _ =>
        let item ← node false false fuel
        return item :: (← flowItems start false fuel)

/-- Parses a pair that stands for itself in a flow sequence. -/
def flowPair : Nat → Parsing (Node × Node)
  | 0 => throw (.use "the document is nested too deeply")
  | fuel + 1 => do
    let t ← peek
    let k ← match t.token with
      | .value | .flowEntry | .flowSequenceEnd =>
        skip
        pure (empty t.mark.line)
      | _ => node false false fuel
    let t ← peek
    match t.token with
    | .value =>
      skip
      match (← peek).token with
      | .flowEntry | .flowSequenceEnd => return (k, empty t.mark.line)
      | _ => return (k, ← node false false fuel)
    | _ => return (k, empty t.mark.line)

/-- Parses the pairs of a flow mapping. -/
def flowPairs (start : Mark) (first : Bool) : Nat → Parsing (List (Node × Node))
  | 0 => throw (.use "the document is nested too deeply")
  | fuel + 1 => do
    let t ← peek
    match t.token with
    | .flowMappingEnd =>
      skip
      return []
    | _ =>
      if !first then
        if t.token = .flowEntry then skip
        else fails start t "did not find expected ',' or '\x7d'"
      let t ← peek
      match t.token with
      | .flowMappingEnd =>
        skip
        return []
      | .key =>
        skip
        let k ← match (← peek).token with
          | .value | .flowEntry | .flowMappingEnd => pure (empty t.mark.line)
          | _ => node false false fuel
        let v ← flowValue fuel
        return (k, v) :: (← flowPairs start false fuel)
      | _ =>
        let k ← node false false fuel
        return (k, empty (← peek).mark.line) :: (← flowPairs start false fuel)

/-- Parses a value of a flow mapping. -/
def flowValue : Nat → Parsing Node
  | 0 => throw (.use "the document is nested too deeply")
  | fuel + 1 => do
    let t ← peek
    match t.token with
    | .value =>
      skip
      match (← peek).token with
      | .flowEntry | .flowMappingEnd => return empty t.mark.line
      | _ => node false false fuel
    | _ => return empty t.mark.line

end

/-! ## Documents -/

/-- Takes the directives of a document. -/
def directives : Nat → (version : Bool) → Parsing Unit
  | 0, _ => return ()
  | fuel + 1, version => do
    let t ← peek
    match t.token with
    | .versionDirective major minor =>
      if version then throw (.parse 0 t.mark.line "found duplicate %YAML directive")
      if major ≠ 1 || minor ≠ 1 then throw (.parse 0 t.mark.line "found incompatible YAML document")
      skip
      directives fuel true
    | .tagDirective handle stem =>
      modify fun p => { p with handles := (handle, stem) :: p.handles }
      skip
      directives fuel version
    | _ => return ()

/-- Parses the first document; nothing when there is none. -/
def document : Parsing (Option Node) := do
  let fuel := 4 * (← get).tokens.length + 8
  let t ← peek
  match t.token with
  | .streamEnd => return none
  | .versionDirective .. | .tagDirective .. | .documentStart =>
    directives fuel false
    let t ← peek
    if t.token ≠ .documentStart then
      throw (.parse 0 t.mark.line "did not find expected <document start>")
    skip
    let t ← peek
    match t.token with
    | .versionDirective .. | .tagDirective .. | .documentStart | .documentEnd | .streamEnd =>
      return some (empty t.mark.line)
    | _ =>
      let n ← node true false fuel
      let _ ← peek
      return some n
  | _ =>
    let n ← node true false fuel
    let _ ← peek
    return some n

end Parsing

/-- The first document of a text; nothing when there is none. -/
def parse (text : String) : Except Trouble (Option Node) :=
  let (tokens, trouble) := tokenize text
  (Parsing.document.run' { tokens, trouble })

end Cleartext.Yaml
