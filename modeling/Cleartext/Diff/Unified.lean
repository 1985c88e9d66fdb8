import Cleartext.Diff.Alignment

/-!
# Unified differences

The difference of two texts in the form that tools exchange: hunks of lines
that go, come and stay.  The texts are aligned character by character, and the
edits are widened to whole lines.
-/

namespace Cleartext.Diff

/-- Characters of a text from one position to another are replaced. -/
structure Edit where
  start : Nat
  stop : Nat
  replacement : List Char

/-- The part of a text between two positions. -/
def slice (text : Array Char) (start stop : Nat) : List Char := (text.extract start stop).toList

/-- The edits between the diagonals of an alignment, from given positions
on. -/
def editsFrom (first second : Array Char) : Nat → Nat → List Diagonal → List Edit
  | x, y, [] =>
    if x < first.size || y < second.size then [⟨x, first.size, slice second y second.size⟩] else []
  | x, y, d :: rest =>
    let edits := editsFrom first second d.xEnd.toNat d.yEnd.toNat rest
    if x < d.x.toNat || y < d.y.toNat then ⟨x, d.x.toNat, slice second y d.y.toNat⟩ :: edits else edits

/-- The edits that make one text of another. -/
def edits (first second : Array Char) : List Edit :=
  if first = second then [] else editsFrom first second 0 0 (align first second)

/-! ## Whole lines -/

/-- Whether a position is the start of a line or of the text. -/
def isLineStart (text : Array Char) (position : Nat) : Bool :=
  position = 0 || text[position - 1]? == some '\n'

/-- The start of the line that a position is in. -/
def lineStart (text : Array Char) : Nat → Nat
  | 0 => 0
  | position + 1 => if text[position]? == some '\n' then position + 1 else lineStart text position

/-- The position behind the line that a position is in. -/
def lineStop (text : Array Char) (position : Nat) : Nat :=
  position + (match (slice text position text.size).findIdx? (· == '\n') with
    | some n => n + 1
    | none => text.size - position)

/-- Whether a replacement is empty or ends a line. -/
def endsLine (replacement : List Char) : Bool :=
  replacement.isEmpty || replacement.getLast? == some '\n'

/-- Whether an edit is about whole lines. -/
def Edit.isWhole (text : Array Char) (e : Edit) : Bool :=
  e.start < text.size && isLineStart text e.start && isLineStart text e.stop && endsLine e.replacement

/-- An edit widened to whole lines. -/
def Edit.widened (text : Array Char) (e : Edit) : Edit :=
  let start := lineStart text e.start
  let replacement := slice text start e.start ++ e.replacement
  let stop :=
    if isLineStart text e.stop && endsLine replacement then e.stop else lineStop text e.stop
  ⟨start, stop, replacement ++ slice text e.stop stop⟩

/-- Joins edits that touch one line, and widens them. -/
def widenAll (text : Array Char) : Edit → List Edit → List Edit
  | e, [] => [e.widened text]
  | e, next :: rest =>
    let between := slice text e.stop next.start
    if between.contains '\n' then e.widened text :: widenAll text next rest
    else widenAll text ⟨e.start, next.stop, e.replacement ++ between ++ next.replacement⟩ rest

/-- Edits of whole lines. -/
def lineEdits (text : Array Char) (es : List Edit) : List Edit :=
  if es.all (·.isWhole text) then es
  else match es with
    | [] => []
    | e :: rest => widenAll text e rest

/-- The lines of a text, each with its end. -/
def splitLines (text : List Char) : List (List Char) :=
  (text.foldr (fun c lines =>
    match c == '\n', lines with
    | true, lines => [c] :: lines
    | false, [] => [[c]]
    | false, line :: rest =>
      (c :: line) :: rest) [])

/-! ## Hunks -/

/-- What becomes of a line. -/
inductive LineFate
  | stays
  | goes
  | comes
deriving DecidableEq, Repr

/-- A line of a hunk. -/
structure HunkLine where
  fate : LineFate
  content : List Char

/-- A stretch of lines around edits: where it starts in both texts. -/
structure Hunk where
  oldStart : Int
  newStart : Int
  lines : List HunkLine

/-- The lines that stay around an edit. -/
def context : Nat := 3

/-- The lines of a text between two numbers, as far as there are any. -/
def keptLines (lines : Array (List Char)) (start stop : Int) : List HunkLine :=
  (lines.extract start.toNat stop.toNat).toList.map fun l => ⟨.stays, l⟩

/-- An edit by the numbers of the lines it replaces. -/
structure LineEdit where
  start : Nat
  stop : Nat
  added : List (List Char)

/-- An edit of whole lines by line numbers. -/
def LineEdit.of (text : Array Char) (e : Edit) : LineEdit :=
  let before (n : Nat) := (slice text 0 n).count '\n'
  let isOpen := e.stop = text.size && !isLineStart text text.size
  { start := before e.start, stop := before e.stop + (if isOpen then 1 else 0)
    added := splitLines e.replacement }

/-- Gathers edits into hunks.  `open_` is the hunk that is not finished yet,
`last` the line behind the last edit, and `next` the number of lines of the
new text that are counted. -/
def gather (lines : Array (List Char)) :
    Option Hunk → (last next : Nat) → List LineEdit → List Hunk
  | open_, last, _, [] =>
    (open_.map fun h => { h with lines := h.lines ++ keptLines lines last (last + context) }).toList
  | open_, last, next, e :: rest =>
    let changed := (lines.extract e.start e.stop).toList.map (fun l => HunkLine.mk .goes l) ++
      e.added.map fun l => HunkLine.mk .comes l
    let near := if e.start ≤ last + 2 * context then open_ else none
    match near with
    | some h =>
      let h := { h with lines := h.lines ++ keptLines lines last e.start ++ changed }
      gather lines (some h) e.stop (next + e.added.length) rest
    | none =>
      let next := next + (e.start - last)
      let lead := keptLines lines ((e.start : Int) - context) e.start
      let h : Hunk :=
        ⟨(e.start : Int) + 1 - lead.length, (next : Int) + 1 - lead.length, lead ++ changed⟩
      (open_.map fun h => { h with lines := h.lines ++ keptLines lines last (last + context) }).toList ++
        gather lines (some h) e.stop (next + e.added.length) rest

/-- The place and the length of one side of a hunk. -/
def rangeText (start : Int) (count : Nat) : String :=
  if 1 < count then s!"{start},{count}"
  else if start = 1 && count = 0 then "0,0"
  else toString start

/-- A line of a hunk behind its sign. -/
def HunkLine.text (l : HunkLine) : String :=
  let sign := match l.fate with
    | .stays => " "
    | .goes => "-"
    | .comes => "+"
  sign ++ String.ofList l.content ++
    if l.content.getLast? == some '\n' then "" else "\n\\ No newline at end of file\n"

/-- A hunk as text. -/
def Hunk.text (h : Hunk) : String :=
  let old := h.lines.countP fun l => l.fate ≠ .comes
  let new := h.lines.countP fun l => l.fate ≠ .goes
  "@@ -" ++ rangeText h.oldStart old ++ " +" ++ rangeText h.newStart new ++ " @@\n" ++
    String.join (h.lines.map HunkLine.text)

/-- The difference of two texts with names; nothing when they are the same. -/
def unified (oldName newName old new : String) : String :=
  let text := old.toList.toArray
  let es := lineEdits text (edits text new.toList.toArray)
  let hunks := gather (splitLines old.toList).toArray none 0 0 (es.map (LineEdit.of text))
  if hunks.isEmpty then ""
  else s!"--- {oldName}\n+++ {newName}\n" ++ String.join (hunks.map Hunk.text)

end Cleartext.Diff
