import Cleartext.Archive.Checksum
import Cleartext.Archive.Deflate
import Cleartext.Archive.Entry

/-!
# Reading archives

An archive ends with a directory of its entries.  The end record is looked for
from the end of the data on, and says where the directory starts; data in
front of the archive is passed over.
-/

namespace Cleartext.Archive

/-! ## Numbers in an archive -/

/-- The data of an archive. -/
abbrev Data := Array UInt8

/-- The number of `n` bytes at a position, lowest byte first. -/
def numberAt (data : Data) (pos n : Nat) : Nat :=
  (List.range n).foldr (fun i v => v * 256 + (data.getD (pos + i) 0).toNat) 0

/-- The number of two bytes at a position. -/
def word (data : Data) (pos : Nat) : Nat := numberAt data pos 2

/-- The number of four bytes at a position. -/
def long (data : Data) (pos : Nat) : Nat := numberAt data pos 4

/-- A number of eight bytes with a sign. -/
def signed64 (n : Nat) : Int := (UInt64.ofNat n).toInt64.toInt

/-- The bytes between two positions. -/
def slice (data : Data) (pos length : Nat) : Bytes := (data.extract pos (pos + length)).toList

/-- Makes sure that `n` bytes stand at a position. -/
def available (data : Data) (pos n : Nat) : Except ArchiveFlaw Unit :=
  if n = 0 || pos + n ≤ data.size then .ok ()
  else if data.size ≤ pos then .error .ended
  else .error .truncated

/-! ## Records -/

/-- What the directory says about an entry. -/
structure DirectoryRecord where
  name : String
  comment : String
  extra : Bytes
  creator : Nat
  flags : Nat
  method : Nat
  time : UInt16
  date : UInt16
  checksum : Nat
  compressedSize : Nat
  size : Nat
  attributes : UInt32
  /-- Where the entry starts. -/
  start : Int
  modified : Int

/-- The number of `n` bytes that some bytes start with, lowest byte first. -/
def leading (n : Nat) (bytes : Bytes) : Nat :=
  (bytes.take n).foldr (fun b v => v * 256 + b.toNat) 0

/-- The time in the attributes of a field that has several; times count tenths
of microseconds from 1601 on. -/
def attributeTime : Nat → Bytes → Option Int → Option Int
  | fuel + 1, a :: b :: c :: d :: rest, found =>
    let size := littleWord c d
    if rest.length < size then found
    else
      let found :=
        if littleWord a b = 1 && size = 24 then
          some ((signed64 (leading 8 rest)).tdiv 10000000 - 11644473600)
        else found
      attributeTime fuel (rest.drop size) found
  | _, _, found => found

/-- The time of modification in an extra field. -/
def fieldTime (tag : Nat) (content : Bytes) (found : Option Int) : Option Int :=
  if tag = 0x000a then
    if content.length < 4 then found else attributeTime content.length (content.drop 4) found
  else if tag = 0x000d || tag = 0x5855 then
    if content.length < 8 then found else some (leading 4 (content.drop 4) : Nat)
  else if tag = timeTag then
    match content with
    | flags :: rest =>
      if rest.length < 4 || flags &&& 1 = 0 then found else some (leading 4 rest : Nat)
    | [] => found
  else found

/-- The sizes and the start of an entry while their long forms are looked
for. -/
structure LongForms where
  size : Nat
  compressedSize : Nat
  start : Int
  needsSize : Bool
  needsCompressed : Bool
  needsStart : Bool

/-- The number that does not fit four bytes. -/
def overflowMark : Nat := 0xffffffff

/-- Takes the next number of eight bytes. -/
def takeLong (content : Bytes) : Except ArchiveFlaw (Nat × Bytes) :=
  if content.length < 8 then .error .format else .ok (leading 8 content, content.drop 8)

/-- Takes the long forms from an extra field. -/
def LongForms.take (f : LongForms) (content : Bytes) : Except ArchiveFlaw LongForms := do
  let (f, content) ←
    if f.needsSize then do
      let (n, rest) ← takeLong content
      pure ({ f with size := n, needsSize := false }, rest)
    else pure (f, content)
  let (f, content) ←
    if f.needsCompressed then do
      let (n, rest) ← takeLong content
      pure ({ f with compressedSize := n, needsCompressed := false }, rest)
    else pure (f, content)
  if f.needsStart then do
    let (n, _) ← takeLong content
    return { f with start := signed64 n, needsStart := false }
  else return f

/-- Reads the record at a position of the directory, and where it ends. -/
def readRecord (data : Data) (pos : Nat) : Except ArchiveFlaw (DirectoryRecord × Nat) := do
  available data pos 46
  if long data pos ≠ 0x02014b50 then throw .format
  let nameLength := word data (pos + 28)
  let extraLength := word data (pos + 30)
  let commentLength := word data (pos + 32)
  let rest := pos + 46
  available data rest (nameLength + extraLength + commentLength)
  let extra := slice data (rest + nameLength) extraLength
  let fields := extraFields extra.length extra
  let forms : LongForms :=
    { size := long data (pos + 24), compressedSize := long data (pos + 20)
      start := long data (pos + 42)
      needsSize := long data (pos + 24) = overflowMark
      needsCompressed := long data (pos + 20) = overflowMark
      needsStart := long data (pos + 42) = overflowMark }
  let forms ← fields.foldlM (fun (f : LongForms) (tag, content) =>
    if tag = 1 then f.take content else pure f) forms
  if forms.needsCompressed || forms.needsStart then throw .format
  let time := (word data (pos + 12)).toUInt16
  let date := (word data (pos + 14)).toUInt16
  let modified := (fields.foldl (fun found (tag, content) => fieldTime tag content found) none).getD
    (secondsOfDisk date time)
  return ({ name := Text.lossy (slice data rest nameLength)
            comment := Text.lossy (slice data (rest + nameLength + extraLength) commentLength)
            extra, creator := word data (pos + 4), flags := word data (pos + 8)
            method := word data (pos + 10), time, date, checksum := long data (pos + 16)
            compressedSize := forms.compressedSize, size := forms.size
            attributes := (long data (pos + 38)).toUInt32, start := forms.start, modified },
          rest + nameLength + extraLength + commentLength)

/-! ## The end record -/

/-- The length of an end record without its comment. -/
def endLength : Nat := 22

/-- The position of the last end record before `pos`; it must lie at or
behind `limit`, and its comment must fit. -/
def findEnd (data : Data) (limit : Nat) : (pos : Nat) → Option Nat
  | 0 => none
  | pos + 1 =>
    if pos < limit then none
    else if long data pos = 0x06054b50 then
      if data.size < pos + endLength + word data (pos + 20) then none else some pos
    else findEnd data limit pos

/-- The last end record among the last `span` bytes. -/
def endWithin (data : Data) (span : Nat) : Option Nat :=
  if data.size < endLength then none
  else findEnd data (data.size - span) (data.size - endLength + 1)

/-- Where the directory is: the end of it, its size, its start and the number
of its records. -/
structure DirectoryEnd where
  position : Int
  size : Nat
  start : Nat
  records : Nat

/-- The position of the long end record that a locator in front of the end
record gives. -/
def longEndPosition? (data : Data) (pos : Nat) : Option Nat :=
  if pos < 20 then none
  else
    let at_ := pos - 20
    if long data at_ = 0x07064b50 && long data (at_ + 4) = 0 && long data (at_ + 16) = 1 then
      some (numberAt data (at_ + 8) 8)
    else none

/-- The end of the directory in its long form. -/
def longEnd (data : Data) (e : DirectoryEnd) (pos : Nat) : Except ArchiveFlaw DirectoryEnd := do
  if data.size < pos + 56 then throw .ended
  if long data pos ≠ 0x06064b50 then throw .format
  return { e with
    position := signed64 pos, records := numberAt data (pos + 32) 8
    size := numberAt data (pos + 40) 8, start := numberAt data (pos + 48) 8 }

/-- Finds the end of the directory. -/
def directoryEnd (data : Data) : Except ArchiveFlaw DirectoryEnd := do
  match (endWithin data 1024).orElse fun _ => endWithin data (65 * 1024) with
  | none => throw .format
  | some pos =>
    let e : DirectoryEnd :=
      { position := pos, size := long data (pos + 12), start := long data (pos + 16)
        records := word data (pos + 10) }
    let e ←
      if e.records = 0xffff || e.size = 0xffff || e.start = overflowMark then
        match longEndPosition? data pos with
        | some p => longEnd data e p
        | none => pure e
      else pure e
    if 0x8000000000000000 ≤ e.size || 0x8000000000000000 ≤ e.start then throw .format
    return e

/-- How far all offsets are off, because of data in front of the archive. -/
def baseOffset (data : Data) (e : DirectoryEnd) : Except ArchiveFlaw Int := do
  let base := e.position - e.size - e.start
  let first := base + e.start
  if first < 0 || (data.size : Int) ≤ first then throw .format
  if 0 < base && (readRecord data e.start).toOption.isSome then return 0
  return base

/-- Reads records from a position on, up to the first that is none, and why it
is none.  Every record takes a byte, so the size of the data is enough fuel. -/
def readRecords (data : Data) : (fuel pos : Nat) → ArchiveFlaw × List DirectoryRecord
  | 0, _ => (.format, [])
  | fuel + 1, pos =>
    match readRecord data pos with
    | .error flaw => (flaw, [])
    | .ok (r, next) =>
      let (flaw, rest) := readRecords data fuel next
      (flaw, r :: rest)

/-- Whether a flaw just means that the directory is over. -/
def ArchiveFlaw.endsDirectory : ArchiveFlaw → Bool
  | .format | .truncated => true
  | _ => false

/-- The directory of an archive. -/
def directory (data : Data) : Except ArchiveFlaw (List DirectoryRecord) := do
  let e ← directoryEnd data
  let base ← baseOffset data e
  let (flaw, records) := readRecords data (data.size + 1) (base + e.start).toNat
  unless ArchiveFlaw.endsDirectory flaw do throw flaw
  if records.length % 65536 ≠ e.records % 65536 then throw flaw
  return records.map fun r => { r with start := r.start + base }

/-! ## Contents -/

/-- Where the content of an entry starts. -/
def contentStart (data : Data) (r : DirectoryRecord) : Except ArchiveFlaw Nat := do
  if r.start < 0 then throw .beforeStart
  let pos := r.start.toNat
  if data.size < pos + 30 then throw .ended
  if long data pos ≠ 0x04034b50 then throw .format
  return pos + 30 + word data (pos + 26) + word data (pos + 28)

/-- Checks the checksum that stands behind the content of an entry. -/
def checkDescriptor (data : Data) (r : DirectoryRecord) (pos : Nat) : Except ArchiveFlaw Unit := do
  if data.size < pos + 4 then throw .truncated
  let pos := if long data pos = 0x08074b50 then pos + 4 else pos
  if data.size < pos + 12 then throw .truncated
  if long data pos ≠ r.checksum then throw .checksum

/-- The content of an entry whose bytes in the archive are given. -/
def expand (data : Data) (r : DirectoryRecord) (pos : Nat) : Except ArchiveFlaw Bytes := do
  let raw := slice data pos (signed64 r.compressedSize).toNat
  let (flaw, bytes) := if r.method = deflateMethod.toNat then inflate raw else (none, raw)
  if r.size < bytes.length then throw .format
  if let some flaw := flaw then throw flaw
  if bytes.length ≠ r.size then throw .truncated
  let sum := (checksum bytes).toNat
  if r.flags.testBit 3 then
    checkDescriptor data r (pos + (signed64 r.compressedSize).toNat)
    if sum ≠ r.checksum then throw .checksum
  else if r.checksum ≠ 0 && sum ≠ r.checksum then throw .checksum
  return bytes

/-- Whether a name is that of a directory. -/
def isDirectoryName (name : String) : Bool := name.endsWith "/"

/-- A step of an activity on an entry: its flaw is told with both. -/
def during {α : Type} (activity : String) (r : DirectoryRecord) (x : Except ArchiveFlaw α) :
    Except Error α :=
  x.mapError fun flaw => .within (.named (activity ++ " " ++ r.name)) (.archive flaw)

/-- The content of an entry. -/
def content (data : Data) (r : DirectoryRecord) : Except Error Bytes := do
  let pos ← during "failed to open" r (contentStart data r)
  if isDirectoryName r.name then
    if r.size = 0 then return [] else during "failed to read" r (throw .format)
  else if r.method ≠ plainMethod.toNat && r.method ≠ deflateMethod.toNat then
    during "failed to open" r (throw .algorithm)
  else during "failed to read" r (expand data r pos)

/-- The mode of an entry. -/
def DirectoryRecord.mode (r : DirectoryRecord) : FileMode :=
  let system := r.creator / 256
  let m : FileMode :=
    if system = 3 || system = 19 then .ofUnix (r.attributes >>> 16)
    else if system = 0 || system = 11 || system = 14 then .ofAttributes r.attributes
    else ⟨0⟩
  if isDirectoryName r.name then ⟨m.bits ||| FileMode.directory⟩ else m

/-- The entry that a record stands for. -/
def readEntry (data : Data) (r : DirectoryRecord) : Except Error Entry := do
  return { name := r.name, data := ← content data r, method := r.method.toUInt16
           comment := r.comment, extra := r.extra, mode := r.mode, modified := some r.modified
           date := r.date, time := r.time }

/-- The records of an archive with its data. -/
def openArchive (bytes : Bytes) : Except Error (Data × List DirectoryRecord) := do
  let data := bytes.toArray
  match directory data with
  | .ok records => return (data, records)
  | .error flaw => throw (.archive flaw)

/-- The entries of an archive, in the order of its directory. -/
def read (bytes : Bytes) : Except Error (List Entry) := do
  let (data, records) ← openArchive bytes
  records.mapM (readEntry data)

end Cleartext.Archive
