import Cleartext.Archive.Checksum
import Cleartext.Archive.Deflate
import Cleartext.Archive.Directory

/-!
# Writing archives

The bytes of an archive with the given entries.  Compressed entries are written
as plain blocks; the names and the comments are marked as UTF-8 when they need
it.
-/

namespace Cleartext.Archive

/-- An entry with its bytes in the archive. -/
structure Packed where
  entry : Entry
  raw : Bytes
  checksum : UInt32

/-- Whether a text has characters beyond ASCII. -/
def needsUtf8 (text : String) : Bool := text.toList.any fun c => 0x7f < c.val

namespace Packed

/-- What the headers of an entry have in common: versions, flags, method, time,
date, checksum and sizes. -/
def facts (p : Packed) : Bytes :=
  let e := p.entry
  let flags := if needsUtf8 e.name || needsUtf8 e.comment then 0x800 else 0
  littleBytes 20 ++ littleBytes flags ++ littleBytes e.method.toNat ++ littleBytes e.time.toNat ++
    littleBytes e.date.toNat ++ littleBytes4 p.checksum.toNat ++ littleBytes4 p.raw.length ++
    littleBytes4 e.data.length ++ littleBytes e.name.utf8ByteSize ++ littleBytes e.extra.length

/-- The header in front of an entry, and its content. -/
def file (p : Packed) : Bytes :=
  littleBytes4 0x04034b50 ++ p.facts ++ Bytes.ofText p.entry.name ++ p.entry.extra ++ p.raw

/-- The attributes of an entry: those of a disk and those of its mode. -/
def attributes (p : Packed) : Nat :=
  let m := p.entry.mode
  m.toUnix.toNat * 65536 + (if m.isDirectory then 16 else 0) +
    (if m.bits &&& 0x80 = 0 then 1 else 0)

/-- The record of an entry in the directory. -/
def record (p : Packed) (start : Nat) : Bytes :=
  littleBytes4 0x02014b50 ++ littleBytes (3 * 256 + 20) ++ p.facts ++
    littleBytes p.entry.comment.utf8ByteSize ++ littleBytes 0 ++ littleBytes 0 ++
    littleBytes4 p.attributes ++ littleBytes4 start ++ Bytes.ofText p.entry.name ++
    p.entry.extra ++ Bytes.ofText p.entry.comment

end Packed

/-- An entry with the field and the disk's form of its time of modification. -/
def Entry.timed (e : Entry) : Entry :=
  match e.modified with
  | none => e
  | some seconds =>
    let (date, time) := diskOfSeconds seconds
    let stamp := fieldBytes timeTag (1 :: littleBytes4 (UInt32.ofInt seconds).toNat)
    { e with date, time, extra := e.extra ++ stamp }

/-- Packs an entry.  Directories have no content and no method. -/
def pack (e : Entry) : Except Error Packed := do
  let adding (flaw : ArchiveFlaw) := Error.within (.named ("failed to add " ++ e.name)) (.archive flaw)
  let e := e.timed
  let isDirectory := isDirectoryName e.name
  let e := if isDirectory then { e with method := plainMethod } else e
  if e.method ≠ plainMethod && e.method ≠ deflateMethod then throw (adding .algorithm)
  if 65535 < e.name.utf8ByteSize then throw (adding .longName)
  if 65535 < e.extra.length then throw (adding .longExtra)
  if isDirectory && !e.data.isEmpty then
    throw (.within (.named ("failed to write " ++ e.name)) (.archive .dataInDirectory))
  let raw := if e.method = deflateMethod then store e.data else e.data
  return { entry := e, raw, checksum := checksum e.data }

/-- The contents and the directory of packed entries, the first of which
starts at a position. -/
def layOut : Nat → List Packed → List Bytes × List Bytes
  | _, [] => ([], [])
  | start, p :: rest =>
    let file := p.file
    let (files, records) := layOut (start + file.length) rest
    (file :: files, p.record start :: records)

/-- The bytes of an archive with packed entries. -/
def assemble (packed : List Packed) : Bytes :=
  let (files, records) := layOut 0 packed
  let files := files.flatten
  let records := records.flatten
  files ++ records ++ littleBytes4 0x06054b50 ++ littleBytes4 0 ++ littleBytes packed.length ++
    littleBytes packed.length ++ littleBytes4 records.length ++ littleBytes4 files.length ++
    littleBytes 0

/-- The bytes of an archive with the given entries. -/
def write (entries : List Entry) : Except Error Bytes := do return assemble (← entries.mapM pack)

/-- What an entry that cannot be packed leaves in an archive: a directory is
written before its content. -/
def remnant (e : Entry) : List Packed :=
  if isDirectoryName e.name then (pack { e with data := [] }).toOption.toList else []

/-- Packs entries up to the first one that fails, which may be missing
itself. -/
def packAll : List (Except Error Entry) → List Packed × Option Error
  | [] => ([], none)
  | .error e :: _ => ([], some e)
  | .ok e :: rest =>
    match pack e with
    | .error err => (remnant e, some (.within (.named "failed to write archive") err))
    | .ok p =>
      let (packed, failure) := packAll rest
      (p :: packed, failure)

/-- An entry of one archive as it is written to another: times are written
anew. -/
def Entry.copied (e : Entry) : Entry := { e with extra := withoutTimes e.extra }

end Cleartext.Archive
