import Cleartext.Bytes
import Cleartext.Text.Quoted

/-!
# Archive entries

A member of an archive with what an archive says about it, and the two ways in
which archives keep permissions and times.
-/

namespace Cleartext.Archive

/-! ## Permissions -/

/-- The kind and the permissions of a file: nine permission bits at the low
end, the kinds at the high end. -/
structure FileMode where
  bits : UInt32
deriving DecidableEq, Repr, Inhabited

namespace FileMode

/-- The mark of a directory. -/
def directory : UInt32 := 0x80000000

/-- Whether a mode is that of a directory. -/
def isDirectory (m : FileMode) : Bool := m.bits &&& directory ≠ 0

/-- The letters of the kinds, from the highest bit on. -/
def kindLetters : List Char := "dalTLDpSugct?".toList

/-- A mode in letters. -/
def text (m : FileMode) : String :=
  let has (i : Nat) : Bool := m.bits.toNat.testBit i
  let kinds := kindLetters.zipIdx.filterMap fun (c, i) => if has (31 - i) then some c else none
  let permissions := "rwxrwxrwx".toList.zipIdx.map fun (c, i) => if has (8 - i) then c else '-'
  String.ofList ((if kinds.isEmpty then ['-'] else kinds) ++ permissions)

/-- The kinds of files: the bits of the mode and the number that stands for
the kind in an archive. -/
def kinds : List (UInt32 × UInt32) :=
  [(directory, 0x4000), (0x08000000, 0xa000), (0x02000000, 0x1000), (0x01000000, 0xc000),
    (0x04000000, 0x6000), (0x04200000, 0x2000)]

/-- The bits that tell the kind of a file. -/
def kindMask : UInt32 := 0x8f280000

/-- The marks beside the permissions: the bit of the mode and the one that an
archive has for it. -/
def marks : List (UInt32 × UInt32) := [(0x00800000, 0x800), (0x00400000, 0x400), (0x00100000, 0x200)]

/-- The number that an archive has for a mode. -/
def toUnix (m : FileMode) : UInt32 :=
  let kind := (kinds.lookup (m.bits &&& kindMask)).getD 0x8000
  marks.foldl (fun v (bit, mark) => if m.bits &&& bit ≠ 0 then v ||| mark else v) kind |||
    (m.bits &&& 0x1ff)

/-- The mode that a number in an archive stands for. -/
def ofUnix (v : UInt32) : FileMode :=
  let kind := ((kinds.find? fun k => k.2 = v &&& 0xf000).map (·.1)).getD 0
  ⟨marks.foldl (fun b (bit, mark) => if v &&& mark ≠ 0 then b ||| bit else b) kind |||
    (v &&& 0x1ff)⟩

/-- The mode that the attributes of a plain disk stand for. -/
def ofAttributes (v : UInt32) : FileMode :=
  let bits : UInt32 := if v &&& 0x10 ≠ 0 then directory ||| 0x1ff else 0x1b6
  ⟨if v &&& 1 ≠ 0 then bits &&& ~~~(0x92 : UInt32) else bits⟩

end FileMode

/-! ## Times -/

/-- The number of days from 1970 on to a day of a month; months and days may
lie outside their usual ranges. -/
def dayNumber (year month day : Int) : Int :=
  let months := year * 12 + (month - 1)
  let year := months / 12
  let month := months % 12
  -- Years count from March, so that the leap day is the last.
  let y := if month < 2 then year - 1 else year
  let m := (month + 10) % 12
  y * 365 + y / 4 - y / 100 + y / 400 + (m * 153 + 2) / 5 + (day - 1) - 719468

/-- The seconds from 1970 on that a date and a time of a disk stand for. -/
def secondsOfDisk (date time : UInt16) : Int :=
  let d := date.toNat
  let t := time.toNat
  let day := dayNumber (d / 512 + 1980) ((d / 32) % 16 : Nat) (d % 32 : Nat)
  day * 86400 + ((t / 2048) * 3600 + ((t / 32) % 64) * 60 + (t % 32) * 2 : Nat)

/-- The year, the month and the day with a given number. -/
def dateOfDay (number : Int) : Int × Int × Int :=
  let z := number + 719468
  let era := z / 146097
  let doe := z % 146097
  let yoe := (doe - doe / 1460 + doe / 36524 - doe / 146096) / 365
  let doy := doe - (365 * yoe + yoe / 4 - yoe / 100)
  let mp := (5 * doy + 2) / 153
  let month := if mp < 10 then mp + 3 else mp - 9
  (yoe + era * 400 + (if month ≤ 2 then 1 else 0), month, doy - (153 * mp + 2) / 5 + 1)

/-- The date and the time of a disk for seconds from 1970 on. -/
def diskOfSeconds (seconds : Int) : UInt16 × UInt16 :=
  let (year, month, day) := dateOfDay (seconds / 86400)
  let rest := seconds % 86400
  (UInt16.ofInt (day + month * 32 + (year - 1980) * 512),
    UInt16.ofInt (rest % 60 / 2 + rest / 60 % 60 * 32 + rest / 3600 * 2048))

/-! ## Entries -/

/-- A member of an archive.  `modified` counts seconds from 1970 on; without
it the date and the time of the disk stand. -/
structure Entry where
  name : String
  data : Bytes
  method : UInt16 := 8
  comment : String := ""
  extra : Bytes := []
  mode : FileMode := ⟨0x1b6⟩
  modified : Option Int := none
  date : UInt16 := 0
  time : UInt16 := 0
deriving Inhabited

/-- The method of entries that are not compressed. -/
def plainMethod : UInt16 := 0

/-- The method of entries that are compressed. -/
def deflateMethod : UInt16 := 8

/-- Whether an entry is a directory. -/
def Entry.isDirectory (e : Entry) : Bool := e.mode.isDirectory

/-- The two-byte number at the start of some bytes, lowest byte first. -/
def littleWord (a b : UInt8) : Nat := a.toNat + b.toNat * 256

/-- The extra fields: their tags and contents.  What is cut short at the end
is none. -/
def extraFields : Nat → Bytes → List (Nat × Bytes)
  | fuel + 1, a :: b :: c :: d :: rest =>
    let size := littleWord c d
    if rest.length < size then []
    else (littleWord a b, rest.take size) :: extraFields fuel (rest.drop size)
  | _, _ => []

/-- The tag of the extra field with the time of modification. -/
def timeTag : Nat := 0x5455

/-- A two-byte number, lowest byte first. -/
def littleBytes (n : Nat) : Bytes := [n.toUInt8, (n / 256).toUInt8]

/-- A four-byte number, lowest byte first. -/
def littleBytes4 (n : Nat) : Bytes := littleBytes n ++ littleBytes (n / 65536)

/-- The bytes of an extra field. -/
def fieldBytes (tag : Nat) (content : Bytes) : Bytes :=
  littleBytes tag ++ littleBytes content.length ++ content

/-- The extra fields without the times, which are written anew. -/
def withoutTimes (extra : Bytes) : Bytes :=
  ((extraFields extra.length extra).filter fun f => f.1 ≠ timeTag).flatMap fun f =>
    fieldBytes f.1 f.2

end Cleartext.Archive
