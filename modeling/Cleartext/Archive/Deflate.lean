import Cleartext.Bytes
import Cleartext.Error

/-!
# Compressed data

Reading a deflate stream: blocks of plain bytes, or of symbols in a prefix
code that stand for a byte or for a copy of earlier output.  `store` writes a
stream of plain blocks.

A stream that is damaged still has an output up to the damage; the flaw says
how many bytes of input were taken by then.
-/

namespace Cleartext.Archive

/-! ## Bits -/

/-- The state of reading a stream. -/
structure Inflater where
  rest : Bytes
  /-- Bits taken from the input and not yet used, the first one lowest. -/
  hold : Nat := 0
  /-- The number of these bits. -/
  held : Nat := 0
  /-- The number of bytes taken. -/
  taken : Nat := 0
  output : Array UInt8 := #[]

/-- A computation on a stream. -/
abbrev Inflating := ExceptT ArchiveFlaw (StateM Inflater)

namespace Inflating

/-- The stream is damaged. -/
def corrupt {α : Type} : Inflating α := do throw (.corrupt (← get).taken)

/-- Takes a byte of the input. -/
def takeByte : Inflating UInt8 := do
  match (← get).rest with
  | [] => throw .truncated
  | b :: rest =>
    modify fun s => { s with rest, taken := s.taken + 1 }
    return b

/-- Makes sure that at least `n` bits are held.  Every byte gives eight, so
`n` is enough fuel. -/
def need (n : Nat) : Inflating Unit := go n
where
  go : Nat → Inflating Unit
    | 0 => return
    | fuel + 1 => do
      if (← get).held < n then
        let b ← takeByte
        modify fun s => { s with hold := s.hold + b.toNat <<< s.held, held := s.held + 8 }
        go fuel

/-- Drops `n` of the held bits. -/
def dropBits (n : Nat) : Inflating Unit :=
  modify fun s => { s with hold := s.hold >>> n, held := s.held - n }

/-- Takes a number of `n` bits, the lowest first. -/
def takeBits (n : Nat) : Inflating Nat := do
  need n
  let v := (← get).hold % Nat.pow 2 n
  dropBits n
  return v

end Inflating

/-! ## Prefix codes -/

/-- A prefix code: for every length the number of its codes, the symbols in
the order of their codes, and the least number of bits to look at. -/
structure PrefixCode where
  counts : Array Nat
  symbols : Array Nat
  least : Nat

namespace PrefixCode

/-- The greatest length of a code. -/
def maxLength : Nat := 15

/-- The code in which every symbol has the given length; zero stands for a
symbol without a code.  Nothing when the lengths leave codes unused, unless
there is one code only, or none. -/
def ofLengths? (lengths : List Nat) : Option PrefixCode :=
  let used := lengths.filter (· ≠ 0)
  let counts := (Array.range (maxLength + 1)).map fun n => used.count n
  let least := used.foldl (fun m n => if m = 0 then n else min m n) 0
  let longest := used.foldl max 0
  let code := (List.range longest).foldl (fun code i => code * 2 + counts.getD (i + 1) 0) 0
  if longest ≠ 0 && code ≠ Nat.pow 2 longest && !(code = 1 && longest = 1) then none
  else
    let symbols := (List.range (maxLength + 1)).flatMap fun n =>
      if n = 0 then [] else (lengths.zipIdx.filter fun p => p.1 = n).map (·.2)
    some { counts, symbols := symbols.toArray, least }

/-- Looks for a code among the lengths from `length` on.  `code` are the bits
so far, `first` is the first code of this length, and `index` the place of its
symbol. -/
def find (c : PrefixCode) (hold : Nat) : (fuel length code first index : Nat) → Option (Nat × Nat)
  | 0, _, _, _, _ => none
  | fuel + 1, length, code, first, index =>
    let code := code * 2 + (hold >>> (length - 1)) % 2
    let count := c.counts.getD length 0
    if code < first + count then some (c.symbols.getD (index + (code - first)) 0, length)
    else c.find hold fuel (length + 1) code ((first + count) * 2) (index + count)

/-- The symbol whose code the held bits start with, and the length of the
code.  Bits that are not there count as zero. -/
def lookup (c : PrefixCode) (hold : Nat) : Option (Nat × Nat) := c.find hold maxLength 1 0 0 0

end PrefixCode

/-- Takes a symbol, given the number of bits to look at.  Every time the code
is longer than what is held, so the greatest length is enough fuel. -/
def takeSymbolAux (c : PrefixCode) : (fuel bits : Nat) → Inflating Nat
  | 0, _ => Inflating.corrupt
  | fuel + 1, bits => do
    Inflating.need bits
    let s ← get
    match c.lookup s.hold with
    | none => Inflating.corrupt
    | some (symbol, length) =>
      if length ≤ s.held then
        Inflating.dropBits length
        return symbol
      else takeSymbolAux c fuel length

/-- Takes a symbol. -/
def takeSymbol (c : PrefixCode) : Inflating Nat :=
  takeSymbolAux c (PrefixCode.maxLength + 1) c.least

/-! ## Blocks -/

/-- Copies `n` bytes of the output that stand `distance` before its end. -/
def copyBack (distance : Nat) : Nat → Array UInt8 → Array UInt8
  | 0, out => out
  | n + 1, out => copyBack distance n (out.push (out.getD (out.size - distance) 0))

/-- The least length that a symbol stands for and the number of bits that are
added to it. -/
def lengthOf? (symbol : Nat) : Option (Nat × Nat) :=
  if symbol < 265 then some (symbol - 254, 0)
  else if symbol < 285 then
    let bits := (symbol - 261) / 4
    some ((4 + (symbol - 265) % 4) <<< bits + 3, bits)
  else if symbol = 285 then some (258, 0)
  else none

/-- The distance that a symbol stands for, with its added bits. -/
def takeDistance (symbol : Nat) : Inflating Nat := do
  if symbol < 4 then return symbol + 1
  else if symbol < 30 then
    let bits := (symbol - 2) / 2
    return Nat.pow 2 (bits + 1) + 1 + (symbol % 2) * Nat.pow 2 bits + (← Inflating.takeBits bits)
  else Inflating.corrupt

/-- Five bits as a number, the first one highest. -/
def reversed5 (n : Nat) : Nat :=
  (List.range 5).foldl (fun acc i => acc * 2 + (n >>> i) % 2) 0

/-- Takes symbols up to the end of a block.  Without a code of their own the
distances have five bits each. -/
def takeSymbols (literals : PrefixCode) (distances : Option PrefixCode) : Nat → Inflating Unit
  | 0 => Inflating.corrupt
  | fuel + 1 => do
    let symbol ← takeSymbol literals
    if symbol = 256 then return
    if symbol < 256 then
      modify fun s => { s with output := s.output.push symbol.toUInt8 }
    else
      match lengthOf? symbol with
      | none => Inflating.corrupt
      | some (least, bits) =>
        let length := least + (← Inflating.takeBits bits)
        let symbol ← match distances with
          | some c => takeSymbol c
          | none => reversed5 <$> Inflating.takeBits 5
        let distance ← takeDistance symbol
        if (← get).output.size < distance then Inflating.corrupt
        modify fun s => { s with output := copyBack distance length s.output }
    takeSymbols literals distances fuel

/-- The fixed code of literals and lengths. -/
def fixedCode : PrefixCode :=
  (PrefixCode.ofLengths? (List.replicate 144 8 ++ List.replicate 112 9 ++ List.replicate 24 7 ++
    List.replicate 8 8)).getD ⟨#[], #[], 0⟩

/-- The order in which the lengths of the code for lengths are given. -/
def lengthOrder : List Nat := [16, 17, 18, 0, 8, 7, 9, 6, 10, 5, 11, 4, 12, 3, 13, 2, 14, 1, 15]

/-- Takes the lengths of the code for lengths. -/
def takeLengthLengths : List Nat → Nat → Inflating (List (Nat × Nat))
  | position :: rest, n + 1 => do
    let v ← Inflating.takeBits 3
    return (position, v) :: (← takeLengthLengths rest n)
  | _, _ => return []

/-- Takes `total` code lengths, some of which are given as repetitions. -/
def takeLengths (c : PrefixCode) (total : Nat) : Nat → Array Nat → Inflating (Array Nat)
  | 0, found => return found
  | fuel + 1, found => do
    if total ≤ found.size then return found
    let symbol ← takeSymbol c
    if symbol < 16 then takeLengths c total fuel (found.push symbol)
    else
      if symbol = 16 && found.isEmpty then Inflating.corrupt
      let (least, bits, value) := match symbol with
        | 16 => (3, 2, found.back?.getD 0)
        | 17 => (3, 3, 0)
        | _ => (11, 7, 0)
      let times := least + (← Inflating.takeBits bits)
      if total < found.size + times then Inflating.corrupt
      takeLengths c total fuel (found ++ Array.replicate times value)

/-- The code with the given lengths; a damaged stream when there is none. -/
def codeOf (lengths : List Nat) : Inflating PrefixCode :=
  match PrefixCode.ofLengths? lengths with
  | some c => return c
  | none => Inflating.corrupt

/-- Takes the codes of a block that brings its own. -/
def takeCodes : Inflating (PrefixCode × PrefixCode) := do
  Inflating.need 14
  let literals := (← get).hold % 32 + 257
  if 286 < literals then Inflating.corrupt
  let distances := ((← get).hold >>> 5) % 32 + 1
  if 30 < distances then Inflating.corrupt
  let lengths := ((← get).hold >>> 10) % 16 + 4
  Inflating.dropBits 14
  let given ← takeLengthLengths lengthOrder lengths
  let code ← codeOf ((List.range 19).map fun i => (given.lookup i).getD 0)
  let total := literals + distances
  let found := (← takeLengths code total (total + 1) #[]).toList
  let literalCode ← codeOf (found.take literals)
  let distanceCode ← codeOf (found.drop literals)
  -- No symbol can end before the end of the block can.
  let ending := found.getD 256 0
  return ({ literalCode with least := max literalCode.least ending }, distanceCode)

/-- Takes a block of plain bytes. -/
def takePlain : Inflating Unit := do
  modify fun s => { s with hold := 0, held := 0 }
  let a ← Inflating.takeByte
  let b ← Inflating.takeByte
  let c ← Inflating.takeByte
  let d ← Inflating.takeByte
  if a ^^^ c ≠ 0xff || b ^^^ d ≠ 0xff then Inflating.corrupt
  let n := a.toNat + b.toNat * 256
  let s ← get
  let bytes := s.rest.take n
  set { s with
    rest := s.rest.drop n, taken := s.taken + bytes.length, output := s.output ++ bytes.toArray }
  if bytes.length < n then throw .truncated

/-- Takes the blocks of a stream.  Every block and every symbol takes a bit,
so `fuel`, the number of bits, is enough for both. -/
def takeBlocks (fuel : Nat) : Nat → Inflating Unit
  | 0 => Inflating.corrupt
  | blocks + 1 => do
    let head ← Inflating.takeBits 3
    match head / 2 with
    | 0 => takePlain
    | 1 => takeSymbols fixedCode none fuel
    | 2 => do
      let (literals, distances) ← takeCodes
      takeSymbols literals (some distances) fuel
    | _ => Inflating.corrupt
    unless head % 2 = 1 do takeBlocks fuel blocks

/-- The output of a stream, and its flaw if it is damaged. -/
def inflate (bytes : Bytes) : Option ArchiveFlaw × Bytes :=
  let fuel := 8 * bytes.length + 1
  let (answer, s) := (takeBlocks fuel fuel).run.run { rest := bytes }
  match answer with
  | .ok _ => (none, s.output.toList)
  | .error flaw => (some flaw, s.output.toList)

/-! ## Writing -/

/-- The head of a block of `n` plain bytes. -/
def plainHead (last : Bool) (n : UInt16) : Bytes :=
  [if last then 1 else 0, n.toUInt8, (n >>> 8).toUInt8, (~~~n).toUInt8, (~~~n >>> 8).toUInt8]

/-- The blocks of some bytes; none is longer than its head can tell. -/
def storeBlocks : Nat → Bytes → Bytes
  | 0, _ => []
  | fuel + 1, bytes =>
    let block := bytes.take 65535
    let rest := bytes.drop 65535
    plainHead rest.isEmpty block.length.toUInt16 ++ block ++
      if rest.isEmpty then [] else storeBlocks fuel rest

/-- A stream with the given output. -/
def store (bytes : Bytes) : Bytes := storeBlocks (bytes.length + 1) bytes

end Cleartext.Archive
