import Cleartext.Reader

/-!
# Stack maps

The frames of a stack map with their absolute offsets.  The encoding stores
the distance to the previous frame less one, in the frame's first byte when
it is below 64 and the frame was not written in its long form.
-/

namespace Cleartext.StackMap

/-- The type of a stack slot or local variable. -/
inductive VerificationType
  | plain (tag : UInt8)
  | object (index : UInt16)
  | uninitialized (offset : UInt16)
deriving DecidableEq, Repr

/-- What a frame says about locals and stack.  `extended` marks a frame that
is written in its long form whatever the distance. -/
inductive FrameKind
  | same (extended : Bool)
  | sameLocals1 (extended : Bool) (stack : List VerificationType)
  | chop (count : Int)
  | append (locals : List VerificationType)
  | full (locals stack : List VerificationType)
  /-- A kind that the format does not define; it has no bytes. -/
  | undefined
deriving DecidableEq, Repr

/-- A frame at a code offset. -/
structure Frame where
  kind : FrameKind
  offset : Int
deriving DecidableEq, Repr

/-! ## Reading -/

/-- Reads a verification type. -/
def VerificationType.read : Reader VerificationType := do
  let tag ← Reader.u8
  if tag = 7 then return .object (← Reader.u16)
  else if tag = 8 then return .uninitialized (← Reader.u16)
  else if 8 < tag then throw (.malformed (.badVerificationTag tag))
  else return .plain tag

/-- Reads a distance and what follows it. -/
def readLong (kind : Reader FrameKind) : Reader (FrameKind × Nat) := do
  let delta ← Reader.u16
  return (← kind, delta.toNat)

/-- Reads a frame and its distance.  The failure of a reserved frame is told
apart, because it is told without the name of the table. -/
def readFrame : Reader (Except Error (FrameKind × Nat)) := do
  let kind ← Reader.u8
  let types (n : Nat) := VerificationType.read.times n
  if kind ≤ 63 then return .ok (.same false, kind.toNat)
  else if kind ≤ 127 then return .ok (.sameLocals1 false (← types 1), kind.toNat - 64)
  else if kind = 247 then .ok <$> readLong (return .sameLocals1 true (← types 1))
  else if 248 ≤ kind && kind ≤ 250 then .ok <$> readLong (return .chop (251 - kind.toNat))
  else if kind = 251 then .ok <$> readLong (return .same true)
  else if 252 ≤ kind && kind ≤ 254 then
    .ok <$> readLong (return .append (← types (kind.toNat - 251)))
  else if kind = 255 then
    .ok <$> readLong (do
      let locals ← types (← Reader.u16).toNat
      let stack ← types (← Reader.u16).toNat
      return .full locals stack)
  else return .error (.malformed (.reservedFrame kind))

/-- Reads `n` frames; the one before them stands at `previous`. -/
def readFrames (previous : Int) : Nat → Reader (Except Error (List Frame))
  | 0 => return .ok []
  | n + 1 => do
    match ← readFrame with
    | .error e => return .error e
    | .ok (kind, delta) =>
      let offset := previous + 1 + delta
      match ← readFrames offset n with
      | .error e => return .error e
      | .ok rest => return .ok (⟨kind, offset⟩ :: rest)

/-- Reads a stack map. -/
def parse (info : Bytes) : Except Error (List Frame) :=
  let read : Reader (Except Error (List Frame)) := do readFrames (-1) (← Reader.u16).toNat
  match read.runOn info with
  | .error e => .error (.within .stackMap e)
  | .ok (.error e, _) => .error e
  | .ok (.ok frames, c) =>
    if c.rest.isEmpty then .ok frames
    else .error (.malformed (.trailingInStackMap c.rest.length))

/-! ## Writing -/

/-- The bytes of a verification type. -/
def VerificationType.encode : VerificationType → Bytes
  | .plain tag => [tag]
  | .object i => 7 :: Bytes.ofU16 i
  | .uninitialized o => 8 :: Bytes.ofU16 o

/-- The bytes of a frame that stands `delta` behind the offset after the
previous one. -/
def FrameKind.encode (delta : Nat) : FrameKind → Except Error Bytes
  | .same extended =>
    if !extended && delta ≤ 63 then .ok [delta.toUInt8]
    else .ok (251 :: Bytes.ofU16 delta.toUInt16)
  | .sameLocals1 extended stack =>
    match stack with
    | [t] =>
      if !extended && delta ≤ 63 then .ok ((64 + delta).toUInt8 :: t.encode)
      else .ok (247 :: Bytes.ofU16 delta.toUInt16 ++ t.encode)
    | _ => .error (.operandRange (.frameStack stack.length))
  | .chop count =>
    if count < 1 || 3 < count then .error (.operandRange (.frameChop count))
    else .ok ((251 - count.toNat).toUInt8 :: Bytes.ofU16 delta.toUInt16)
  | .append locals =>
    if locals.length < 1 || 3 < locals.length then
      .error (.operandRange (.frameLocals locals.length))
    else
      .ok ((251 + locals.length).toUInt8 :: Bytes.ofU16 delta.toUInt16 ++
        locals.flatMap VerificationType.encode)
  | .full locals stack =>
    .ok (255 :: Bytes.ofU16 delta.toUInt16 ++
      Bytes.ofU16 locals.length.toUInt16 ++ locals.flatMap VerificationType.encode ++
      Bytes.ofU16 stack.length.toUInt16 ++ stack.flatMap VerificationType.encode)
  | .undefined => .ok []

/-- The bytes of frames that follow a frame at `previous`. -/
def encodeFrom (previous : Int) : List Frame → Except Error Bytes
  | [] => .ok []
  | f :: rest =>
    let delta := f.offset - previous - 1
    if delta < 0 || 0xffff < delta then
      .error (.operandRange (.frameOrder f.offset previous))
    else do
      let first ← f.kind.encode delta.toNat
      return first ++ (← encodeFrom f.offset rest)

/-- The bytes of a stack map; the offsets of its frames must increase. -/
def encode (frames : List Frame) : Except Error Bytes := do
  return Bytes.ofU16 frames.length.toUInt16 ++ (← encodeFrom (-1) frames)

/-! ## Relocation -/

/-- A partial map of code offsets. -/
abbrev OffsetMap := Int → Except Error Int

/-- A verification type with its code offset mapped. -/
def VerificationType.relocate (map : OffsetMap) : VerificationType → Except Error VerificationType
  | .uninitialized o => do return .uninitialized (UInt16.ofInt (← map o.toNat))
  | t => .ok t

/-- A frame with its offsets mapped. -/
def Frame.relocate (map : OffsetMap) (f : Frame) : Except Error Frame := do
  let offset ← map f.offset
  let types (ts : List VerificationType) := ts.mapM (·.relocate map)
  let kind ← match f.kind with
    | .same extended => pure (.same extended)
    | .sameLocals1 extended stack => do pure (.sameLocals1 extended (← types stack))
    | .chop count => pure (.chop count)
    | .append locals => do pure (.append (← types locals))
    | .full locals stack => do
      let locals ← types locals
      pure (.full locals (← types stack))
    | .undefined => pure .undefined
  return { kind, offset }

/-- A stack map with every offset mapped. -/
def relocate (map : OffsetMap) (info : Bytes) : Except Error Bytes := do
  let frames ← parse info
  encode (← frames.mapM (·.relocate map))

end Cleartext.StackMap
