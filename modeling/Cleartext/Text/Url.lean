import Cleartext.Text.Hexadecimal
import Cleartext.Text.Quoted

/-!
# Locations

Parsing a URL into its parts and writing the parts back.  A path that was not
written in the usual way keeps its spelling, so that a valid location is
written as it was read.
-/

namespace Cleartext.Text

/-- The part of a location that a text is escaped for. -/
inductive UrlPart
  | path
  | userPassword
  | host
  | zone
  | fragment
deriving DecidableEq

/-- Whether a byte must be escaped in a part of a location. -/
def mustEscape (part : UrlPart) (b : UInt8) : Bool :=
  let c := Char.ofNat b.toNat
  if c.isAlphanum then false
  else if (part = .host || part = .zone) && c ∈ "!$&'()*+,;=:[]<>\"".toList then false
  else if c ∈ "-_.~".toList then false
  else if c ∈ "$&+,/:;=?@".toList then
    match part with
    | .path => c = '?'
    | .userPassword => c ∈ "@/?:".toList
    | .fragment => false
    | _ => true
  else if part = .fragment && c ∈ "!()*".toList then false
  else true

/-- Bytes as text in which what must be is escaped. -/
def escapeUrl (part : UrlPart) (bytes : Bytes) : Bytes :=
  bytes.flatMap fun b =>
    if mustEscape part b then
      let digit (d : UInt8) : UInt8 := if d < 10 then 48 + d else 55 + d
      [37, digit (b / 16), digit (b % 16)]
    else [b]

/-- The bytes that an escaped text stands for. -/
def unescapeUrl (part : UrlPart) : Bytes → Option Bytes
  | [] => some []
  | 37 :: a :: b :: rest =>
    match hexDigit? (Char.ofNat a.toNat), hexDigit? (Char.ofNat b.toNat) with
    | some x, some y =>
      let v := x * 16 + y
      let percent := a = 50 && b = 53
      if part = .host && x < 8 && !percent then none
      else if part = .zone && !percent && v ≠ 32 && mustEscape .host v then none
      else (unescapeUrl part rest).map (v :: ·)
    | _, _ => none
  | b :: rest =>
    if b = 37 then none
    else if (part = .host || part = .zone) && b < 0x80 && mustEscape part b then none
    else (unescapeUrl part rest).map (b :: ·)

/-- Whether a text can stand for itself in a path or fragment. -/
def isEscaped (part : UrlPart) (bytes : Bytes) : Bool :=
  bytes.all fun b => Char.ofNat b.toNat ∈ "!$&'()*+,;=:@[]%".toList || !mustEscape part b

/-- A text of a location: its meaning, and its spelling when that is not the
usual one. -/
structure Spelled where
  meaning : Bytes
  spelling : Option Bytes

/-- Reads a text of a location. -/
def Spelled.parse? (part : UrlPart) (bytes : Bytes) : Option Spelled :=
  (unescapeUrl part bytes).map fun meaning =>
    ⟨meaning, if escapeUrl part meaning = bytes then none else some bytes⟩

/-- Writes a text of a location. -/
def Spelled.write (part : UrlPart) (t : Spelled) : Bytes :=
  match t.spelling with
  | some spelling =>
    if isEscaped part spelling && unescapeUrl part spelling = some t.meaning then spelling
    else escapeUrl part t.meaning
  | none => if part = .path && t.meaning = [42] then t.meaning else escapeUrl part t.meaning

/-- A location by its parts. -/
structure Url where
  scheme : Bytes := []
  rootless : Bytes := []
  user : Option (Bytes × Option Bytes) := none
  host : Bytes := []
  path : Spelled := ⟨[], none⟩
  omitHost : Bool := false
  forceQuery : Bool := false
  query : Bytes := []
  fragment : Spelled := ⟨[], none⟩

/-- Splits bytes at the first occurrence of a byte, which belongs to neither
part. -/
def cutAt (b : UInt8) (bytes : Bytes) : Bytes × Option Bytes :=
  match bytes.span (· ≠ b) with
  | (head, _ :: tail) => (head, some tail)
  | (head, []) => (head, none)

/-- Splits off the scheme; `none` when the scheme is missing before its colon. -/
def splitScheme (bytes : Bytes) : Option (Bytes × Bytes) :=
  let isSchemeByte (b : UInt8) : Bool :=
    let c := Char.ofNat b.toNat
    c.isAlphanum || c ∈ "+-.".toList
  match bytes.span isSchemeByte with
  | ([], 58 :: _) => none
  | (head, 58 :: rest) =>
    if (head.head?.map fun b => (Char.ofNat b.toNat).isAlpha) = some true then some (head, rest)
    else some ([], bytes)
  | _ => some ([], bytes)

/-- Whether a text is a colon and a port, or nothing. -/
def isOptionalPort : Bytes → Bool
  | [] => true
  | b :: rest => b = 58 && rest.all fun d => 48 ≤ d && d ≤ 57

/-- The bytes before and from the last occurrence of a byte on. -/
def splitLast (b : UInt8) (bytes : Bytes) : Option (Bytes × Bytes) :=
  match bytes.reverse.span (· ≠ b) with
  | (tail, _ :: head) => some (head.reverse, b :: tail.reverse)
  | (_, []) => none

/-- The bytes before a zone, and from it on. -/
def splitZone (bytes : Bytes) : Option (Bytes × Bytes) :=
  match bytes with
  | [] => none
  | b :: rest =>
    if (b :: rest).take 3 = [37, 50, 53] then some ([], b :: rest)
    else (splitZone rest).map fun (head, tail) => (b :: head, tail)

/-- Reads the host of a location. -/
def parseHost? (host : Bytes) : Option Bytes :=
  if host.head? = some 91 then
    match splitLast 93 host with
    | none => none
    | some (address, rest) =>
      if !isOptionalPort (rest.drop 1) then none
      else match splitZone address with
        | none => unescapeUrl .host host
        | some (before, zone) => do
          return (← unescapeUrl .host before) ++ (← unescapeUrl .zone zone) ++
            (← unescapeUrl .host rest)
  else match splitLast 58 host with
    | some (_, port) => if isOptionalPort port then unescapeUrl .host host else none
    | none => unescapeUrl .host host

/-- Whether a text can stand in front of the at sign. -/
def isUserInfo (bytes : Bytes) : Bool :=
  bytes.all fun b =>
    let c := Char.ofNat b.toNat
    c.isAlphanum || c ∈ "-._:~!$&'()*+,;=%@".toList

/-- Reads the user and the host of a location. -/
def parseAuthority? (authority : Bytes) : Option (Option (Bytes × Option Bytes) × Bytes) :=
  match splitLast 64 authority with
  | none => (parseHost? authority).map fun host => (none, host)
  | some (info, rest) => do
    let host ← parseHost? (rest.drop 1)
    if !isUserInfo info then none
    else
      let (name, password) := cutAt 58 info
      let name ← unescapeUrl .userPassword name
      match password with
      | none => return (some (name, none), host)
      | some p => return (some (name, some (← unescapeUrl .userPassword p)), host)

/-- Reads a location without its fragment. -/
def Url.parseMain? (bytes : Bytes) : Option Url := do
  if bytes.any fun b => b < 32 || b = 127 then none
  else if bytes = [42] then return { path := ⟨[42], none⟩ }
  else
    let (scheme, rest) ← splitScheme bytes
    let scheme := scheme.map fun b => (Char.ofNat b.toNat).toLower.val.toUInt8
    let forceQuery := rest.getLast? = some 63 && rest.count 63 = 1
    let (rest, query) := cutAt 63 rest
    let u : Url := { scheme, forceQuery, query := query.getD [] }
    let rooted := rest.head? = some 47
    if !rooted && scheme ≠ [] then return { u with rootless := rest }
    else if !rooted && (cutAt 47 rest).1.contains 58 then none
    else
      let slashes := (rest.takeWhile (· = 47)).length
      if 2 ≤ slashes && (scheme ≠ [] || slashes = 2) then
        let (authority, path) := (rest.drop 2).span (· ≠ 47)
        let (user, host) ← parseAuthority? authority
        return { u with user, host, path := ← Spelled.parse? .path path }
      else
        return { u with omitHost := scheme ≠ [] && rooted, path := ← Spelled.parse? .path rest }

/-- Reads a location. -/
def Url.parse? (text : String) : Option Url := do
  let (main, fragment) := cutAt 35 (Bytes.ofText text)
  let u ← Url.parseMain? main
  match fragment with
  | none | some [] => return u
  | some f => return { u with fragment := ← Spelled.parse? .fragment f }

namespace Url

/-- The path of a location, escaped. -/
def escapedPath (u : Url) : Bytes := u.path.write .path

/-- The query with its mark; empty when there is none. -/
def queryPart (u : Url) : Bytes :=
  if u.forceQuery || u.query ≠ [] then 63 :: u.query else []

/-- The user and the host with their marks. -/
def authorityPart (u : Url) : Bytes :=
  if u.scheme = [] && u.host = [] && u.user.isNone then []
  else if u.omitHost && u.host = [] && u.user.isNone then []
  else
    (if u.host ≠ [] || u.path.meaning ≠ [] || u.user.isSome then [47, 47] else []) ++
      (match u.user with
        | none => []
        | some (name, password) => escapeUrl .userPassword name ++
          ((password.map fun p => 58 :: escapeUrl .userPassword p).getD []) ++ [64]) ++
      escapeUrl .host u.host

/-- The whole location. -/
def text (u : Url) : String :=
  let scheme := if u.scheme = [] then [] else u.scheme ++ [58]
  let main :=
    if u.rootless ≠ [] then u.rootless
    else
      let authority := u.authorityPart
      let path := u.escapedPath
      let slash := if path ≠ [] && path.head? ≠ some 47 && u.host ≠ [] then [47] else []
      let head := authority ++ slash
      let dot := if scheme ++ head = [] && (cutAt 47 path).1.contains 58 then [46, 47] else []
      head ++ dot ++ path
  let fragment := if u.fragment.meaning = [] then [] else 35 :: u.fragment.write .fragment
  lossy (scheme ++ main ++ u.queryPart ++ fragment)

/-- The scheme of a location. -/
def schemeText (u : Url) : String := lossy u.scheme

/-- The path of a location. -/
def pathText (u : Url) : String := lossy u.escapedPath

/-- The path of a location with its query. -/
def fileText (u : Url) : String :=
  let main :=
    if u.rootless = [] then
      let path := u.escapedPath
      if path = [] then [47] else path
    else if u.rootless.take 2 = [47, 47] then u.scheme ++ 58 :: u.rootless
    else u.rootless
  lossy (main ++ u.queryPart)

end Url

end Cleartext.Text
