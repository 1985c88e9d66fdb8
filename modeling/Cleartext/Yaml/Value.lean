import Cleartext.Decimal.Numeral
import Cleartext.Decimal.Shortest
import Cleartext.Text.Quoted
import Cleartext.Yaml.Node

/-!
# Values of a document

What scalars stand for, and documents as data.  A plain scalar is nothing, a
truth value, a number, a time or a text, whichever its form tells; quoted
scalars are texts.
-/

namespace Cleartext.Yaml

/-- Data of a document. -/
inductive Value
  | null
  | bool (b : Bool)
  | int (n : Int)
  /-- A number by its 64 bits. -/
  | float (bits : Nat)
  | text (s : String)
  /-- A moment by its text. -/
  | moment (s : String)
  | list (items : List Value)
  | map (pairs : List (String × Value))
  /-- Code units of a string that were never written. -/
  | units (codes : List Nat)
deriving Inhabited

/-! ## Moments -/

/-- Takes between one and `most` digits. -/
def takeDigits (most : Nat) (text : List Char) : Option (Nat × List Char) :=
  let digits := (text.take most).takeWhile Char.isDigit
  if digits.isEmpty then none
  else some (digits.foldl (fun n d => n * 10 + (d.toNat - 48)) 0, text.drop digits.length)

/-- Takes a given character. -/
def takeChar (c : Char) : List Char → Option (List Char)
  | x :: rest => if x = c then some rest else none
  | [] => none

/-- The number of days of a month. -/
def daysIn (year month : Nat) : Nat :=
  if month = 2 then
    if year % 4 = 0 && (year % 100 ≠ 0 || year % 400 = 0) then 29 else 28
  else if month ∈ [4, 6, 9, 11] then 30 else 31

/-- Takes a date: a year of four digits, a month and a day. -/
def takeDate (text : List Char) : Option (String × List Char) := do
  if !((text.take 4).all Char.isDigit && 4 < text.length) then none
  let (year, rest) ← takeDigits 4 text
  let (month, rest) ← takeDigits 2 (← takeChar '-' rest)
  let (day, rest) ← takeDigits 2 (← takeChar '-' rest)
  if month = 0 || 12 < month || day = 0 || daysIn year month < day then none
  let two (n : Nat) := Text.padLeft 2 '0' (Text.inBase 10 n)
  return (Text.padLeft 4 '0' (Text.inBase 10 year) ++ s!"-{two month}-{two day}", rest)

/-- Takes a time of a day, with an optional fraction of a second. -/
def takeTime (text : List Char) : Option (String × List Char) := do
  let (hour, rest) ← takeDigits 2 text
  let (minute, rest) ← takeDigits 2 (← takeChar ':' rest)
  let (second, rest) ← takeDigits 2 (← takeChar ':' rest)
  if 23 < hour || 59 < minute || 59 < second then none
  let two (n : Nat) := Text.padLeft 2 '0' (Text.inBase 10 n)
  let clock := s!"{two hour}:{two minute}:{two second}"
  match rest with
  | '.' :: more | ',' :: more =>
    let digits := more.takeWhile Char.isDigit
    if digits.isEmpty then return (clock, rest)
    else
      let kept := ((digits.take 9).reverse.dropWhile (· = '0')).reverse
      return (clock ++ (if kept.isEmpty then "" else "." ++ String.ofList kept), more.drop digits.length)
  | _ => return (clock, rest)

/-- Reads a zone: `Z`, or the distance from universal time. -/
def readZone : List Char → Option String
  | ['Z'] => some "+0000 UTC"
  | [sign, a, b, ':', c, d] => do
    if !(sign = '+' || sign = '-') || !([a, b, c, d].all Char.isDigit) then none
    if "24:00" < String.ofList [a, b, ':', c, d] || '6' ≤ c then none
    let offset := String.ofList [sign, a, b, c, d]
    return if [a, b, c, d] = ['0', '0', '0', '0'] then "+0000 UTC" else s!"{offset} {offset}"
  | _ => none

/-- Reads a moment, in the form that it is shown in. -/
def readMoment (text : String) : Option String := do
  let (date, rest) ← takeDate text.toList
  match rest with
  | [] => return date ++ " 00:00:00 +0000 UTC"
  | 'T' :: rest | 't' :: rest =>
    let (time, rest) ← takeTime rest
    return s!"{date} {time} {← readZone rest}"
  | ' ' :: rest =>
    let (time, rest) ← takeTime rest
    if rest.isEmpty then return s!"{date} {time} +0000 UTC" else none
  | _ => none

/-! ## Plain scalars -/

/-- Words with a meaning of their own. -/
def wordValue? (text : String) : Option Value :=
  if text ∈ ["true", "True", "TRUE"] then some (.bool true)
  else if text ∈ ["false", "False", "FALSE"] then some (.bool false)
  else if text ∈ ["", "~", "null", "Null", "NULL"] then some .null
  else if text ∈ [".nan", ".NaN", ".NAN"] then some (.float Decimal.double.nan)
  else if text ∈ [".inf", ".Inf", ".INF", "+.inf", "+.Inf", "+.INF"] then
    some (.float Decimal.double.infinity)
  else if text ∈ ["-.inf", "-.Inf", "-.INF"] then
    some (.float (Decimal.double.infinity + Decimal.double.sign))
  else none

/-- Whether a text has the form of a decimal number. -/
def isDecimalForm (text : List Char) : Bool :=
  match Decimal.readMantissa Char.isDigit (Decimal.splitSign text).2 with
  | none => false
  | some (_, _, []) => true
  | some (_, _, c :: rest) => (c = 'e' || c = 'E') && (Decimal.readExponent rest).isSome

/-- The number behind a mark of its base, if it has one. -/
def markedNumber? (text : String) : Option Int :=
  let marked (mark : String) (base : Nat) : Option Int :=
    if text.startsWith mark then Decimal.readInt64In base (text.drop mark.length).toString
    else if text.startsWith ("-" ++ mark) then
      Decimal.readInt64In base ("-" ++ (text.drop (mark.length + 1)).toString)
    else none
  (marked "0b" 2).orElse fun _ => marked "0o" 8

/-- The number that a plain scalar stands for; underscores do not count. -/
def numberValue? (text : String) : Option Value :=
  let plain := String.ofList (text.toList.filter (· ≠ '_'))
  match Decimal.readInt64 plain with
  | .ok n => some (.int n)
  | .error _ =>
    match Decimal.readUInt64 plain with
    | .ok n => some (.int n)
    | .error _ =>
      let float := if isDecimalForm plain.toList then
          (Decimal.readFloat Decimal.double plain).toOption.map Value.float
        else none
      float.orElse fun _ => (markedNumber? plain).map Value.int

/-- What a plain scalar stands for. -/
def plainValue (text : String) : Value :=
  match text.toList.head? with
  | none => .null
  | some c =>
    if c.isDigit || c = '+' || c = '-' then
      (wordValue? text).getD <| match readMoment text with
        | some m => .moment m
        | none => (numberValue? text).getD (.text text)
    else if c = '.' then
      (wordValue? text).getD <| match Decimal.readFloat Decimal.double text with
        | .ok bits => .float bits
        | .error _ => .text text
    else if c ∈ "yYnNtTfFoO~".toList then (wordValue? text).getD (.text text)
    else .text text

/-- The short tag of a value. -/
def Value.tag : Value → String
  | .null => "!!null"
  | .bool _ => "!!bool"
  | .int _ => "!!int"
  | .float _ => "!!float"
  | .text _ => "!!str"
  | .moment _ => "!!timestamp"
  | .list _ | .units _ => "!!seq"
  | .map _ => "!!map"

/-! ## Scalars with tags -/

/-- The letters of the base 64 alphabet by their values. -/
def base64Value? (c : Char) : Option Nat :=
  if 'A' ≤ c && c ≤ 'Z' then some (c.toNat - 65)
  else if 'a' ≤ c && c ≤ 'z' then some (c.toNat - 71)
  else if c.isDigit then some (c.toNat + 4)
  else if c = '+' then some 62
  else if c = '/' then some 63
  else none

/-- Decodes groups of four letters; breaks do not count. -/
def decodeBase64 : List Char → Option Bytes
  | [] => some []
  | [a, b, '=', '='] => do
    let v := (← base64Value? a) * 64 + (← base64Value? b)
    return [(v / 16).toUInt8]
  | [a, b, c, '='] => do
    let v := ((← base64Value? a) * 64 + (← base64Value? b)) * 64 + (← base64Value? c)
    return [(v / 1024).toUInt8, (v / 4).toUInt8]
  | a :: b :: c :: d :: rest => do
    let v := (((← base64Value? a) * 64 + (← base64Value? b)) * 64 + (← base64Value? c)) * 64 +
      (← base64Value? d)
    return (v / 65536).toUInt8 :: (v / 256).toUInt8 :: v.toUInt8 :: (← decodeBase64 rest)
  | _ => none

/-- The value of a scalar. -/
def scalarValue (tag text : String) (style : ScalarStyle) : Except Trouble Value :=
  let found := plainValue text
  let mismatch : Except Trouble Value :=
    .error (.use s!"cannot decode {found.tag} `{text}` as a {tag}")
  if tag = "!!str" || (tag = "" && style ≠ .plain) then .ok (.text text)
  else if tag = "" then .ok found
  else if tag = "!!binary" then
    match decodeBase64 (text.toList.filter fun c => c ≠ '\n' && c ≠ '\r') with
    | some bytes => .ok (.text (Text.lossy bytes))
    | none => .error (.use "!!binary value contains invalid base64 data")
  else if tag ∈ ["!!bool", "!!int", "!!float", "!!null", "!!timestamp"] then
    if found.tag = tag then .ok found
    else match found with
      | .int n =>
        if tag = "!!float" then
          match Decimal.readFloat Decimal.double (toString n) with
          | .ok bits => .ok (.float bits)
          | .error _ => mismatch
        else mismatch
      | _ => mismatch
  else .ok (.text text)

/-! ## Nodes as data -/

/-- Whether a node is the key that merges another mapping. -/
def Node.isMerge : Node → Bool
  | .scalar tag text style _ => text = "<<" && (tag = "!!merge" || (tag = "" && style = .plain))
  | _ => false

/-- What keys are compared by: the kind, and the text of a scalar. -/
def Node.keyForm : Node → Nat × String
  | .scalar _ text _ _ => (0, text)
  | .sequence .. => (1, "")
  | .mapping .. => (2, "")
  | .cycle name _ => (3, name)

/-- The keys that stand twice, as complaints. -/
def duplicates : List (Node × Node) → List String
  | [] => []
  | (k, _) :: rest =>
    (rest.filterMap fun (other, _) =>
      if other.keyForm = k.keyForm then
        let name := Text.quote other.keyForm.2
        some s!"line {other.line}: mapping key {name} already defined at line {k.line}"
      else none) ++ duplicates rest

/-- Complaints about a document. -/
def complaining (complaints : List String) : Trouble :=
  .use ("unmarshal errors:\n" ++ "\n".intercalate (complaints.map ("  " ++ ·)))

/-- The complaint that a node does not fit its use. -/
def unfit (line : Nat) (what use : String) : Trouble :=
  complaining [s!"line {line}: cannot unmarshal {what} into {use}"]

/-- The text of a key. -/
def Node.keyText? : Node → Except Trouble (Option String)
  | .scalar tag text style _ => do
    match ← scalarValue tag text style with
    | .null => return none
    | .text s => return some s
    | _ => return some text
  | .cycle name _ => throw (.use s!"anchor '{name}' value contains itself")
  | .sequence _ _ line => throw (unfit line "!!seq" "string")
  | .mapping _ _ line => throw (unfit line "!!map" "string")

/-- Puts a pair into a map; a key that is there keeps its value. -/
def addPair (pairs : List (String × Value)) (pair : String × Value) : List (String × Value) :=
  if pairs.any (·.1 = pair.1) then pairs else pairs ++ [pair]

/-- The pairs that a value brings into a mapping. -/
def mergedPairs : Value → Except Trouble (List (String × Value))
  | .map pairs => return pairs
  | .list items => do
    let pairs ← items.mapM fun
      | .map pairs => pure pairs
      | _ => throw (.use "map merge requires map or sequence of maps as the value")
    return pairs.flatten
  | _ => throw (.use "map merge requires map or sequence of maps as the value")

mutual

/-- A node as data. -/
def Node.value : Node → Except Trouble Value
  | .scalar tag text style _ => scalarValue tag text style
  | .sequence _ items _ => return .list (← Node.values items)
  | .mapping _ pairs _ =>
    match duplicates pairs with
    | [] => do
      let (own, merged) ← Node.pairValues pairs
      return .map (merged.foldl addPair own)
    | complaints => throw (complaining complaints)
  | .cycle name _ => throw (.use s!"anchor '{name}' value contains itself")

/-- Nodes as data. -/
def Node.values : List Node → Except Trouble (List Value)
  | [] => return []
  | n :: rest => do
    let v ← n.value
    return v :: (← Node.values rest)

/-- The pairs of a mapping as data, and those that are merged into it. -/
def Node.pairValues :
    List (Node × Node) → Except Trouble (List (String × Value) × List (String × Value))
  | [] => return ([], [])
  | (k, v) :: rest => do
    let value ← v.value
    let (own, merged) ← Node.pairValues rest
    if k.isMerge then return (own, (← mergedPairs value) ++ merged)
    else match ← k.keyText? with
      | none => return (own, merged)
      | some key => return (if own.any (·.1 = key) then own else (key, value) :: own, merged)

end

end Cleartext.Yaml
