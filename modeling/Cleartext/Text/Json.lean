import Cleartext.Text.Hexadecimal

/-!
# JSON documents

Data as an indented document.  The fields of an object keep their order, and
characters that mean something in a web page are written as escapes.
-/

namespace Cleartext.Text

/-- Data of a document. -/
inductive Json
  | null
  | bool (value : Bool)
  | number (value : Int)
  | text (value : String)
  | list (items : List Json)
  | object (fields : List (String × Json))
deriving Inhabited

/-- An escape by the number of a character. -/
def jsonEscape (c : Char) : String := "\\u" ++ hexPadded 4 c.toNat

/-- A character between quotes. -/
def jsonChar (c : Char) : String :=
  match c with
  | '"' => "\\\""
  | '\\' => "\\\\"
  | '\n' => "\\n"
  | '\r' => "\\r"
  | '\t' => "\\t"
  | '\x08' => "\\b"
  | '\x0c' => "\\f"
  | '<' | '>' | '&' | '\u2028' | '\u2029' => jsonEscape c
  | c => if c.val < 0x20 then jsonEscape c else c.toString

/-- A text between quotes. -/
def jsonQuote (s : String) : String := "\"" ++ String.join (s.toList.map jsonChar) ++ "\""

namespace Json

/-- A field that is left out when it is empty. -/
def optional (name value : String) : List (String × Json) :=
  if value = "" then [] else [(name, .text value)]

/-- Members between brackets, each on its own line behind `indent`. -/
def block (start stop indent outer : String) (members : List String) : String :=
  if members.isEmpty then start ++ stop
  else start ++ "\n" ++ ",\n".intercalate (members.map (indent ++ ·)) ++ "\n" ++ outer ++ stop

mutual

/-- Data as a document whose nested lines stand behind `outer` and one more
`unit` for every level. -/
def render (unit outer : String) : Json → String
  | .null => "null"
  | .bool b => if b then "true" else "false"
  | .number n => toString n
  | .text s => jsonQuote s
  | .list items => block "[" "]" (outer ++ unit) outer (renderItems unit (outer ++ unit) items)
  | .object fields =>
    block "\x7b" "\x7d" (outer ++ unit) outer (renderFields unit (outer ++ unit) fields)

/-- Items of a list, each as a document. -/
def renderItems (unit outer : String) : List Json → List String
  | [] => []
  | item :: rest => render unit outer item :: renderItems unit outer rest

/-- Fields of an object, each with its name. -/
def renderFields (unit outer : String) : List (String × Json) → List String
  | [] => []
  | (name, value) :: rest =>
    (jsonQuote name ++ ": " ++ render unit outer value) :: renderFields unit outer rest

end

/-- Data as a document with two blanks for every level. -/
def document (j : Json) : String := render "  " "" j

end Json

end Cleartext.Text
