import Cleartext.Text.Json

/-!
# Results of a run

What became of every call site, and the counts over all of them.
-/

namespace Cleartext.Run

open Text (Json)

/-- What became of a call site. -/
inductive Outcome
  | decrypted (value : String)
  | failed (reason : String)
deriving DecidableEq, Repr

/-- Whether a string was decrypted. -/
def Outcome.isDecrypted : Outcome → Bool
  | .decrypted _ => true
  | .failed _ => false

/-- A call site with what became of it. -/
structure CallResult where
  cls : String
  method : String
  offset : Nat
  routine : String
  literal : String
  outcome : Outcome
deriving DecidableEq, Repr

/-- The result as data. -/
def CallResult.json (r : CallResult) : Json :=
  .object <|
    [("class", .text r.cls), ("method", .text r.method), ("offset", .number r.offset),
      ("routine", .text r.routine), ("literal", .text r.literal)] ++
    match r.outcome with
    | .decrypted value => Json.optional "value" value
    | .failed reason => Json.optional "error" reason

/-- A result of a class that is left as it was: nothing of it counts as
decrypted. -/
def CallResult.withdrawn (cause : String) (r : CallResult) : CallResult :=
  match r.outcome with
  | .decrypted _ => { r with outcome := .failed ("class left unchanged: " ++ cause) }
  | .failed _ => r

/-- The counts of a run, and all results in the order of the classes. -/
structure Stats where
  entries : Nat := 0
  classes : Nat := 0
  patched : Nat := 0
  decrypted : Nat := 0
  failed : Nat := 0
  results : List CallResult := []
deriving DecidableEq, Repr

namespace Stats

/-- Counts a result. -/
def add (s : Stats) (r : CallResult) : Stats :=
  let s := { s with results := s.results ++ [r] }
  if r.outcome.isDecrypted then { s with decrypted := s.decrypted + 1 }
  else { s with failed := s.failed + 1 }

/-- Counts results. -/
def addAll (s : Stats) (rs : List CallResult) : Stats := rs.foldl add s

/-- The counts as data. -/
def json (s : Stats) : Json :=
  .object <|
    [("entries", .number s.entries), ("classes", .number s.classes), ("patched", .number s.patched),
      ("decrypted", .number s.decrypted), ("failed", .number s.failed)] ++
    if s.results.isEmpty then [] else [("results", .list (s.results.map CallResult.json))]

end Stats

end Cleartext.Run
