/-!
# Alignments

Which characters of two texts belong together.  An alignment is a list of
diagonals: stretches that both texts share, in order.

The search goes from both ends at once.  A label of distance `d` on diagonal
`k` is the farthest position in the first text that `d` insertions and
deletions can come to, when the position in the second text is `k` behind it.
When the labels of the two directions meet, a shortest script is found.  After
a fixed distance the search gives up, and keeps what both directions have
found as far as it fits together.
-/

namespace Cleartext.Diff

/-- A stretch that two texts share: where it starts in each, and its length. -/
structure Diagonal where
  x : Int
  y : Int
  length : Int
deriving DecidableEq, Repr, Inhabited

/-- The position behind a diagonal in the first text. -/
def Diagonal.xEnd (d : Diagonal) : Int := d.x + d.length

/-- The position behind a diagonal in the second text. -/
def Diagonal.yEnd (d : Diagonal) : Int := d.y + d.length

/-- The labels of one distance: that of diagonal `k` stands at `(d + k) / 2`. -/
abbrev Labels := Array Int

/-- Two texts, and how much of them is compared. -/
structure Pair where
  first : Array Char
  second : Array Char
  /-- The compared length of the first text. -/
  width : Int
  /-- The compared length of the second text. -/
  height : Int

namespace Pair

/-- The diagonal of the corner behind both texts. -/
def corner (p : Pair) : Int := p.width - p.height

/-- Whether the texts have the same character at two positions. -/
def agree (p : Pair) (x y : Int) : Bool :=
  0 ≤ x && x < p.width && 0 ≤ y && y < p.height &&
    p.first[x.toNat]? == p.second[y.toNat]?

/-- Follows a diagonal forward from a position in the first text. -/
def slide (p : Pair) (k : Int) : Nat → Int → Int
  | 0, x => x
  | fuel + 1, x => if p.agree x (x - k) then p.slide k fuel (x + 1) else x

/-- Follows a diagonal backward from a position in the first text. -/
def slideBack (p : Pair) (k : Int) : Nat → Int → Int
  | 0, x => x
  | fuel + 1, x => if p.agree (x - 1) (x - 1 - k) then p.slideBack k fuel (x - 1) else x

/-- The end of a diagonal that starts at a position. -/
def forwardFrom (p : Pair) (k x : Int) : Int := p.slide k p.width.toNat x

/-- The start of a diagonal that ends at a position; diagonals are counted
from the corner. -/
def backwardFrom (p : Pair) (k x : Int) : Int := p.slideBack (k + p.corner) p.width.toNat x

end Pair

/-! ## Labels -/

/-- The diagonals of a distance. -/
def diagonals (d : Nat) : List Int := (List.range (d + 1)).map fun (i : Nat) => 2 * (i : Int) - (d : Int)

/-- Whether there is a label of a distance on a diagonal. -/
def isLabelled (d k : Int) : Bool := 0 ≤ d && -d ≤ k && k ≤ d

/-- The label of a distance on a diagonal. -/
def labelAt (labels : Array Labels) (d k : Int) : Int :=
  ((labels[d.toNat]?).bind fun row => row[((d + k) / 2).toNat]?).getD 0

/-- The labels of the next distance when going forward. -/
def nextForward (p : Pair) (labels : Array Labels) (d : Nat) : Labels :=
  ((diagonals (d + 1)).map fun k =>
    let right := p.forwardFrom k (labelAt labels d (k - 1) + 1)
    let up := p.forwardFrom k (labelAt labels d (k + 1))
    if k = -((d : Int) + 1) then up
    else if k = (d : Int) + 1 then right
    else if up < right then right else up).toArray

/-- The labels of the next distance when going backward. -/
def nextBackward (p : Pair) (labels : Array Labels) (d : Nat) : Labels :=
  ((diagonals (d + 1)).map fun k =>
    let down := p.backwardFrom k (labelAt labels d (k - 1))
    let left := p.backwardFrom k (labelAt labels d (k + 1) - 1)
    if k = -((d : Int) + 1) then left
    else if k = (d : Int) + 1 then down
    else if down < left then down else left).toArray

/-! ## Paths -/

/-- Puts a pair of characters in front of an alignment. -/
def prepend (x y : Int) : List Diagonal → List Diagonal
  | d :: rest =>
    if d.x = x + 1 && d.y = y + 1 then ⟨x, y, d.length + 1⟩ :: rest else ⟨x, y, 1⟩ :: d :: rest
  | [] => [⟨x, y, 1⟩]

/-- Puts a pair of characters behind an alignment, whose last diagonal comes
first. -/
def append (x y : Int) : List Diagonal → List Diagonal
  | d :: rest =>
    if d.xEnd = x && d.yEnd = y then { d with length := d.length + 1 } :: rest
    else ⟨x, y, 1⟩ :: d :: rest
  | [] => [⟨x, y, 1⟩]

/-- Goes back from a label to the start and gathers the diagonals on the
way. -/
def traceForward (labels : Array Labels) :
    Nat → (d k x : Int) → List Diagonal → List Diagonal
  | 0, _, _, _, found => found
  | fuel + 1, d, k, x, found =>
    if x = 0 && x - k = 0 then found
    else if isLabelled (d - 1) (k - 1) && x - 1 = labelAt labels (d - 1) (k - 1) then
      traceForward labels fuel (d - 1) (k - 1) (x - 1) found
    else if isLabelled (d - 1) (k + 1) && x = labelAt labels (d - 1) (k + 1) then
      traceForward labels fuel (d - 1) (k + 1) x found
    else traceForward labels fuel d k (x - 1) (prepend (x - 1) (x - k - 1) found)

/-- Goes from a label to the corner and gathers the diagonals on the way, the
last one first. -/
def traceBackward (p : Pair) (labels : Array Labels) :
    Nat → (d k x : Int) → List Diagonal → List Diagonal
  | 0, _, _, _, found => found
  | fuel + 1, d, k, x, found =>
    let y := x - (k + p.corner)
    if x = p.width && y = p.height then found
    else if isLabelled (d - 1) (k - 1) && x = labelAt labels (d - 1) (k - 1) then
      traceBackward p labels fuel (d - 1) (k - 1) x found
    else if isLabelled (d - 1) (k + 1) && x + 1 = labelAt labels (d - 1) (k + 1) then
      traceBackward p labels fuel (d - 1) (k + 1) (x + 1) found
    else traceBackward p labels fuel d k (x + 1) (append x y found)

/-- The alignment of the way to a forward label.  Every step lowers the
distance or the position. -/
def forwardPath (labels : Array Labels) (d k : Int) : List Diagonal :=
  let x := labelAt labels d k
  traceForward labels (d.toNat + x.toNat + 1) d k x []

/-- The alignment of the way from a backward label. -/
def backwardPath (p : Pair) (labels : Array Labels) (d k : Int) : List Diagonal :=
  let x := labelAt labels d k
  (traceBackward p labels (d.toNat + (p.width - x).toNat + 1) d k x []).reverse

/-- Alignments in the order of the first text; of two that start together the
longer one comes first. -/
def inOrder (ds : List Diagonal) : List Diagonal :=
  ds.mergeSort fun a b => if a.x ≠ b.x then a.x < b.x else b.length ≤ a.length

/-! ## One direction -/

/-- The distance after which a search gives up. -/
def limit : Nat := 50

/-- The best of the diagonals by a measure, of several the first; those
without a measure do not count. -/
def bestDiagonal (measure : Int → Option Int) : List Int → Option (Int × Int) → Option Int
  | [], best => best.map (·.1)
  | k :: rest, best =>
    match measure k with
    | none => bestDiagonal measure rest best
    | some v =>
      if best.all fun b => b.2 < v then bestDiagonal measure rest (some (k, v))
      else bestDiagonal measure rest best

/-- The diagonal of the limit on which forward labels have come farthest
within the texts. -/
def farthest (p : Pair) (labels : Array Labels) : Int :=
  (bestDiagonal (fun k =>
    let x := labelAt labels limit k
    if x ≤ p.width && x - k ≤ p.height then some (x + (x - k)) else none)
    (diagonals limit) none).getD 0

/-- Searches forward until the corner is reached. -/
def searchForward (p : Pair) : Nat → Nat → Array Labels → List Diagonal
  | 0, _, labels => forwardPath labels limit (farthest p labels)
  | fuel + 1, d, labels =>
    match (diagonals d).find? fun k =>
      labelAt labels d k = p.width && labelAt labels d k - k = p.height with
    | some k => forwardPath labels d k
    | none => searchForward p fuel (d + 1) (labels.push (nextForward p labels d))

/-- The alignment of a search from the start. -/
def forwardAlignment (p : Pair) : List Diagonal :=
  searchForward p (limit + 1) 0 #[#[p.forwardFrom 0 0]]

/-! ## Both directions -/

/-- The labels of both directions. -/
structure Search where
  forward : Array Labels
  backward : Array Labels

/-- The diagonal on which labels of both directions meet.  Among those behind
the first one, the search looks for one that makes the rest easy. -/
def meeting? (p : Pair) (s : Search) (df db : Nat) : Option Int :=
  if (df + db + p.corner) % 2 ≠ 0 then none
  else
    let ks := (diagonals df).filter fun k => isLabelled db (k - p.corner)
    let behind := ks.dropWhile fun k =>
      labelAt s.forward df k < labelAt s.backward db (k - p.corner)
    match behind with
    | [] => none
    | k :: _ =>
      let easy := behind.find? fun l =>
        let x := labelAt s.forward df l
        let u := labelAt s.backward db (l - p.corner)
        x = u || u = 0 || u - l = 0 || x - l = p.height || x = p.width
      some (easy.getD k)

/-- The alignment of two ways that meet on a diagonal. -/
def joined (p : Pair) (s : Search) (df db : Nat) (k : Int) : List Diagonal :=
  let x := labelAt s.forward df k
  let y := x - k
  let kb := k - p.corner
  let u := labelAt s.backward db kb
  let v := u - k
  let there (d k : Int) := forwardPath s.forward d k
  let back (d k : Int) := backwardPath p s.backward d k
  let reached (d k x : Int) : Bool := isLabelled d k && labelAt s.forward d k = x
  let left (d k x : Int) : Bool := isLabelled d k && labelAt s.backward d k = x
  let (df, db) : Int × Int := (df, db)
  if x = u then inOrder (there df k ++ back db kb)
  else if 0 < u && reached (df - 1) (u - 1 - v) (u - 1) then
    inOrder (there (df - 1) (u - 1 - v) ++ back db kb)
  else if 0 < v && reached (df - 1) (u - (v - 1)) u then
    inOrder (there (df - 1) (u - (v - 1)) ++ back db kb)
  else if u = 0 || v = 0 then back db kb
  else if x = p.width || y = p.height then there df k
  else if x + 1 ≤ p.width && left (db - 1) (x + 1 - y - p.corner) (x + 1) then
    inOrder (back (db - 1) (kb + 1) ++ there df k)
  else if y + 1 ≤ p.height && left (db - 1) (x - (y + 1) - p.corner) x then
    inOrder (back (db - 1) (kb - 1) ++ there df k)
  else inOrder (back db kb ++ forwardAlignment { p with width := u, height := v })

/-- Cuts a diagonal so that it does not overlap another one; none when nothing
is left or the two cannot stand in one alignment. -/
def fitted (given d : Diagonal) : Option Diagonal := do
  let d ← if d.x ≤ given.x && given.x < d.xEnd then shortened d (d.xEnd - given.x) else some d
  let d ← if given.x ≤ d.x && d.x < given.xEnd then delayed d (given.xEnd - d.x) else some d
  let d ← if d.y ≤ given.y && given.y < d.yEnd then shortened d (d.yEnd - given.y) else some d
  let d ← if given.y ≤ d.y && d.y < given.yEnd then delayed d (given.yEnd - d.y) else some d
  if (d.xEnd ≤ given.x && d.yEnd ≤ given.y) || (given.xEnd ≤ d.x && given.yEnd ≤ d.y) then some d
  else none
where
  /-- A diagonal without its last pairs. -/
  shortened (d : Diagonal) (n : Int) : Option Diagonal :=
    if d.length ≤ n then none else some { d with length := d.length - n }
  /-- A diagonal without its first pairs. -/
  delayed (d : Diagonal) (n : Int) : Option Diagonal :=
    if d.length ≤ n then none else some ⟨d.x + n, d.y + n, d.length - n⟩

/-- Takes diagonals one by one, the longest first, as far as they fit to those
taken. -/
def reconciled (ds : List Diagonal) : List Diagonal :=
  inOrder <| (ds.mergeSort fun a b => b.length ≤ a.length).foldl (fun taken d =>
    match taken.foldlM (fun d given => fitted given d) d with
    | some d => taken ++ [d]
    | none => taken) []

/-- The alignment of a search that has given up. -/
def patched (p : Pair) (s : Search) : List Diagonal :=
  let k := (bestDiagonal (fun k =>
    let x := labelAt s.backward limit k
    let y := x - (k + p.corner)
    if 0 ≤ x && 0 ≤ y then some (-(x + y)) else none)
    (diagonals limit) none).getD 0
  reconciled (forwardPath s.forward limit (farthest p s.forward) ++ backwardPath p s.backward limit k)

/-- Searches from both ends. -/
def searchBoth (p : Pair) : Nat → Nat → Search → List Diagonal
  | 0, _, s => patched p s
  | fuel + 1, d, s =>
    match meeting? p s d d with
    | some k => joined p s d d k
    | none =>
      let s := { s with forward := s.forward.push (nextForward p s.forward d) }
      match meeting? p s (d + 1) d with
      | some k => joined p s (d + 1) d k
      | none => searchBoth p fuel (d + 1) { s with backward := s.backward.push (nextBackward p s.backward d) }

/-- The alignment of two texts. -/
def align (first second : Array Char) : List Diagonal :=
  let p : Pair := ⟨first, second, first.size, second.size⟩
  searchBoth p limit 0 ⟨#[#[p.forwardFrom 0 0]], #[#[p.backwardFrom 0 p.width]]⟩

end Cleartext.Diff
