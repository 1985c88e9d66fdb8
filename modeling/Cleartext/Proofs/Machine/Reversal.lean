import Cleartext.Proofs.Machine.Inquiries
import Cleartext.Proofs.Text.Utf16
import Mathlib.Data.List.Chain

/-!
# Reversing the content of a builder

A high surrogate and the low surrogate behind it are one code point, and every other unit is a
code point by itself.  `Units.IsCodePoints` says of a list of pieces that it is this division
of a sequence of units, `Units.codePoints` computes it, and there is no other one
(`Units.isCodePoints_iff`).

A builder is reversed in two passes: `Library.reverseUnits` turns all units around and then
exchanges the halves of every pair, which the first pass has put the wrong way round.  Between
two code points nothing is exchanged (`Library.joinPairs_append`), so the passes come to
reversing the code points, `Library.reverse_codePoints`.
-/

namespace Cleartext

/-! ## Code points -/

namespace Units

variable {u v : UInt16} {units rest : Units} {points : List Units}

/-- A code point: a unit, or a pair of surrogates. -/
inductive IsCodePoint : Units → Prop
  | single (u : UInt16) : IsCodePoint [u]
  | pair {high low : UInt16} (hhigh : isHigh high = true) (hlow : isLow low = true) :
      IsCodePoint [high, low]

/-- Two units of which the second does not complete the first. -/
def Unpaired (u v : UInt16) : Prop := ¬ (isHigh u = true ∧ isLow v = true)

/-- Pieces are the code points of a sequence of units: they make it up, each of them is a code
point, and no pair of surrogates is taken apart. -/
structure IsCodePoints (units : Units) (points : List Units) : Prop where
  joined : points.flatten = units
  whole : ∀ p ∈ points, IsCodePoint p
  unsplit : points.IsChain fun p q => ∀ u v, p = [u] → q = [v] → Unpaired u v

/-- The code points of a sequence of units. -/
def codePoints : Units → List Units
  | [] => []
  | [u] => [[u]]
  | u :: v :: rest =>
    if isHigh u && isLow v then [u, v] :: codePoints rest else [u] :: codePoints (v :: rest)

theorem isLow_of_isHigh (h : isHigh u = true) : isLow u = false := by
  rw [isHigh_iff] at h
  rw [Bool.eq_false_iff, ne_eq, isLow_iff]
  omega

theorem codePoints_pair (hhigh : isHigh u = true) (hlow : isLow v = true) (rest : Units) :
    codePoints (u :: v :: rest) = [u, v] :: codePoints rest := by
  simp [codePoints, hhigh, hlow]

theorem codePoints_single (h : ∀ v ∈ rest.head?, Unpaired u v) :
    codePoints (u :: rest) = [u] :: codePoints rest := by
  cases rest with
  | nil => rfl
  | cons v rest =>
    have hunpaired := h v rfl
    rw [codePoints, if_neg (by rwa [Bool.and_eq_true])]

/-- A unit in front of other code points is one by itself unless it makes up a pair with the
first of them. -/
theorem unpaired_head (hwhole : ∀ p ∈ points, IsCodePoint p)
    (hunsplit : ∀ q ∈ points.head?, ∀ v, q = [v] → Unpaired u v) :
    ∀ v ∈ points.flatten.head?, Unpaired u v := by
  intro v hv
  cases points with
  | nil => cases hv
  | cons q points =>
    cases hwhole q List.mem_cons_self with
    | single w =>
      obtain rfl := Option.some.inj hv
      exact hunsplit _ rfl _ rfl
    | pair hhigh hlow =>
      obtain rfl := Option.some.inj hv
      intro hpair
      exact absurd hpair.2 (by rw [isLow_of_isHigh hhigh]; decide)

/-- A sequence of units has one division into code points. -/
theorem IsCodePoints.eq (h : IsCodePoints units points) : points = codePoints units := by
  obtain ⟨rfl, hwhole, hunsplit⟩ := h
  induction points with
  | nil => rfl
  | cons p points ih =>
    rw [List.forall_mem_cons] at hwhole
    rw [List.isChain_cons] at hunsplit
    have hrest := ih hwhole.2 hunsplit.2
    rw [List.flatten_cons]
    cases hwhole.1 with
    | single u =>
      have hhead := unpaired_head (u := u) hwhole.2 fun q hq v hv => hunsplit.1 q hq u v rfl hv
      rw [List.singleton_append, codePoints_single hhead, ← hrest]
    | pair hhigh hlow =>
      rw [List.cons_append, List.singleton_append, codePoints_pair hhigh hlow, ← hrest]

/-- The first code point starts with the first unit. -/
theorem head_of_codePoints {p : Units} (h : p ∈ (codePoints (u :: rest)).head?) :
    p.head? = some u := by
  cases rest with
  | nil => exact (Option.some.inj h) ▸ rfl
  | cons v rest =>
    rw [codePoints] at h
    split at h <;> exact (Option.some.inj h) ▸ rfl

theorem isCodePoints_codePoints (units : Units) : IsCodePoints units (codePoints units) := by
  fun_induction codePoints units with
  | case1 => exact ⟨rfl, List.forall_mem_nil _, .nil⟩
  | case2 u => exact ⟨rfl, List.forall_mem_singleton.2 (.single u), .singleton _⟩
  | case3 u v rest hpair ih =>
    rw [Bool.and_eq_true] at hpair
    refine ⟨?_, List.forall_mem_cons.2 ⟨.pair hpair.1 hpair.2, ih.whole⟩,
      List.isChain_cons.2 ⟨fun q _ u v hu => absurd hu (by simp), ih.unsplit⟩⟩
    rw [List.flatten_cons, ih.joined]
    rfl
  | case4 u v rest hpair ih =>
    rw [Bool.and_eq_true] at hpair
    refine ⟨?_, List.forall_mem_cons.2 ⟨.single u, ih.whole⟩,
      List.isChain_cons.2 ⟨fun q hq u' v' hu hv => ?_, ih.unsplit⟩⟩
    · rw [List.flatten_cons, ih.joined]
      rfl
    · obtain rfl := List.singleton_inj.1 hu
      have hhead := head_of_codePoints hq
      rw [hv] at hhead
      obtain rfl : v' = v := Option.some.inj hhead
      exact hpair

theorem isCodePoints_iff : IsCodePoints units points ↔ points = codePoints units :=
  ⟨IsCodePoints.eq, fun h => h ▸ isCodePoints_codePoints units⟩

end Units

/-! ## The two passes -/

namespace Machine.Library

open Cleartext.Units

/-- Exchanging halves of pairs does not reach over a place where no low surrogate stands in
front of a high one. -/
theorem joinPairs_append {front back : Units}
    (h : ∀ u ∈ front.getLast?, ∀ v ∈ back.head?, Unpaired v u) :
    joinPairs (front ++ back) = joinPairs front ++ joinPairs back := by
  fun_induction joinPairs front with
  | case1 u v rest hpair ih =>
    rw [List.cons_append, List.cons_append, joinPairs, if_pos hpair]
    cases rest with
    | nil => rfl
    | cons w rest =>
      rw [ih (by simpa using h)]
      rfl
  | case2 u v rest hpair ih =>
    rw [List.cons_append, List.cons_append, joinPairs, if_neg hpair, ← List.cons_append,
      ih (by simpa using h)]
    rfl
  | case3 units hunits =>
    match units, hunits with
    | [], _ => rfl
    | [u], _ =>
      cases back with
      | nil => rfl
      | cons v back =>
        have hunpaired : Unpaired v u := h u rfl v rfl
        rw [List.singleton_append, joinPairs, if_neg fun hpair => ?_]
        · rfl
        · rw [Bool.and_eq_true] at hpair
          exact hunpaired hpair.symm
    | u :: v :: rest, hunits => exact absurd rfl (hunits u v rest)

/-- The passes put the first code point last. -/
theorem reverseUnits_append {point rest : Units}
    (h : ∀ u ∈ point.getLast?, ∀ v ∈ rest.head?, Unpaired u v) :
    reverseUnits (point ++ rest) = reverseUnits rest ++ reverseUnits point := by
  unfold reverseUnits
  rw [List.reverse_append, joinPairs_append]
  intro v hv u hu
  rw [List.getLast?_reverse] at hv
  rw [List.head?_reverse] at hu
  exact h u hu v hv

theorem reverseUnits_pair {high low : UInt16} (hhigh : isHigh high = true)
    (hlow : isLow low = true) : reverseUnits [high, low] = [high, low] := by
  show joinPairs [low, high] = [high, low]
  simp [joinPairs, hhigh, hlow]

/-- The two passes reverse the code points. -/
theorem reverseUnits_eq (units : Units) :
    reverseUnits units = (codePoints units).reverse.flatten := by
  fun_induction codePoints units with
  | case1 => rfl
  | case2 u => rfl
  | case3 u v rest hpair ih =>
    rw [Bool.and_eq_true] at hpair
    have happend : reverseUnits ([u, v] ++ rest) = reverseUnits rest ++ reverseUnits [u, v] := by
      refine reverseUnits_append fun w hw x _ hpaired => ?_
      obtain rfl : v = w := Option.some.inj hw
      exact absurd hpair.2 (by rw [isLow_of_isHigh hpaired.1]; decide)
    rw [List.reverse_cons, List.flatten_append, List.flatten_singleton, ← ih,
      ← reverseUnits_pair hpair.1 hpair.2]
    exact happend
  | case4 u v rest hpair ih =>
    have happend : reverseUnits ([u] ++ v :: rest) =
        reverseUnits (v :: rest) ++ reverseUnits [u] := by
      refine reverseUnits_append fun w hw x hx hpaired => ?_
      obtain rfl : u = w := Option.some.inj hw
      obtain rfl : v = x := Option.some.inj hx
      exact hpair (by rwa [Bool.and_eq_true])
    rw [List.reverse_cons, List.flatten_append, List.flatten_singleton, ← ih]
    exact happend

/-! ## The method of builders -/

/-- Both kinds of builders are reversed in the two passes. -/
theorem declared?_reverse {builder : String}
    (h : builder ∈ ["java/lang/StringBuilder", "java/lang/StringBuffer"]) :
    declared? builder "reverse" ("()L" ++ builder ++ ";") =
      some fun args => changeBuilder args fun units => return reverseUnits units := by
  rw [List.mem_cons, List.mem_singleton] at h
  rcases h with rfl | rfl
  · rfl
  · rfl

/-- Reversing units reverses the code points of which they are made up, and keeps each of them as
it is.  This is what both kinds of builders do to their content, and they do nothing else. -/
theorem reverse_codePoints (units : Units) :
    ∃ points, IsCodePoints units points ∧ (∀ others, IsCodePoints units others → others = points) ∧
      reverseUnits units = points.reverse.flatten ∧
      ∀ builder ∈ ["java/lang/StringBuilder", "java/lang/StringBuffer"], ∃ reverse,
        declared? builder "reverse" ("()L" ++ builder ++ ";") = some reverse ∧
        ∀ (σ : Setting) (w : World) (id : Nat) (cls : String)
          (fields : Option (List (String × Value))) (rest : List Value),
          w.heap[id]? = some (.instance cls fields (.builder units)) →
          reverse (.ref id :: rest) σ w = (.ok (.ref id), { w with
            heap := w.heap.modify id fun _ =>
              .instance cls fields (.builder points.reverse.flatten) }) := by
  refine ⟨codePoints units, isCodePoints_iff.2 rfl, fun others h => isCodePoints_iff.1 h,
    reverseUnits_eq units, fun builder hbuilder => ⟨_, declared?_reverse hbuilder, ?_⟩⟩
  intro σ w id cls fields rest hid
  have hchange : (return reverseUnits units : Run Units) σ w =
      (.ok (codePoints units).reverse.flatten, w) :=
    Run.pure_ok.2 ⟨(reverseUnits_eq units).symm, rfl⟩
  exact changeBuilder_ok hid hchange rfl rest

/-- Surrogates of which only two make up a pair, and a letter. -/
private def mixedUnits : Units := [0xdc00, 0xd83d, 0xde00, 0x61, 0xd800]

/-- A setting without any code. -/
private def bareSetting : Setting :=
  ⟨Program.of ⟨0, 52, .empty, 0, 0, 0, [], [], [], []⟩, {}, []⟩

/-- A heap with one builder. -/
private def builderWorld : World where
  heap := #[.instance "java/lang/StringBuilder" none (.builder mixedUnits)]

theorem reverse_codePoints_mixed : ∃ reverse w',
    declared? "java/lang/StringBuilder" "reverse" "()Ljava/lang/StringBuilder;" = some reverse ∧
    reverse [.ref 0] bareSetting builderWorld = (.ok (.ref 0), w') ∧
    w'.heap[0]? = some (.instance "java/lang/StringBuilder" none
      (.builder [0xd800, 0x61, 0xd83d, 0xde00, 0xdc00])) := by
  obtain ⟨points, -, -, hreversed, hbuilders⟩ := reverse_codePoints mixedUnits
  obtain ⟨reverse, hdeclared, hruns⟩ := hbuilders "java/lang/StringBuilder" (by decide)
  refine ⟨reverse, _, hdeclared, hruns bareSetting builderWorld 0 _ none [] rfl, ?_⟩
  rw [← hreversed]
  rfl

end Machine.Library

end Cleartext
