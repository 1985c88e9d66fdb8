import Cleartext.Error
import Cleartext.Machine.Value

/-!
# Operand stacks

An operand stack is the list of its values, the topmost first.  A long or a
double takes two slots, and an instruction that works on slots must not
separate them.
-/

namespace Cleartext.Machine

/-- The values of a stack, the topmost first. -/
abbrev Stack := List Value

namespace Stack

/-- Splits off the topmost values that fill exactly `slots` slots. -/
def takeSlots : Nat → Stack → Except Misuse (Stack × Stack)
  | 0, stack => .ok ([], stack)
  | _ + 1, [] => .error .underflow
  | 1, v :: rest =>
    if v.isWide then .error .splitPair else .ok ([v], rest)
  | n + 2, v :: rest => do
    let (top, below) ← takeSlots (if v.isWide then n else n + 1) rest
    return (v :: top, below)

/-- Copies the topmost `copied` slots and puts the copy below the next
`skipped` slots. -/
def dup (copied skipped : Nat) (stack : Stack) : Except Misuse Stack := do
  let (top, below) ← takeSlots copied stack
  let (middle, rest) ← takeSlots skipped below
  return top ++ middle ++ top ++ rest

/-- Drops the topmost slots. -/
def drop (slots : Nat) (stack : Stack) : Except Misuse Stack :=
  Prod.snd <$> takeSlots slots stack

/-- Splits off the topmost `n` values; they are given in the order in which
they were pushed. -/
def takeValues (n : Nat) (stack : Stack) : Except Misuse (List Value × Stack) :=
  if stack.length < n then .error .underflow
  else .ok ((stack.take n).reverse, List.drop n stack)

end Stack

end Cleartext.Machine
