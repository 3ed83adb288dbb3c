import Logging.Pattern.Basic

/-!
# Matching programs

An expression is matched by running a program: an array of instructions that read a character,
check a condition, note a place, or go on in two ways of which the first is preferred. Programs
are built from their end, so that each piece is given the address at which to go on.

A starred body is compiled as an optional run of at least one pass. For a body that can match the
empty text this is what keeps the order of preference: an empty pass ends the run.
-/

namespace Logging.Pattern

open Text (CharSet)

inductive Instr
  | read (chars : CharSet) (next : Nat)
  | check (look : Look) (next : Nat)
  | mark (slot next : Nat)
  | split (first second : Nat)
  | accept

abbrev Program := Array Instr

namespace Program

/-- Put an instruction at the end; its address comes first. -/
def emit (p : Program) (i : Instr) : Nat × Program := (p.size, p.push i)

/-- Two ways to go on, the body before the exit if the repetition is greedy. -/
def choice (greedy : Bool) (body exit : Nat) : Instr :=
  if greedy then .split body exit else .split exit body

/-- Do a step of compilation `n` times, each one going on where the last one begins. -/
def times (step : Nat → Program → Nat × Program) : Nat → Nat → Program → Nat × Program
  | 0, next, p => (next, p)
  | n + 1, next, p =>
    let (start, p) := step next p
    times step n start p

/-- At least one pass over a body, and then an exit to `next`. -/
def plus (greedy : Bool) (body : Nat → Program → Nat × Program) (next : Nat) (p : Program) :
    Nat × Program :=
  let (loop, p) := p.emit .accept
  let (start, p) := body loop p
  (start, p.setIfInBounds loop (choice greedy start next))

/-- Add the program of an expression that goes on at `next`; the address of its start comes
first. -/
def compile : Expr → Nat → Program → Nat × Program
  | .empty, next, p => (next, p)
  | .set cs, next, p => p.emit (.read cs next)
  | .look l, next, p => p.emit (.check l next)
  | .seq e f, next, p =>
    let (second, p) := compile f next p
    compile e second p
  | .alt e f, next, p =>
    let (second, p) := compile f next p
    let (first, p) := compile e next p
    p.emit (.split first second)
  | .group n e, next, p =>
    let (close, p) := p.emit (.mark (2 * n + 1) next)
    let (start, p) := compile e close p
    p.emit (.mark (2 * n) start)
  | .rep min none greedy e, next, p =>
    let (start, p) := plus greedy (compile e) next p
    if min = 0 then p.emit (choice greedy start next)
    else times (compile e) (min - 1) start p
  | .rep min (some max) greedy e, next, p =>
    let optional := fun (from_ : Nat) (p : Program) =>
      let (start, p) := compile e from_ p
      p.emit (choice greedy start next)
    let (start, p) := times optional (max - min) next p
    times (compile e) min start p

/-- The program of an expression, with the whole match in slots 0 and 1, and where it starts. -/
def ofExpr (e : Expr) : Nat × Program :=
  let (done, p) := Program.emit #[] .accept
  compile (.group 0 e) done p

end Program

end Logging.Pattern
