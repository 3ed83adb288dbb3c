import Logging.Text.CharSet

/-!
# Regular expressions

The expressions that message patterns are made of, with flags already applied: a letter that is
matched in either case is a set, a line anchor is one of the four anchors. Groups that capture
carry their number, from 1 on; number 0 is the whole match.
-/

namespace Logging.Pattern

open Text (CharSet)

/-- Conditions on a place between two characters. -/
inductive Look
  | textStart
  | textEnd
  | lineStart
  | lineEnd
  | boundary
  | notBoundary
  | wordStart
  | wordEnd
  | wordStartHalf
  | wordEndHalf
deriving DecidableEq, Repr

/-- Regular expressions. A repetition has no upper bound when `max?` is `none`. -/
inductive Expr
  | empty
  | set (chars : CharSet)
  | look (l : Look)
  | seq (first second : Expr)
  | alt (first second : Expr)
  | rep (min : Nat) (max? : Option Nat) (greedy : Bool) (body : Expr)
  | group (number : Nat) (body : Expr)
deriving Repr

namespace Expr

/-- Whether the expression can match nothing but the empty text. -/
def onlyEmpty : Expr → Bool
  | empty => true
  | set _ => false
  | look _ => true
  | seq e f => e.onlyEmpty && f.onlyEmpty
  | alt e f => e.onlyEmpty && f.onlyEmpty
  | rep _ max? _ e => e.onlyEmpty || max? == some 0
  | group _ e => e.onlyEmpty

/-- A repetition, where one pass over a body that only matches the empty text is as good as
many, and a repetition of exactly one pass is the body. -/
def repeated (min : Nat) (max? : Option Nat) (greedy : Bool) (body : Expr) : Expr :=
  let (min, max?) :=
    if body.onlyEmpty then (Nat.min min 1, some ((max?.map (Nat.min · 1)).getD 1)) else (min, max?)
  match min, max? with
  | 0, some 0 => empty
  | 1, some 1 => body
  | _, _ => rep min max? greedy body

/-- The parts one after the other. -/
def seqOf : List Expr → Expr
  | [] => empty
  | [e] => e
  | e :: es => seq e (seqOf es)

/-- The parts in order of preference. -/
def altOf : List Expr → Expr
  | [] => empty
  | [e] => e
  | e :: es => alt e (altOf es)

/-- Bytes that a character takes in UTF-8. -/
def pointWidth (n : Nat) : Nat :=
  if n < 0x80 then 1 else if n < 0x800 then 2 else if n < 0x10000 then 3 else 4

/-- The room that the compiled form of the expression takes, in units of one state. -/
def room : Expr → Nat
  | empty => 1
  | set cs => cs.ranges.foldl (fun n r => n + pointWidth r.2) 0
  | look _ => 1
  | seq e f => e.room + f.room
  | alt e f => e.room + f.room + 1
  | rep min none _ e => (Nat.max min 1) * e.room + 2
  | rep min (some max) _ e => Nat.max min max * (e.room + 1) + 1
  | group _ e => e.room + 2

end Expr

end Logging.Pattern
