/-!
# Sets of characters

A set of characters is kept as an array of closed ranges of code points, in ascending order and
apart from each other, so that membership is a binary search. The operations keep the array in
that form: `ofRanges` sorts and joins, the others go through the complement.
-/

namespace Logging.Text

/-- Closed ranges of code points, ascending, with a gap between each two. -/
structure CharSet where
  ranges : Array (Nat × Nat)
deriving DecidableEq, Repr

namespace CharSet

/-- The greatest code point. -/
def lastPoint : Nat := 0x10FFFF

/-- Look for a range around `n` between the indices `lo` and `hi`, the latter left out. -/
def search (ranges : Array (Nat × Nat)) (n lo hi : Nat) : Bool :=
  if _h : lo < hi then
    let mid := (lo + hi) / 2
    match ranges[mid]? with
    | none => false
    | some (first, last) =>
      if n < first then search ranges n lo mid
      else if last < n then search ranges n (mid + 1) hi
      else true
  else false
termination_by hi - lo

def containsPoint (s : CharSet) (n : Nat) : Bool := search s.ranges n 0 s.ranges.size

def contains (s : CharSet) (c : Char) : Bool := s.containsPoint c.toNat

/-! ### Building sets -/

/-- Join ranges that overlap or touch; the input is sorted by first point. -/
def join : List (Nat × Nat) → List (Nat × Nat)
  | [] => []
  | [r] => [r]
  | (a, b) :: (c, d) :: rest =>
    if c ≤ b + 1 then join ((a, max b d) :: rest) else (a, b) :: join ((c, d) :: rest)
termination_by rs => rs.length

def ofRanges (rs : List (Nat × Nat)) : CharSet :=
  ⟨(join ((rs.filter fun r => r.1 ≤ r.2).mergeSort fun r s => r.1 ≤ s.1)).toArray⟩

def empty : CharSet := ⟨#[]⟩

def full : CharSet := ⟨#[(0, lastPoint)]⟩

def single (c : Char) : CharSet := ⟨#[(c.toNat, c.toNat)]⟩

def union (s t : CharSet) : CharSet := ofRanges (s.ranges.toList ++ t.ranges.toList)

/-- The gaps of a list of ranges, from `next` to the greatest code point. -/
def gaps (next : Nat) : List (Nat × Nat) → List (Nat × Nat)
  | [] => if next ≤ lastPoint then [(next, lastPoint)] else []
  | (a, b) :: rest => (if next < a then [(next, a - 1)] else []) ++ gaps (b + 1) rest

def compl (s : CharSet) : CharSet := ⟨(gaps 0 s.ranges.toList).toArray⟩

def inter (s t : CharSet) : CharSet := (s.compl.union t.compl).compl

def diff (s t : CharSet) : CharSet := s.inter t.compl

/-- The characters in exactly one of two sets. -/
def symmDiff (s t : CharSet) : CharSet := (s.diff t).union (t.diff s)

end CharSet

end Logging.Text
