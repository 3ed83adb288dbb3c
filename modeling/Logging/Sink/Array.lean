/-!
# Sink arrays

The sinks of a node are an array that is never changed in place: each change puts another array in
its stead. An array that was handed out stays as it was, and is known again by whose it is and by
the count of changes at its time. So a swap on condition that nothing has changed compares these,
and not the contents.
-/

namespace Logging

/-- An array of sinks, for one owner, at one point of its history. -/
structure SinkArray (σ : Type) where
  owner : Nat
  version : Nat := 0
  sinks : List σ := []
deriving DecidableEq, Repr, Inhabited

namespace SinkArray

variable {σ : Type}

def size (a : SinkArray σ) : Nat := a.sinks.length

def isEmpty (a : SinkArray σ) : Bool := a.sinks.isEmpty

/-- The array that takes the place of another one. -/
def install (a : SinkArray σ) (sinks : List σ) : SinkArray σ :=
  { a with version := a.version + 1, sinks }

/-- Whether two arrays are the same one. -/
def same (a b : SinkArray σ) : Bool := a.owner == b.owner && a.version == b.version

/-- Append a sink. -/
def add (a : SinkArray σ) (s : σ) : SinkArray σ := a.install (a.sinks ++ [s])

/-- Replace all sinks. -/
def set (a : SinkArray σ) (sinks : List σ) : SinkArray σ := a.install sinks

def clear (a : SinkArray σ) : SinkArray σ := a.set []

/-- Replace all sinks if the array is still the expected one; the answer is whether it was. -/
def compareAndSet (a expected : SinkArray σ) (sinks : List σ) : Bool × SinkArray σ :=
  if a.same expected then (true, a.install sinks) else (false, a)

/-- Remove the first occurrence of a sink; the answer is whether there was one. -/
def remove [DecidableEq σ] (a : SinkArray σ) (s : σ) : Bool × SinkArray σ :=
  if s ∈ a.sinks then a.compareAndSet a (a.sinks.erase s) else (false, a)

end SinkArray

end Logging
