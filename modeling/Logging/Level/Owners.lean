import Logging.Data.Dict
import Logging.Level.Basic

/-!
# Owners of levels

A program can own a level under a name of its own, share it under further names, and let go of
it. Levels have numbers, so that two levels that look the same are still two; a level is alive
while it has an owner.
-/

namespace Logging

structure LevelOwners where
  owned : Dict String (Nat × Level) := ∅
  /-- The number of the next level. -/
  next : Nat := 0

namespace LevelOwners

instance : Inhabited LevelOwners := ⟨{}⟩

def alive (o : LevelOwners) (i : Nat) : Bool := o.owned.values.any (·.1 == i)

/-- Own a new level, in place of what the name was used for; the answer is its number. -/
def hold (o : LevelOwners) (id : String) (l : Level) : Nat × LevelOwners :=
  (o.next, { owned := o.owned.insert id (o.next, l), next := o.next + 1 })

/-- Own a level under a second name. -/
def share (o : LevelOwners) (id as_ : String) : LevelOwners :=
  match o.owned.get? id with
  | some l => { o with owned := o.owned.insert as_ l }
  | none => o

def release (o : LevelOwners) (id : String) : LevelOwners :=
  { o with owned := o.owned.erase id }

def get? (o : LevelOwners) (id : String) : Option (Nat × Level) := o.owned.get? id

end LevelOwners

end Logging
