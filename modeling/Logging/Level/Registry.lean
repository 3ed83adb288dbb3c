import Logging.Data.Dict
import Logging.Level.Basic

/-!
# Level registry

Levels by name. A level is registered either for good, or only for as long as somebody owns it:
then the entry names the owned level, and resolves while that one is alive. Entries that have
lapsed are swept out whenever a level is registered, and by nothing else; a lookup never shows
them.
-/

namespace Logging

/-- What a name is registered for: a level, or an owned level by its number. -/
inductive LevelEntry
  | strong (level : Level)
  | weak (owned : Nat) (level : Level)
deriving DecidableEq, Repr

namespace LevelEntry

def level : LevelEntry → Level
  | strong l => l
  | weak _ l => l

/-- Whether the entry still stands, given which owned levels are alive. -/
def isLive (alive : Nat → Bool) : LevelEntry → Bool
  | strong _ => true
  | weak i _ => alive i

end LevelEntry

structure LevelRegistry where
  entries : Dict String LevelEntry

namespace LevelRegistry

/-- The standard levels, registered for good. -/
def standard : LevelRegistry :=
  ⟨Dict.ofList (Level.standard.map fun l => (l.name, .strong l))⟩

instance : Inhabited LevelRegistry := ⟨standard⟩

variable (alive : Nat → Bool)

/-- The entries without those that have lapsed. -/
def sweep (r : LevelRegistry) : LevelRegistry := ⟨r.entries.filter fun _ e => e.isLive alive⟩

/-- Register a level under its own name in place of what was there. -/
def register (r : LevelRegistry) (l : Level) : LevelRegistry :=
  ⟨(r.sweep alive).entries.insert l.name (.strong l)⟩

/-- Register an owned level, which resolves while it is alive. -/
def registerWeak (r : LevelRegistry) (owned : Nat) (l : Level) : LevelRegistry :=
  ⟨(r.sweep alive).entries.insert l.name (.weak owned l)⟩

/-- Remove a name; the answer is whether there was an entry for it, lapsed or not. -/
def unregister (r : LevelRegistry) (name : String) : Bool × LevelRegistry :=
  (r.entries.contains name, ⟨r.entries.erase name⟩)

/-- The level of a name whose entry still stands. -/
def find? (r : LevelRegistry) (name : String) : Option Level :=
  match r.entries.get? name with
  | some e => if e.isLive alive then some e.level else none
  | none => none

def get (r : LevelRegistry) (name : String) : Except Fault Level :=
  match r.find? alive name with
  | some l => .ok l
  | none => .error (.unknownLevel name)

/-- The names that resolve, in order. -/
def names (r : LevelRegistry) : List String :=
  (r.sweep alive).entries.keys.mergeSort (· ≤ ·)

end LevelRegistry

end Logging
