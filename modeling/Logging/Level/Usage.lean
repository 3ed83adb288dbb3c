import Logging.Level.Owners
import Logging.Level.Registry

/-!
# Use of a level registry

The steps of a program that works with one registry and owns levels under names of its own, and
what it is answered.
-/

namespace Logging.LevelRegistry

inductive Use
  | register (level : Level)
  /-- Own a level under a name, in place of what the name was used for. -/
  | hold (id : String) (level : Level)
  | share (id as_ : String)
  /-- Register the level owned under a name for as long as it is owned. -/
  | registerWeak (id : String)
  | drop (id : String)
  | unregister (name : String)
  | get (name : String)
  | names
deriving DecidableEq, Repr

inductive Response
  | nothing
  | names (l : List String)
  | flag (b : Bool)
  | level (l : Level)
  | fault (f : Fault)
deriving DecidableEq, Repr

/-- A registry and the levels that its user owns. -/
structure User where
  registry : LevelRegistry := .standard
  owners : LevelOwners := {}

namespace User

def listNames (u : User) : Response := .names (u.registry.names u.owners.alive)

def use (u : User) : Use → Response × User
  | .register l =>
    let u := { u with registry := u.registry.register u.owners.alive l }
    (u.listNames, u)
  | .hold id l => (.nothing, { u with owners := (u.owners.hold id l).2 })
  | .share id as_ => (.nothing, { u with owners := u.owners.share id as_ })
  | .registerWeak id =>
    let u := match u.owners.get? id with
      | some (i, l) => { u with registry := u.registry.registerWeak u.owners.alive i l }
      | none => u
    (u.listNames, u)
  | .drop id =>
    let u := { u with owners := u.owners.release id }
    (u.listNames, u)
  | .unregister name =>
    let (found, registry) := u.registry.unregister name
    (.flag found, { u with registry })
  | .get name =>
    match u.registry.get u.owners.alive name with
    | .ok l => (.level l, u)
    | .error f => (.fault f, u)
  | .names => (u.listNames, u)

/-- Take steps one after the other. -/
def useAll (u : User) : List Use → List Response × User
  | [] => ([], u)
  | step :: steps =>
    let (r, u) := u.use step
    let (rs, u) := u.useAll steps
    (r :: rs, u)

end User

end Logging.LevelRegistry
