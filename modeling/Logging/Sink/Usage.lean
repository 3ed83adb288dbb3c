import Logging.Data.Dict
import Logging.Sink.Array
import Logging.Text.Quoted

/-!
# Use of a sink array

The steps of a program that works with one array of sinks and keeps arrays that were current at
some time, and what it is answered. The sinks have names, but it is their numbers that tell them
apart.
-/

namespace Logging.SinkArray

inductive Use
  | add (sink : String)
  | remove (sink : String)
  | set (sinks : List String) (save? : Option String)
  | clear (save? : Option String)
  | snapshot (save : String)
  /-- Replace the sinks if the array is still the one that was saved. -/
  | compareAndSet (expected : String) (sinks : List String)
  | saved (id : String)
  | same (first second : String)
  | describe
deriving DecidableEq, Repr

inductive Response
  | nothing
  | flag (b : Bool)
  | names (l : List String)
  | text (s : String)
deriving DecidableEq, Repr

/-- An array of numbered sinks with names, and the arrays that were saved. -/
structure User where
  sinks : Dict String (Nat × String)
  array : SinkArray (Nat × String) := { owner := 0 }
  saved : Dict String (SinkArray (Nat × String)) := ∅

namespace User

/-- A user of sinks with the given identities and names. -/
def new (sinks : List (String × String)) : User where
  sinks := Dict.ofList (sinks.zipIdx.map fun (s, i) => (s.1, (i, s.2)))

def names (a : SinkArray (Nat × String)) : List String := a.sinks.map Prod.snd

def sink (u : User) (id : String) : Nat × String := (u.sinks.get? id).getD (u.sinks.size, id)

def save (u : User) (id? : Option String) (a : SinkArray (Nat × String)) : User :=
  match id? with
  | some id => { u with saved := u.saved.insert id a }
  | none => u

def use (u : User) : Use → Response × User
  | .add s => (.nothing, { u with array := u.array.add (u.sink s) })
  | .remove s =>
    let (found, array) := u.array.remove (u.sink s)
    (.flag found, { u with array })
  | .set ids save? =>
    (.names (names u.array), { u.save save? u.array with array := u.array.set (ids.map u.sink) })
  | .clear save? =>
    (.names (names u.array), { u.save save? u.array with array := u.array.clear })
  | .snapshot save => (.nothing, u.save (some save) u.array)
  | .compareAndSet expected ids =>
    match u.saved.get? expected with
    | some a =>
      let (done, array) := u.array.compareAndSet a (ids.map u.sink)
      (.flag done, { u with array })
    | none => (.flag false, u)
  | .saved id => (.names (((u.saved.get? id).map names).getD []), u)
  | .same a b => (.flag ((u.sink a).1 == (u.sink b).1), u)
  | .describe =>
    (.text ("[" ++ String.intercalate ", " ((names u.array).map Text.Quoted.shown) ++ "]"), u)

/-- Take steps one after the other; with each answer stands the array as it is then. -/
def useAll (u : User) : List Use → List (Response × SinkArray (Nat × String)) × User
  | [] => ([], u)
  | step :: steps =>
    let (r, u) := u.use step
    let (rs, u') := u.useAll steps
    ((r, u.array) :: rs, u')

end User

end Logging.SinkArray
