import Logging.Fault

/-!
# Attachments

A node has two places for attachments, each of which holds a value under a key. Keys are told
apart by number: two keys of one name are different keys. A third key is refused.
-/

namespace Logging

structure AttachmentKey where
  number : Nat
  name : String
deriving DecidableEq, Repr

/-- A key as it shows in descriptions, without its number. -/
def AttachmentKey.describe (k : AttachmentKey) : String := "AttachmentKey(" ++ k.name ++ "#)"

inductive AttachmentValue
  | text (s : String)
  | int (n : Int)
  | flag (b : Bool)
deriving DecidableEq, Repr

/-- The two places, each empty or with the number of a key and a value. -/
structure Attachments where
  first? : Option (Nat × AttachmentValue) := none
  second? : Option (Nat × AttachmentValue) := none
deriving DecidableEq, Repr, Inhabited

namespace Attachments

def isEmpty (a : Attachments) : Bool := a.first?.isNone && a.second?.isNone

/-- Whether a place holds the key. -/
def holds (place? : Option (Nat × AttachmentValue)) (k : AttachmentKey) : Bool :=
  place?.any (·.1 == k.number)

def get? (a : Attachments) (k : AttachmentKey) : Option AttachmentValue :=
  if holds a.first? k then a.first?.map Prod.snd
  else if holds a.second? k then a.second?.map Prod.snd
  else none

/-- Put a value into the first free place. -/
def insertNew (a : Attachments) (owner : String) (k : AttachmentKey) (v : AttachmentValue) :
    Except Fault Attachments :=
  if a.first?.isNone then .ok { a with first? := some (k.number, v) }
  else if a.second?.isNone then .ok { a with second? := some (k.number, v) }
  else .error (.attachmentCapacity owner k.name)

/-- Store a value; the answer is the value that was there. -/
def attach (a : Attachments) (owner : String) (k : AttachmentKey) (v : AttachmentValue) :
    Except Fault (Option AttachmentValue × Attachments) :=
  if holds a.first? k then .ok (a.get? k, { a with first? := some (k.number, v) })
  else if holds a.second? k then .ok (a.get? k, { a with second? := some (k.number, v) })
  else (a.insertNew owner k v).map fun a => (none, a)

/-- Store a value unless there is one; the answer is the value that was there. -/
def attachIfAbsent (a : Attachments) (owner : String) (k : AttachmentKey) (v : AttachmentValue) :
    Except Fault (Option AttachmentValue × Attachments) :=
  match a.get? k with
  | some old => .ok (some old, a)
  | none => (a.insertNew owner k v).map fun a => (none, a)

/-- Remove a key; the answer is its value. -/
def detach (a : Attachments) (k : AttachmentKey) : Option AttachmentValue × Attachments :=
  if holds a.first? k then (a.get? k, { a with first? := none })
  else if holds a.second? k then (a.get? k, { a with second? := none })
  else (none, a)

end Attachments

end Logging
