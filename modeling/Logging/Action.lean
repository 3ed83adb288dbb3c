import Logging.Filter.Basic
import Logging.Record.Basic

/-!
# Callbacks

A program gives code to a logging tree in three places: predicates in filters, sinks, and hooks
that run on shutdown. Here such code is a list of actions, each of which uses the tree like any
program would. The types are open in how handles (`η`) and sinks (`σ`) are referred to: by the
names that a program has for them, or by identity once the code was made.
-/

namespace Logging

inductive Action (η σ : Type)
  | note (text : String)
  | log (handle : η) (level : Level) (message : String)
  | setLevel (handle : η) (level? : Option Level)
  | addSink (handle : η) (sink : σ)
  | removeSink (handle : η) (sink : σ)
  | reset (handle : η)
  /-- Look up a logger by name and drop the handle again. -/
  | touch (name : String)
  | reclaim
  | close
  /-- Register a hook that notes the text. -/
  | addHook (text : String)
  /-- Break off everything up to the call that a program made from outside. -/
  | abort
deriving DecidableEq, Repr

namespace Action

variable {η σ η' σ' : Type} {m : Type → Type} [Monad m]

/-- Replace the references in an action. -/
def resolve (handle : η → m η') (sink : σ → m σ') : Action η σ → m (Action η' σ')
  | note t => return .note t
  | log h l t => return .log (← handle h) l t
  | setLevel h l => return .setLevel (← handle h) l
  | addSink h s => return .addSink (← handle h) (← sink s)
  | removeSink h s => return .removeSink (← handle h) (← sink s)
  | reset h => return .reset (← handle h)
  | touch n => return .touch n
  | reclaim => return .reclaim
  | close => return .close
  | addHook t => return .addHook t
  | abort => return .abort

def handles : Action η σ → List η
  | log h _ _ | setLevel h _ | addSink h _ | removeSink h _ | reset h => [h]
  | _ => []

def sinks : Action η σ → List σ
  | addSink _ s | removeSink _ s => [s]
  | _ => []

end Action

/-- A predicate of a program: a test of the record, then actions, then changes to it. -/
structure Predicate (η σ : Type) where
  verdict : Bool := true
  /-- Accept only messages that contain this text. -/
  contains? : Option String := none
  /-- Accept only records of loggers whose name begins with this text; this test comes last. -/
  under? : Option String := none
  actions : List (Action η σ) := []
  append? : Option String := none
  level? : Option Level := none
deriving DecidableEq, Repr

/-- Whether one text occurs in another. -/
def occursIn (part : List Char) : List Char → Bool
  | [] => part.isEmpty
  | c :: cs => part.isPrefixOf (c :: cs) || occursIn part cs

namespace Predicate

variable {η σ : Type}

/-- The verdict, which depends on the record as it came. -/
def accepts (p : Predicate η σ) (r : Record) : Bool :=
  match p.under?, p.contains? with
  | some name, _ => name.toList.isPrefixOf r.loggerName.toList
  | none, some text => occursIn text.toList r.message.toList
  | none, none => p.verdict

/-- The record as the predicate leaves it. -/
def edit (p : Predicate η σ) (r : Record) : Record :=
  { r with
    message := r.message ++ p.append?.getD ""
    level := p.level?.getD r.level }

end Predicate

/-- A sink: what it does with a record and when it is flushed, and how it fails. -/
structure Sink (η σ : Type) where
  name : String
  /-- Whether failures are reported to nobody that keeps them. -/
  silent : Bool := false
  /-- A bare sink keeps no account of what it gets, and fails on messages with `fail` in them. -/
  bare : Bool := false
  publishFault? : Option Fault := none
  flushFault? : Option Fault := none
  /-- What it does with a record. -/
  actions : List (Action η σ) := []
  flushActions : List (Action η σ) := []
deriving DecidableEq, Repr

/-- Everything that a sink may do. -/
def Sink.allActions {η σ : Type} (sink : Sink η σ) : List (Action η σ) :=
  sink.actions ++ sink.flushActions

/-- A hook to run on shutdown, with its number in the order of registration. -/
structure Hook (η σ : Type) where
  number : Nat
  actions : List (Action η σ)
deriving DecidableEq, Repr

end Logging
