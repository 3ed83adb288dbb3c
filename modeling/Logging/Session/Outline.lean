import Logging.Session.Build

/-!
# Namespaces from settings

An outline shows what a namespace that is built from settings is like.
-/

namespace Logging

structure Outline where
  strong : Bool
  /-- The severity of a root without a level of its own. -/
  baseline : Int
  /-- All levels that resolve, by name. -/
  levels : List Level
  /-- The effective level of the root. -/
  root : Int
  /-- The effective level of a logger that was looked up. -/
  child : Int
deriving DecidableEq, Repr

namespace Session

/-- What the session shows, with the logger of the given name looked up. -/
def outline (s : Session) (name : String) : Outline :=
  let names := s.scope?.elim [] fun ns => ns.levels.names s.levelAlive
  let (child, tree) := s.tree.getOrCreate Tree.root (Path.ofString name)
  { strong := s.tree.strong
    baseline := s.tree.baseline
    levels := names.filterMap fun n => s.scope?.bind fun ns => ns.levels.find? s.levelAlive n
    root := tree.effective Tree.root
    child := tree.effective child }

end Session

end Logging
