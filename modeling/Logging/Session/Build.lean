import Logging.Expression.Parser
import Logging.Session.Basic
import Logging.Settings

/-!
# Building sessions and filters

A session begins with a namespace: its retention of nodes, its baseline, its levels and its named
filters. Filters are described by what a client writes down: an expression, or a construction that
refers to the client's handles and sinks by name.
-/

namespace Logging

/-! ### Sessions -/

namespace Session

/-- A session with a namespace of the given levels. The baseline is registered first, so another
level of its name takes its place. -/
def new (strong : Bool) (baseline : Level) (levels : List Level)
    (filters : List (String × NodeFilter)) : Session where
  tree := Tree.new baseline.severity strong
  scope? := some {
    levels := (baseline :: levels).foldl (fun r l => r.register (fun _ => false) l)
      LevelRegistry.standard
    filters := Dict.ofList filters }

instance : Inhabited Session := ⟨new true Level.info [] []⟩

def ofSettings (settings : Settings) : Except Fault Session :=
  settings.baselineLevel.map fun baseline =>
    new settings.strongChildren baseline settings.levels []

/-- The names that an expression may use. -/
def resolver (s : Session) : Expression.Resolver BoundPredicate where
  level? name := s.scope?.bind fun ns => ns.levels.find? s.levelAlive name
  filter? name := s.scope?.bind fun ns => ns.filters.get? name

/-- Read a filter expression against the levels and filters of the namespace. -/
def parseFilter [Pattern.Engine] (s : Session) (text : String) : Except Fault NodeFilter :=
  (Expression.parse s.resolver text).mapError Expression.Error.toFault

end Session

/-! ### Filters -/

/-- A filter as a client describes it. -/
inductive FilterSpec
  | expression (text : String)
  | accept
  | deny
  | not (inner : FilterSpec)
  | all (parts : List FilterSpec)
  | any (parts : List FilterSpec)
  | levels (levels : List Level)
  | levelRange (min : Level) (minIncluded : Bool) (max : Level) (maxIncluded : Bool)
  | levelChange (level : Level)
  | «match» (pattern : String)
  | substitute (pattern replacement : String) (everywhere : Bool)
  /-- The filter registered under a name. -/
  | registered (name : String)
  /-- A filter that the client holds. -/
  | kept (id : String)
  | named (name : String) (predicate : Predicate String String)

/-- Why a description gives no filter. -/
inductive BuildError
  | fault (f : Fault)
  | unknown (name : String)

namespace Session

/-- What a client holds under a name. -/
def held {α : Type} (d : Dict String α) (id : String) : Except BuildError α :=
  match d.get? id with
  | some a => .ok a
  | none => .error (.unknown id)

/-- Bind actions to the handles and sinks that a client holds. -/
def bindActions (s : Session) (actions : List (Action String String)) :
    Except BuildError (List BoundAction) :=
  actions.mapM (Action.resolve (held s.client.handles) (held s.client.sinks))

def bindPredicate (s : Session) (p : Predicate String String) : Except BuildError BoundPredicate :=
  return {
    verdict := p.verdict
    contains? := p.contains?
    under? := p.under?
    actions := ← s.bindActions p.actions
    append? := p.append?
    level? := p.level? }

/-- The pattern of a text. -/
def compilePattern [Pattern.Engine] (text : String) : Except BuildError Pattern :=
  match Pattern.Engine.compile? text with
  | some p => .ok p
  | none => .error (.fault .pattern)

mutual

/-- Make a filter from its description. -/
def buildFilter [Pattern.Engine] (s : Session) : FilterSpec → Except BuildError NodeFilter
  | .expression text => (s.parseFilter text).mapError .fault
  | .accept => return .accept
  | .deny => return .deny
  | .not f => return .not (← buildFilter s f)
  | .all fs => return .all (← buildFilters s fs)
  | .any fs => return .any (← buildFilters s fs)
  | .levels ls => return .levels ls
  | .levelRange min minIn max maxIn => return .levelRange min minIn max maxIn
  | .levelChange l => return .levelChange l
  | .match p => return .match (← compilePattern p)
  | .substitute p replacement everywhere =>
    return .substitute (← compilePattern p) replacement everywhere
  | .registered name =>
    match s.scope?.bind fun ns => ns.filters.get? name with
    | some f => return f
    | none => .error (.unknown name)
  | .kept id => held s.client.filters id
  | .named name p => return .named name (← s.bindPredicate p)

def buildFilters [Pattern.Engine] (s : Session) :
    List FilterSpec → Except BuildError (List NodeFilter)
  | [] => return []
  | f :: fs => return (← buildFilter s f) :: (← buildFilters s fs)

end

end Session

end Logging
