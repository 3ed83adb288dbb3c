import Logging.Pattern.Parser
import Logging.Pattern.Program

/-!
# Searching for a pattern

The search goes through the program depth first, the preferred way before the other, and never
enters the same instruction at the same place twice: whatever could be found from there was tried
before. The first match found is the leftmost one, and of those the one preferred by the pattern.
Time and room are bounded by the product of the sizes of program and text.
-/

namespace Logging.Pattern

open Text (CharSet)

/-- The places noted so far, by slot. -/
abbrev Slots := Array (Option Nat)

/-- Whether the character at the place belongs to a word; no character does not. -/
def wordAt (text : Array Char) (i : Nat) : Bool :=
  (text[i]?).any Text.wordChars.contains

/-- Whether a condition holds in a text, before the character at `i`. -/
def Look.holds (text : Array Char) (i : Nat) : Look → Bool
  | textStart => i == 0
  | textEnd => i == text.size
  | lineStart => i == 0 || text[i - 1]? == some '\n'
  | lineEnd => i == text.size || text[i]? == some '\n'
  | boundary => before != after
  | notBoundary => before == after
  | wordStart => !before && after
  | wordEnd => before && !after
  | wordStartHalf => !before
  | wordEndHalf => !after
where
  before := i != 0 && wordAt text (i - 1)
  after := wordAt text i

/-- A place to go on from. -/
structure Thread where
  instr : Nat
  place : Nat
  slots : Slots

namespace Search

/-- Run the threads in turn until one accepts. The visited pairs are kept by number, and the count
bounds the steps: each pair is entered once and leaves at most two threads. -/
def run (program : Program) (text : Array Char) :
    Nat → Array Bool → List Thread → Option Slots × Array Bool
  | 0, visited, _ => (none, visited)
  | _, visited, [] => (none, visited)
  | fuel + 1, visited, t :: ts =>
    let key := t.instr * (text.size + 1) + t.place
    if visited[key]?.getD true then run program text fuel visited ts
    else
      let visited := visited.setIfInBounds key true
      match program[t.instr]? with
      | none => run program text fuel visited ts
      | some .accept => (some t.slots, visited)
      | some (.read cs next) =>
        match text[t.place]? with
        | some c =>
          if cs.contains c then
            run program text fuel visited ({ t with instr := next, place := t.place + 1 } :: ts)
          else run program text fuel visited ts
        | none => run program text fuel visited ts
      | some (.check look next) =>
        if look.holds text t.place then
          run program text fuel visited ({ t with instr := next } :: ts)
        else run program text fuel visited ts
      | some (.mark slot next) =>
        let slots := t.slots.setIfInBounds slot (some t.place)
        run program text fuel visited ({ t with instr := next, slots } :: ts)
      | some (.split first second) =>
        run program text fuel visited
          ({ t with instr := first } :: { t with instr := second } :: ts)

/-- Try the places from `place` on, `left` of them. -/
def starts (program : Program) (start slotCount : Nat) (text : Array Char) :
    Nat → Nat → Array Bool → Option Slots
  | 0, _, _ => none
  | left + 1, place, visited =>
    let fuel := 2 * visited.size + 2
    match run program text fuel visited [⟨start, place, Array.replicate slotCount none⟩] with
    | (some slots, _) => some slots
    | (none, visited) => starts program start slotCount text left (place + 1) visited

end Search

/-- A compiled pattern. -/
structure Matcher where
  program : Program
  start : Nat
  groups : Nat
  names : List (String × Nat)

namespace Matcher

def ofRegex (r : Regex) : Matcher :=
  let (start, program) := Program.ofExpr r.expr
  ⟨program, start, r.groups, r.names⟩

/-- The first match that begins at `place` or later. -/
def find? (m : Matcher) (text : Array Char) (place : Nat) : Option Slots :=
  Search.starts m.program m.start (2 * (m.groups + 1)) text (text.size + 1 - place) place
    (Array.replicate (m.program.size * (text.size + 1)) false)

/-- All matches from `place` on. An empty match directly after the match before it, which ended at
`last?`, gives way to the next one that begins further on. -/
def findAll (m : Matcher) (text : Array Char) : Nat → Nat → Option Nat → List Slots
  | 0, _, _ => []
  | fuel + 1, place, last? =>
    match m.find? text place with
    | none => []
    | some slots =>
      let (first, last) := bounds slots
      if first == last && last? == some last then
        match m.find? text (place + 1) with
        | none => []
        | some slots => slots :: findAll m text fuel (bounds slots).2 (some (bounds slots).2)
      else slots :: findAll m text fuel last (some last)
where
  bounds (slots : Slots) : Nat × Nat :=
    ((slots[0]?.join).getD 0, (slots[1]?.join).getD 0)

end Matcher

end Logging.Pattern
