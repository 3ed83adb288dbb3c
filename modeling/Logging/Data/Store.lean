/-!
# Stores

A store gives each thing put into it a number of its own, which is never given again, not even
after the thing is gone. Later things have greater numbers.
-/

namespace Logging

/-- The things of one kind by number; the cell of a thing that is gone is empty. -/
structure Store (α : Type) where
  cells : Array (Option α)

namespace Store

variable {α : Type}

def empty : Store α := ⟨#[]⟩

instance : Inhabited (Store α) := ⟨empty⟩

/-- The number that the next thing will have. -/
def next (s : Store α) : Nat := s.cells.size

def get? (s : Store α) (i : Nat) : Option α := s.cells[i]?.join

def contains (s : Store α) (i : Nat) : Bool := (s.get? i).isSome

/-- Put a thing under the number `s.next`. -/
def push (s : Store α) (a : α) : Store α := ⟨s.cells.push (some a)⟩

def erase (s : Store α) (i : Nat) : Store α := ⟨s.cells.setIfInBounds i none⟩

/-- Change the thing with a number, if there is one. -/
def modify (s : Store α) (i : Nat) (f : α → α) : Store α :=
  ⟨s.cells.modify i (Option.map f)⟩

/-- The things there are, with their numbers, oldest first. -/
def toList (s : Store α) : List (Nat × α) :=
  s.cells.toList.zipIdx.filterMap fun (a?, i) => a?.map (i, ·)

/-- How many things there are. -/
def count (s : Store α) : Nat := s.cells.countP Option.isSome

/-! ### What a store holds after a change -/

theorem get?_push (s : Store α) (a : α) (i : Nat) :
    (s.push a).get? i = if i = s.next then some a else s.get? i := by
  by_cases h : i = s.cells.size <;> simp [get?, push, next, Array.getElem?_push, h]

theorem get?_erase (s : Store α) (i j : Nat) :
    (s.erase i).get? j = if i = j then none else s.get? j := by
  simp only [get?, erase, Array.getElem?_setIfInBounds]
  split
  · split <;> simp
  · rfl

theorem get?_modify (s : Store α) (i j : Nat) (f : α → α) :
    (s.modify i f).get? j = if i = j then (s.get? j).map f else s.get? j := by
  simp only [get?, modify, Array.getElem?_modify]
  split
  · cases s.cells[j]? with
    | none => rfl
    | some a => cases a <;> rfl
  · rfl

/-- A store lists exactly the things that it holds. -/
theorem mem_toList_iff {s : Store α} {i : Nat} {a : α} :
    (i, a) ∈ s.toList ↔ s.get? i = some a := by
  simp only [toList, get?, List.mem_filterMap, Prod.exists, List.mem_zipIdx_iff_getElem?]
  constructor
  · rintro ⟨a?, j, hj, hm⟩
    obtain ⟨b, rfl, hb⟩ := Option.map_eq_some_iff.1 hm
    cases hb
    simp only [Array.getElem?_toList] at hj
    simp [hj]
  · intro hs
    exact ⟨some a, i, by simpa [Option.join_eq_some_iff] using hs, rfl⟩

theorem lt_next_of_get? {s : Store α} {i : Nat} {a : α} (h : s.get? i = some a) : i < s.next := by
  unfold get? at h
  unfold next
  by_cases hi : i < s.cells.size
  · exact hi
  · simp [Array.getElem?_eq_none (Nat.le_of_not_lt hi)] at h

end Store

end Logging
