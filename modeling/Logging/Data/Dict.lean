/-!
# Dictionaries

A dictionary holds at most one value for each key, the value put last in front. It is known by
its lookups: they find exactly the entries (`mem_entries_iff`), and `get?_insert` and `get?_erase`
say what they are after a change.
-/

namespace Logging

/-- Pairs of keys and values, no key twice. -/
structure Dict (κ α : Type) where
  entries : List (κ × α)
  nodup : (entries.map Prod.fst).Nodup

namespace Dict

variable {κ α β : Type}

def empty : Dict κ α := ⟨[], by simp⟩

instance : EmptyCollection (Dict κ α) := ⟨empty⟩

instance : Inhabited (Dict κ α) := ⟨empty⟩

def keys (d : Dict κ α) : List κ := d.entries.map Prod.fst

def values (d : Dict κ α) : List α := d.entries.map Prod.snd

def size (d : Dict κ α) : Nat := d.entries.length

def isEmpty (d : Dict κ α) : Bool := d.entries.isEmpty

/-- The entries that pass a test. -/
def filter (d : Dict κ α) (p : κ → α → Bool) : Dict κ α where
  entries := d.entries.filter fun e => p e.1 e.2
  nodup := d.nodup.sublist ((List.filter_sublist).map _)

variable [DecidableEq κ]

def get? (d : Dict κ α) (k : κ) : Option α := (d.entries.find? (·.1 = k)).map Prod.snd

def contains (d : Dict κ α) (k : κ) : Bool := (d.get? k).isSome

def erase (d : Dict κ α) (k : κ) : Dict κ α := d.filter fun k' _ => k' ≠ k

def insert (d : Dict κ α) (k : κ) (v : α) : Dict κ α where
  entries := (k, v) :: (d.erase k).entries
  nodup := by
    have h := (d.erase k).nodup
    simp only [List.map_cons, List.nodup_cons]
    exact ⟨by simp [erase, filter], h⟩

def ofList (l : List (κ × α)) : Dict κ α := l.foldl (fun d e => d.insert e.1 e.2) ∅

/-! ### Lookups -/

@[simp] theorem get?_empty (k : κ) : (∅ : Dict κ α).get? k = none := rfl

/-- As no key occurs twice, lookups find exactly the entries. -/
theorem mem_entries_iff {d : Dict κ α} {k : κ} {v : α} :
    (k, v) ∈ d.entries ↔ d.get? k = some v := by
  obtain ⟨l, h⟩ := d
  simp only [get?]
  induction l with
  | nil => simp
  | cons e l ih =>
    obtain ⟨k', v'⟩ := e
    simp only [List.map_cons, List.nodup_cons] at h
    by_cases hk : k' = k
    · subst hk
      have hm : (k', v) ∉ l := fun hm => h.1 (List.mem_map.2 ⟨_, hm, rfl⟩)
      simp [hm, eq_comm]
    · simp [hk, ih h.2, Ne.symm hk]

theorem get?_erase (d : Dict κ α) (k k' : κ) :
    (d.erase k).get? k' = if k = k' then none else d.get? k' := by
  have hf : (fun e : κ × α => !decide (e.1 = k) && decide (e.1 = k')) =
      fun e => !decide (k = k') && decide (e.1 = k') := by
    funext e
    by_cases he : e.1 = k' <;> simp [he, eq_comm]
  by_cases h : k = k' <;> simp [get?, erase, filter, List.find?_filter, hf, h]

theorem get?_insert (d : Dict κ α) (k k' : κ) (v : α) :
    (d.insert k v).get? k' = if k = k' then some v else d.get? k' := by
  by_cases h : k = k'
  · simp [get?, insert, h]
  · have he := d.get?_erase k k'
    simp only [h, if_false] at he ⊢
    rw [← he]
    simp [get?, insert, h]

end Dict

end Logging
