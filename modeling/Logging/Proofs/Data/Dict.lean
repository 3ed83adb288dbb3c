import Mathlib.Data.List.Induction
import Mathlib.Tactic.Common
import Logging.Data.Dict

/-!
# Keys and values of dictionaries

Which keys and values a dictionary has, and what lookups find in a dictionary that was filtered.
-/

namespace Logging.Dict

variable {κ α : Type} [DecidableEq κ] {d : Dict κ α} {k : κ} {a : α}

lemma mem_values_iff : a ∈ d.values ↔ ∃ k, d.get? k = some a := by
  simp only [values, List.mem_map, Prod.exists, exists_eq_right, mem_entries_iff]

lemma mem_keys_iff : k ∈ d.keys ↔ ∃ a, d.get? k = some a := by
  simp only [keys, List.mem_map, Prod.exists, exists_and_right, exists_eq_right, mem_entries_iff]

lemma get?_filter (d : Dict κ α) (p : κ → α → Bool) (k : κ) :
    (d.filter p).get? k = (d.get? k).filter (p k) := by
  ext a
  rw [← mem_entries_iff, filter, List.mem_filter, mem_entries_iff, Option.filter_eq_some_iff]

lemma get?_of_get?_filter {p : κ → α → Bool} (h : (d.filter p).get? k = some a) :
    d.get? k = some a := by
  rw [get?_filter, Option.filter_eq_some_iff] at h
  exact h.1

lemma mem_of_get?_ofList {l : List (κ × α)} (h : (ofList l).get? k = some a) : (k, a) ∈ l := by
  induction l using List.reverseRecOn with
  | nil => cases h
  | append_singleton l e ih =>
    rw [ofList, List.foldl_append, List.foldl_cons, List.foldl_nil, get?_insert] at h
    split_ifs at h with he
    · cases h
      simp [← he]
    · exact List.mem_append_left _ (ih h)

end Logging.Dict
