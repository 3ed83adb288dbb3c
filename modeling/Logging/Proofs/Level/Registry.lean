import Logging.Level.Registry
import Logging.Proofs.Data.Dict

/-!
# Levels under their names

Every level of a registry is registered under its own name, so a lookup answers a level of the name
that was asked for.
-/

namespace Logging.LevelRegistry

/-- Each entry is one of a level of that name. -/
def Named (r : LevelRegistry) : Prop :=
  ∀ n e, r.entries.get? n = some e → e.level.name = n

variable {r : LevelRegistry} {l : Level} {alive : Nat → Bool}

lemma Named.sweep (h : r.Named) : (r.sweep alive).Named :=
  fun n e he => h n e (Dict.get?_of_get?_filter he)

lemma Named.insert (h : r.Named) {e : LevelEntry} (he : e.level = l) :
    Named ⟨r.entries.insert l.name e⟩ := by
  intro n e' hn
  rw [Dict.get?_insert] at hn
  split_ifs at hn with hl
  · cases hn
    simp [he, hl]
  · exact h n e' hn

lemma Named.register (h : r.Named) (l : Level) : (r.register alive l).Named := h.sweep.insert rfl

lemma Named.registerWeak (h : r.Named) (owned : Nat) (l : Level) :
    (r.registerWeak alive owned l).Named := h.sweep.insert rfl

lemma Named.unregister (h : r.Named) (name : String) : (r.unregister name).2.Named := by
  intro n e he
  have he' : (r.entries.erase name).get? n = some e := he
  rw [Dict.get?_erase] at he'
  split_ifs at he'
  exact h n e he'

lemma Named.foldl_register (h : r.Named) (ls : List Level) :
    (ls.foldl (fun r l => r.register alive l) r).Named := by
  induction ls generalizing r with
  | nil => exact h
  | cons l ls ih => exact ih (h.register l)

lemma named_standard : standard.Named := by
  have h : ∀ (ls : List Level) (r : LevelRegistry), r.Named →
      Named ⟨(ls.map fun l => (l.name, LevelEntry.strong l)).foldl
        (fun d e => d.insert e.1 e.2) r.entries⟩ := by
    intro ls
    induction ls with
    | nil => exact fun _ h => h
    | cons l ls ih => exact fun r h => ih ⟨_⟩ (h.insert rfl)
  exact h Level.standard ⟨∅⟩ fun n e he => by cases he

lemma Named.name_of_find? (h : r.Named) {n : String} (hl : r.find? alive n = some l) :
    l.name = n := by
  rw [find?] at hl
  split at hl
  · next e he =>
    split_ifs at hl
    cases hl
    exact h n e he
  · cases hl

end Logging.LevelRegistry
