import Logging.Proofs.Session.FullNames
import Logging.Proofs.Tree.Lookups

/-!
# Lookups in a session

In a session that comes about by steps of a client, nodes are entered under their names below their
parents, and a name is looked up from any node piece by piece: `Run.find?` says where that leads and
changes nothing, and `Run.getOrCreate` adds the nodes that are missing and changes nothing else.
-/

namespace Logging.Session

open Run

variable {s : Session} {n m : NodeId} {name k : String} {q rest : List String}

/-- What lookups of names do. -/
structure Lookups (s : Session) : Prop where
  /-- A lookup changes nothing and answers where the pieces of the name lead. -/
  find : ∀ n name, ∃ m?, (Run.find? n name).run s = (.ok m?, s) ∧
    (∀ m, m? = some m ↔ s.tree.Follows n (Path.pieces name) m) ∧
    (m? = none ↔ ∃ q m k rest, Path.pieces name = q ++ k :: rest ∧ s.tree.Breaks n q m k)
  /-- A node that is there is not made again. -/
  create_present : ∀ n m name, s.tree.Follows n (Path.pieces name) m →
    (Run.getOrCreate n name).run s = (.ok m, s)
  /-- From the last node that is there on, the nodes of the path are added. -/
  create_missing : ∀ n name q m k rest, s.tree.contains n → Path.pieces name = q ++ k :: rest →
    s.tree.Breaks n q m k → ∃ t, s.tree.Grown m k rest t ∧
      (Run.getOrCreate n name).run s =
        (.ok (s.tree.nodes.next + rest.length), { s with tree := t }) ∧
      t.Follows n (Path.pieces name) (s.tree.nodes.next + rest.length)
  find_eq_iff : ∀ n m m' x y, s.tree.Follows n (Path.pieces x) m →
    s.tree.Follows n (Path.pieces y) m' → (m = m' ↔ Path.pieces x = Path.pieces y)
  create_eq_iff : ∀ n x y, s.tree.contains n → ∃ m m' s' s'',
    (Run.getOrCreate n x).run s = (.ok m, s') ∧ (Run.getOrCreate n y).run s' = (.ok m', s'') ∧
      (m = m' ↔ Path.pieces x = Path.pieces y)
  create_append : ∀ n x y, x ≠ "" → x.toList.getLast? ≠ some '.' →
    (Run.getOrCreate n (x ++ "." ++ y)).run s =
      (Run.getOrCreate n x >>= fun m => Run.getOrCreate m y).run s

lemma run_find? (n : NodeId) (name : String) (s : Session) :
    (Run.find? n name).run s = (.ok (s.tree.find? n (Path.pieces name)), s) := by
  rw [← Path.ofString_eq_pieces]
  rfl

lemma run_getOrCreate_pieces (n : NodeId) (name : String) (s : Session) :
    (Run.getOrCreate n name).run s = (.ok (s.tree.getOrCreate n (Path.pieces name)).1,
      { s with tree := (s.tree.getOrCreate n (Path.pieces name)).2 }) := by
  rw [← Path.ofString_eq_pieces]
  rfl

lemma create_missing (ht : s.tree.WellShaped) (hn : s.tree.contains n)
    (hname : Path.pieces name = q ++ k :: rest) (hq : s.tree.Breaks n q m k) :
    ∃ t, s.tree.Grown m k rest t ∧ (Run.getOrCreate n name).run s =
        (.ok (s.tree.nodes.next + rest.length), { s with tree := t }) ∧
      t.Follows n (Path.pieces name) (s.tree.nodes.next + rest.length) := by
  have hm := hq.follows.contains ht hn
  obtain ⟨hgrown, hend⟩ := Tree.grown_getOrCreate hm hq.missing rest
  have hmake : s.tree.getOrCreate n (Path.pieces name) = s.tree.getOrCreate m (k :: rest) := by
    rw [hname, Tree.getOrCreate_append hq.follows]
  have hfollows := Tree.follows_getOrCreate ht hn (Path.pieces name)
  rw [hmake, hend] at hfollows
  refine ⟨_, hgrown, ?_, hfollows⟩
  rw [run_getOrCreate_pieces, hmake, hend]

theorem lookups_of_wellShaped (ht : s.tree.WellShaped) : s.Lookups where
  find n name := ⟨_, run_find? n name s, fun _ => Tree.find?_eq_some_iff, Tree.find?_eq_none_iff⟩
  create_present n m name h := by
    rw [run_getOrCreate_pieces, Tree.getOrCreate_of_find? (Tree.find?_eq_some_iff.2 h)]
  create_missing _ _ _ _ _ _ := create_missing ht
  find_eq_iff n m m' x y hx hy := by
    constructor
    · rintro rfl
      exact hx.path_unique hy ht
    · intro h
      rw [h, ← Tree.find?_eq_some_iff] at hx
      rw [← Tree.find?_eq_some_iff, hx] at hy
      exact Option.some.inj hy
  create_eq_iff n x y hn := by
    refine ⟨_, _, _, _, run_getOrCreate_pieces n x s, run_getOrCreate_pieces n y _, ?_⟩
    exact Tree.getOrCreate_eq_iff ht hn (Path.pieces x) (Path.pieces y)
  create_append n x y hx hdot := by
    rw [run_bind, run_getOrCreate_pieces, run_getOrCreate_pieces, Path.pieces_append hx hdot,
      Tree.getOrCreate_getOrCreate]
    dsimp only
    rw [run_getOrCreate_pieces]

/-- After any steps, nodes stand under their names, and names are looked up piece by piece. -/
theorem lookups_steps [Pattern.Engine] (depth : Nat) (strong : Bool) (baseline : Level)
    (levels : List Level) (filters : List (String × NodeFilter)) (steps : List Step) :
    let s := ((new strong baseline levels filters).steps (Calls.within depth) steps).2
    s.tree.Laid ∧ s.Lookups := by
  have hnew := sound_new strong baseline levels filters
  have hsound := sound_steps depth strong baseline levels filters steps
  have hcourse := (conduct_all depth hnew steps).course
  have hspelled := hcourse.spelled hnew (spelled_new strong baseline levels filters)
  have ht := hsound.tree.toWellShaped
  exact ⟨Tree.laid ht hspelled.dotless hspelled.root, lookups_of_wellShaped ht⟩

end Logging.Session
