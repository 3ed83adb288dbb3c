import Logging.Pattern.Compiled
import Logging.Proofs.Filter.Dialogue
import Logging.Proofs.Session.Quiet
import Logging.Proofs.Session.Steps
import Logging.Proofs.Tree.Spare

/-!
# Chains of filters

The filters that apply at a node are those on the path that starts there and goes on to the parent
as long as nodes defer to it (`Tree.filterPath`). If they leave themselves alone while they run
(`Run.FiltersStay`), they work like a single filter that asks all of them
(`Run.unfolds_isLoggable`), although each is looked up only when its turn comes, and is held on to
while it runs.

Predicates may do what they like otherwise, and may answer differently each time, so the two can
only be compared for the same answers: what is asked in a run is put down with its answer
(`Run.exchanges`), and the single filter, given these answers, asks the same and ends in the same
way.
-/

namespace Logging

open Session

namespace Tree

variable {t : Tree} {n : NodeId} {path : List NodeId}

/-- A path upwards as far as nodes defer to the filters of their parents. -/
def deferring (t : Tree) : List NodeId → List NodeId
  | [] => []
  | n :: path => n :: if (t.node n).useParentFilters then t.deferring path else []

/-- The nodes whose filters apply at a node, itself first. -/
def filterPath (t : Tree) (n : NodeId) : List NodeId := t.deferring (t.lineage n)

/-- The filters that nodes have, where they have one. -/
def filtersOn (t : Tree) (ns : List NodeId) : List NodeFilter :=
  ns.flatMap fun n => (t.node n).filter?.toList

/-- A node that does not defer to its parent is left to its own filter. -/
lemma filterPath_of_not_useParentFilters (h : (t.node n).useParentFilters = false) :
    t.filterPath n = [n] := by
  obtain ⟨path, hpath⟩ := List.head?_eq_some_iff.1 (head?_lineage t n)
  simp [filterPath, hpath, deferring, h]

end Tree

/-! ### What is asked in a session -/

section

variable {α : Type} (calls : Calls)

/-- What is asked in a dialogue, and answered, from a session on. -/
def Dialogue.exchanges : Dialogue BoundPredicate α → Session → List (Exchange BoundPredicate Stop)
  | done _, _ => []
  | ask p r next, s =>
    let (answer, s') := (calls.predicate p r).run s
    ⟨p, r, answer⟩ :: match answer with
      | .ok o => (next o).exchanges s'
      | .error _ => []

namespace Run

/-- What the filter of a node asks. -/
def ownExchanges (n : NodeId) (r : Record) (s : Session) : List (Exchange BoundPredicate Stop) :=
  match (s.node n).filter? with
  | some f => (f.dialogue r).exchanges calls (lend s (refsOfFilter f))
  | none => []

/-- What the filters along a path ask: after a filter that accepts, the next one is asked if the
node of the first defers to its parent at that time. -/
def chainExchanges : List NodeId → Record → Session → List (Exchange BoundPredicate Stop)
  | [], _, _ => []
  | n :: path, r, s =>
    ownExchanges calls n r s ++ match (ownFilter calls n r).run s with
      | (.ok (true, r'), s') =>
        if (s'.node n).useParentFilters then chainExchanges path r' s' else []
      | _ => []

/-- What is asked of predicates when the filters that apply at a node are run. -/
def exchanges (n : NodeId) (r : Record) (s : Session) : List (Exchange BoundPredicate Stop) :=
  if (s.node n).useParentFilters then chainExchanges calls (s.tree.lineage n) r s
  else ownExchanges calls n r s

/-! ### Filters that stay -/

/-- The sessions that come about when the filters of some nodes are run, each as often as one
likes, in any order and on any records. -/
inductive Filtered (ns : List NodeId) (s : Session) : Session → Prop
  | start : Filtered ns s s
  | step {u n} (r : Record) : Filtered ns s u → n ∈ ns →
      Filtered ns s ((ownFilter calls n r).run u).2

/-- Running the filters of some nodes changes neither these filters nor whether the nodes defer to
their parents. -/
def FiltersStay (ns : List NodeId) (s : Session) : Prop :=
  ∀ u, Filtered calls ns s u → ∀ n ∈ ns,
    (u.node n).filter? = (s.node n).filter? ∧
      (u.node n).useParentFilters = (s.node n).useParentFilters

end Run

end

/-! ### Answers in a run -/

/-- The predicate gives this answer, in some session. -/
def Exchange.Genuine (calls : Calls) (e : Exchange BoundPredicate Stop) : Prop :=
  ∃ u, e.answer = ((calls.predicate e.predicate e.record).run u).1

namespace Dialogue

variable {α : Type} {calls : Calls}

/-- A dialogue unfolds as it is answered in a session. -/
lemma unfolds_exchanges (calls : Calls) (d : Dialogue BoundPredicate α) (s : Session) :
    d.Unfolds (d.exchanges calls s) ((d.run calls.predicate).run s).1 := by
  induction d generalizing s with
  | done a => exact .done a
  | ask p r next ih =>
    rw [exchanges, run, Run.run_bind]
    rcases (calls.predicate p r).run s with ⟨e | o, s'⟩
    · exact .broken
    · exact .answered (ih o s')

lemma genuine_of_mem_exchanges {d : Dialogue BoundPredicate α} {s : Session}
    {e : Exchange BoundPredicate Stop} (he : e ∈ d.exchanges calls s) : e.Genuine calls := by
  induction d generalizing s with
  | done a => cases he
  | ask p r next ih =>
    rw [exchanges] at he
    rcases hcall : (calls.predicate p r).run s with ⟨x | o, s'⟩
    · rw [hcall] at he
      obtain rfl := List.mem_singleton.1 he
      exact ⟨s, by rw [hcall]⟩
    · rw [hcall] at he
      rcases List.mem_cons.1 he with rfl | he
      · exact ⟨s, by rw [hcall]⟩
      · exact ih o he

end Dialogue

namespace Run

variable {calls : Calls} {n : NodeId} {r r' : Record} {s u : Session} {ns path : List NodeId}
  {e : Exchange BoundPredicate Stop}

/-- Filters that leave the tree alone stay. -/
lemma filtersStay_of_tree (h : ∀ u, Filtered calls ns s u → u.tree = s.tree) :
    FiltersStay calls ns s := by
  intro u hu n _
  simp only [Session.node, h u hu, and_self]

lemma run_ownFilter (n : NodeId) (r : Record) (s : Session) :
    (ownFilter calls n r).run s =
      match (s.node n).filter? with
      | some f => (borrowing (refsOfFilter f) (f.evaluate calls.predicate r)).run s
      | none => (.ok (true, r), s) := by
  change (match (s.node n).filter? with
    | some f => borrowing (refsOfFilter f) (f.evaluate calls.predicate r)
    | none => pure (true, r) : Run Filter.Outcome).run s = _
  cases (s.node n).filter? <;> rfl

/-- The filter of a node is evaluated as it stands, and a node without one lets everything pass. -/
lemma unfolds_ownFilter (calls : Calls) (n : NodeId) (r : Record) (s : Session) :
    ((Filter.all (s.node n).filter?.toList).dialogue r).Unfolds (ownExchanges calls n r s)
      ((ownFilter calls n r).run s).1 := by
  rw [run_ownFilter, ownExchanges]
  cases (s.node n).filter? with
  | none => exact .done _
  | some f =>
    have h := (f.dialogue r).unfolds_exchanges calls (lend s (refsOfFilter f))
    rw [Filter.run_dialogue] at h
    simpa [Filter.dialogue, Filter.evaluate, run_borrowing] using h

lemma genuine_of_mem_ownExchanges (he : e ∈ ownExchanges calls n r s) : e.Genuine calls := by
  rw [ownExchanges] at he
  cases hf : (s.node n).filter? with
  | none =>
    rw [hf] at he
    cases he
  | some f =>
    rw [hf] at he
    exact Dialogue.genuine_of_mem_exchanges he

lemma genuine_of_mem_chainExchanges (he : e ∈ chainExchanges calls path r s) :
    e.Genuine calls := by
  induction path generalizing r s with
  | nil => cases he
  | cons n path ih =>
    rw [chainExchanges] at he
    rcases List.mem_append.1 he with he | he
    · exact genuine_of_mem_ownExchanges he
    · split at he
      · split_ifs at he
        · exact ih he
        · cases he
      · cases he

/-- The answers in a run are given by the predicates that are asked. -/
lemma genuine_of_mem_exchanges (he : e ∈ exchanges calls n r s) : e.Genuine calls := by
  rw [exchanges] at he
  split_ifs at he
  · exact genuine_of_mem_chainExchanges he
  · exact genuine_of_mem_ownExchanges he

/-! ### Walks up -/

/-- One step up a chain: the filter of its first node, and what its verdict and the node say of
those behind. -/
lemma run_filterChain_cons (n : NodeId) (path : List NodeId) (r : Record) (s : Session) :
    (filterChain calls (n :: path) r).run s =
      match (ownFilter calls n r).run s with
      | (.ok (true, r'), s') =>
        if (s'.node n).useParentFilters then (filterChain calls path r').run s'
        else (.ok (true, r'), s')
      | out => out := by
  rw [filterChain, run_bind]
  rcases (ownFilter calls n r).run s with ⟨e | ⟨_ | _, r'⟩, s'⟩
  · rfl
  · rfl
  · change (if (s'.node n).useParentFilters then filterChain calls path r'
      else pure (true, r') : Run Filter.Outcome).run s' =
      if (s'.node n).useParentFilters then (filterChain calls path r').run s'
      else (.ok (true, r'), s')
    split_ifs <;> rfl

/-- A chain of filters that stay unfolds like one filter that asks all of them. The induction
follows the walk up, through sessions in which the filters of the whole chain are as at its
start. -/
lemma unfolds_filterChain (hs : FiltersStay calls ns s) (hu : Filtered calls ns s u)
    (hpath : s.tree.deferring path ⊆ ns) :
    ((Filter.all (s.tree.filtersOn (s.tree.deferring path))).dialogue r).Unfolds
      (chainExchanges calls path r u) ((filterChain calls path r).run u).1 := by
  induction path generalizing r u with
  | nil => exact .done _
  | cons n path ih =>
    have hn : n ∈ ns := hpath List.mem_cons_self
    have hown := unfolds_ownFilter calls n r u
    have hnext := hu.step r hn
    rw [(hs u hu n hn).1, Session.node] at hown
    rw [run_filterChain_cons, chainExchanges, Tree.deferring, Tree.filtersOn, List.flatMap_cons,
      Filter.dialogue_all_append]
    rcases hrun : (ownFilter calls n r).run u with ⟨e | ⟨_ | _, r'⟩, u'⟩
    · rw [hrun] at hown
      simp only [List.append_nil]
      exact hown.bind_broken
    · rw [hrun] at hown
      exact hown.bind (.done _)
    · rw [hrun] at hown hnext
      refine hown.bind ?_
      have hflag : (u'.node n).useParentFilters = (s.tree.node n).useParentFilters :=
        (hs u' hnext n hn).2
      simp only [hflag, ↓reduceIte]
      split_ifs with hup
      · refine ih hnext fun m hm => hpath ?_
        rw [Tree.deferring, if_pos hup]
        exact List.mem_cons_of_mem n hm
      · exact .done _

/-- A walk up that starts at a node which defers to nobody ends there. -/
lemma filterChain_of_not_useParentFilters (hs : FiltersStay calls (s.tree.filterPath n) s)
    (h : (s.node n).useParentFilters = false) :
    (filterChain calls (s.tree.lineage n) r).run s = (ownFilter calls n r).run s := by
  have hn : n ∈ s.tree.filterPath n := by
    rw [Tree.filterPath_of_not_useParentFilters h]
    exact List.mem_singleton_self n
  have hflag := (hs _ (Filtered.start.step r hn) n hn).2
  obtain ⟨path, hpath⟩ := List.head?_eq_some_iff.1 (Tree.head?_lineage s.tree n)
  rw [hpath, run_filterChain_cons]
  rcases hrun : (ownFilter calls n r).run s with ⟨e | ⟨_ | _, r'⟩, u⟩
  · rfl
  · rfl
  · rw [hrun, h] at hflag
    simp [hflag]

/-! ### Quiet filters stay -/

/-- Quiet filters leave the tree of a settled session alone. -/
lemma filtersStay_of_quiet (hcalls : CallsDetached calls) (hs : s.Settled)
    (hq : ∀ f ∈ s.tree.filtersOn ns, f.Quiet) : FiltersStay calls ns s := by
  have htold : ∀ u, Filtered calls ns s u → ∃ es, u = s.told es := by
    intro u hu
    induction hu with
    | start => exact ⟨[], (told_nil s).symm⟩
    | @step u n r _ hn ih =>
      obtain ⟨es, rfl⟩ := ih
      rw [run_ownFilter]
      cases hf : ((s.told es).node n).filter? with
      | none => exact ⟨es, rfl⟩
      | some f =>
        have hfq : f.Quiet := hq f (List.mem_flatMap.2 ⟨n, hn, by simp [← hf]; rfl⟩)
        obtain ⟨a, fs, heval⟩ := detached_evaluate hcalls f hfq r
        have hsettled : ((s.told es).told fs).Settled := hs.of_eq rfl rfl rfl rfl rfl rfl
        refine ⟨es ++ fs, ?_⟩
        simp only [run_borrowing, refsOfFilter_of_quiet hfq, heval, told_append]
        exact hsettled.settle_eq
  refine filtersStay_of_tree fun u hu => ?_
  obtain ⟨es, rfl⟩ := htold u hu
  rfl

/-! ### The chain as one filter -/

/-- The filters that apply at a node are run as one filter that asks all filters on the path up to
the first node that does not defer to its parent: what is asked is what this filter asks if it gets
the same answers, and the verdict and the record that is left are those that it gives then. Where
predicates always answer a record in the same way, it is evaluated to the same. Whether the walk up
is made or left out makes no difference to the run. If the record is rejected, then by the first
filter that rejects it, and nothing is asked of those above. -/
theorem unfolds_isLoggable (calls : Calls) (n : NodeId) (r : Record) (s : Session)
    (hs : FiltersStay calls (s.tree.filterPath n) s) :
    ((Filter.all (s.tree.filtersOn (s.tree.filterPath n))).dialogue r).Unfolds
        (exchanges calls n r s) ((isLoggable calls n r).run s).1 ∧
      (∀ call, (∀ p r u, ((calls.predicate p r).run u).1 = call p r) →
        ((isLoggable calls n r).run s).1 =
          (Filter.all (s.tree.filtersOn (s.tree.filterPath n))).evaluate call r) ∧
      (isLoggable calls n r).run s = (filterChain calls (s.tree.lineage n) r).run s ∧
      ∀ r', ((isLoggable calls n r).run s).1 = .ok (false, r') →
        ∃ lower f upper r₁ es₁ es₂,
          s.tree.filtersOn (s.tree.filterPath n) = lower ++ f :: upper ∧
          exchanges calls n r s = es₁ ++ es₂ ∧
          ((Filter.all lower).dialogue r).Unfolds es₁ (.ok (true, r₁)) ∧
          (f.dialogue r₁).Unfolds es₂ (.ok (false, r')) := by
  have hrun : (isLoggable calls n r).run s =
      (if (s.node n).useParentFilters then filterChain calls (s.tree.lineage n) r
        else ownFilter calls n r).run s := by
    change (if (s.node n).useParentFilters then _ else _ : Run Filter.Outcome).run s = _
    split_ifs <;> rfl
  have hunfolds : ((Filter.all (s.tree.filtersOn (s.tree.filterPath n))).dialogue r).Unfolds
      (exchanges calls n r s) ((isLoggable calls n r).run s).1 := by
    rw [hrun, exchanges]
    split_ifs with hup
    · exact unfolds_filterChain hs .start (List.Subset.refl _)
    · rw [Bool.not_eq_true] at hup
      rw [Tree.filterPath_of_not_useParentFilters hup]
      simpa [Tree.filtersOn, Session.node] using unfolds_ownFilter calls n r s
  refine ⟨hunfolds, fun call hcall => ?_, ?_, ?_⟩
  · rw [← Filter.run_dialogue]
    refine (hunfolds.run_eq fun e he => ?_).symm
    obtain ⟨u, hu⟩ := genuine_of_mem_exchanges he
    rw [hu, hcall]
  · rw [hrun]
    split_ifs with hup
    · rfl
    · rw [Bool.not_eq_true] at hup
      rw [filterChain_of_not_useParentFilters hs hup]
  · intro r' hr'
    rw [hr'] at hunfolds
    exact Filter.rejected_at hunfolds

open scoped Pattern.Searching in
/-- A record that the first filter of a chain changes and the last one rejects. -/
theorem unfolds_isLoggable_rejected :
    let s := ((Session.new false .info [] []).steps (Calls.within 1) [
      .logger "a" (some "a"), .logger "a.b" (some "b"), .root (some "r"),
      .setFilter "b" (some (.named "f" { actions := [.note "f"], append? := some "!" })),
      .setUseParentFilters "b" true, .setUseParentFilters "a" true,
      .setFilter "r" (some (.named "g" { verdict := false }))]).2
    let r : Record := { level := .info, message := "x" }
    FiltersStay (Calls.within 1) (s.tree.filterPath 2) s ∧ s.tree.filterPath 2 = [2, 1, 0] ∧
      ((isLoggable (Calls.within 1) 2 r).run s).1.toOption =
        some (false, { r with message := "x!" }) ∧
      ((Filter.all (s.tree.filtersOn (s.tree.filterPath 2))).dialogue r).Unfolds
        (exchanges (Calls.within 1) 2 r s) ((isLoggable (Calls.within 1) 2 r).run s).1 := by
  intro s r
  have hquiet : ∀ f ∈ s.tree.filtersOn (s.tree.filterPath 2), f.Quiet := by
    unfold Filter.Quiet
    decide +kernel
  have hs : FiltersStay (Calls.within 1) (s.tree.filterPath 2) s :=
    filtersStay_of_quiet (callsDetached_within 1) (orderly_steps 1 _ _ _ _ _).2 hquiet
  exact ⟨hs, by decide +kernel, by decide +kernel, (unfolds_isLoggable _ _ _ _ hs).1⟩

end Run

end Logging
