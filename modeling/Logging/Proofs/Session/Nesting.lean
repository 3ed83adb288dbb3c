import Mathlib.Logic.Function.Iterate
import Mathlib.Tactic.Common
import Logging.Pattern.Compiled
import Logging.Proofs.Filter.Nesting
import Logging.Proofs.Session.Registrations

/-!
# Nesting of filters that were read

A text is read if it is nested at most `maxNesting` deep, where a name counts as one. But the
evaluation of a name is that of the filter that it stands for, and so evaluations are nested up to
`maxNesting` deep for each text on the way: for the one that was read, and for those that the names
in it lead to (`nested_steps`). That many there may be, and each registration may add one more
(`exists_nested`).
-/

namespace Logging

open Expression

/-! ### Filters that were read -/

namespace Filter

variable {π : Type} {k d d' : Nat} {f : Filter π} {name : String}

/-- The filter has names in each other up to `k` times, and rises by `maxNesting` for each of them
and by `d` besides. -/
structure Bounded (k d : Nat) (f : Filter π) : Prop where
  hops : f.hops ≤ k
  height : f.height ≤ maxNesting * f.hops + d

lemma Bounded.mono (h : f.Bounded k d) (hd : d ≤ d') : f.Bounded k d' :=
  ⟨h.hops, h.height.trans (Nat.add_le_add_left hd _)⟩

lemma Bounded.not (h : f.Bounded k d) : (Filter.not f).Bounded k (d + 1) :=
  ⟨h.hops, Nat.succ_le_succ h.height⟩

/-- A name rises by itself and by all that it stands for. -/
lemma Bounded.reference (h : f.Bounded k maxNesting) (name : String) :
    (Filter.reference name f).Bounded (k + 1) 1 := by
  have hheight := h.height
  refine ⟨Nat.succ_le_succ h.hops, ?_⟩
  rw [Filter.height, Filter.hops, Nat.mul_succ]
  omega

/-- A filter was read from a text, in which names stood for filters that were read before, up to `k`
texts one after the other. -/
inductive ReadIn [Pattern.Engine] : Nat → Filter π → Prop
  | parse {k : Nat} {names : Resolver π} {text : String} {f : Filter π}
    (hnames : ∀ n g, names.filter? n = some g → ReadIn k g) (h : parse names text = .ok f) :
    ReadIn (k + 1) f

lemma ReadIn.mono [Pattern.Engine] {k' : Nat} (h : f.ReadIn k) (hk : k ≤ k') : f.ReadIn k' := by
  induction h generalizing k' with
  | parse _ hp ih =>
    cases k' with
    | zero => cases hk
    | succ k' => exact .parse (fun n g hg => ih n g hg (Nat.le_of_succ_le_succ hk)) hp

end Filter

namespace Expression.Expr

variable {π : Type} [Pattern.Engine] {names : Resolver π} {k : Nat}

mutual

/-- A filter rises as its tree does, apart from what its names stand for. -/
lemma bounded_of_denote? (hnames : ∀ n g, names.filter? n = some g → (g.registeredAs n).Bounded k 1)
    (e : Expr) {f : Filter π} (hf : e.denote? names = some f) : f.Bounded k e.depth := by
  cases e with
  | accept | deny =>
    cases hf
    exact ⟨Nat.zero_le _, Nat.le_refl 1⟩
  | not e =>
    obtain ⟨g, hg, rfl⟩ := Option.map_eq_some_iff.1 hf
    exact (bounded_of_denote? hnames e hg).not
  | all es | any es =>
    obtain ⟨gs, hgs, rfl⟩ := Option.map_eq_some_iff.1 hf
    obtain ⟨hhops, hheight⟩ := bounded_of_denoteList? hnames es hgs
    exact ⟨hhops, Nat.succ_le_succ hheight⟩
  | levels | levelChange | «match» | substitute =>
    obtain ⟨_, -, rfl⟩ := Option.map_eq_some_iff.1 hf
    exact ⟨Nat.zero_le _, Nat.le_refl 1⟩
  | levelRange minIn min max maxIn =>
    obtain ⟨_, -, hf⟩ := Option.bind_eq_some_iff.1 hf
    obtain ⟨_, -, hf⟩ := Option.bind_eq_some_iff.1 hf
    cases hf
    exact ⟨Nat.zero_le _, Nat.le_refl 1⟩
  | ident n =>
    obtain ⟨g, hg, rfl⟩ := Option.map_eq_some_iff.1 hf
    exact hnames n g hg

lemma bounded_of_denoteList?
    (hnames : ∀ n g, names.filter? n = some g → (g.registeredAs n).Bounded k 1) (es : List Expr)
    {fs : List (Filter π)} (hf : denoteList? names es = some fs) : Filter.hopsList fs ≤ k ∧
      Filter.heightList fs ≤ maxNesting * Filter.hopsList fs + depthList es := by
  cases es with
  | nil =>
    cases hf
    exact ⟨Nat.zero_le _, Nat.le_refl 0⟩
  | cons e es =>
    obtain ⟨g, hg, hf⟩ := Option.bind_eq_some_iff.1 hf
    obtain ⟨gs, hgs, hf⟩ := Option.bind_eq_some_iff.1 hf
    cases hf
    have hhead := bounded_of_denote? hnames e hg
    obtain ⟨hhops, hheight⟩ := bounded_of_denoteList? hnames es hgs
    refine ⟨max_le hhead.hops hhops, max_le (hhead.height.trans ?_) (hheight.trans ?_)⟩
    · exact Nat.add_le_add (Nat.mul_le_mul_left _ (le_max_left ..)) (le_max_left ..)
    · exact Nat.add_le_add (Nat.mul_le_mul_left _ (le_max_right ..)) (le_max_right ..)

end

/-- What is only a name is not deep. -/
lemma depth_eq_one_of_denote? {e : Expr} {n : String} {g : Filter π}
    (hf : e.denote? names = some (.reference n g)) : e.depth = 1 := by
  cases e with
  | not | all | any =>
    obtain ⟨_, -, h⟩ := Option.map_eq_some_iff.1 hf
    cases h
  | _ => rfl

/-- A filter that is looked up under a name has one more name around it, unless it is but a name. -/
lemma bounded_registeredAs_of_denote?
    (hnames : ∀ n g, names.filter? n = some g → (g.registeredAs n).Bounded k 1) {e : Expr}
    (hd : e.depth ≤ maxNesting) {f : Filter π} (hf : e.denote? names = some f) (name : String) :
    (f.registeredAs name).Bounded (k + 1) 1 := by
  have hb := bounded_of_denote? hnames e hf
  cases f with
  | named => exact ⟨Nat.zero_le _, Nat.le_refl 1⟩
  | reference n g =>
    -- the new name takes the place of the old one, which was all that the text had
    rw [depth_eq_one_of_denote? hf] at hb
    exact ⟨hb.hops.trans (Nat.le_succ k), hb.height⟩
  | _ => exact (hb.mono hd).reference name

end Expression.Expr

namespace Filter.ReadIn

variable {π : Type} [Pattern.Engine] {k : Nat} {f : Filter π}

lemma bounded_registeredAs (h : f.ReadIn k) (name : String) :
    (f.registeredAs name).Bounded k 1 := by
  induction h generalizing name with
  | parse _ hp ih =>
    obtain ⟨_, -, e, ⟨-, hd⟩, hf⟩ := parse_eq_ok_iff.1 hp
    exact Expr.bounded_registeredAs_of_denote? (fun n g hg => ih n g hg n) hd hf name

lemma bounded (h : f.ReadIn (k + 1)) : f.Bounded k maxNesting := by
  cases h with
  | parse hnames hp =>
    obtain ⟨_, -, e, ⟨-, hd⟩, hf⟩ := parse_eq_ok_iff.1 hp
    have hb := Expr.bounded_of_denote? (fun n g hg => (hnames n g hg).bounded_registeredAs n) e hf
    exact hb.mono hd

/-- No text makes a predicate. -/
lemma predicates_eq_nil (h : f.ReadIn k) : f.predicates = [] := by
  induction h with
  | parse _ hp ih =>
    obtain ⟨_, -, e, -, hf⟩ := parse_eq_ok_iff.1 hp
    refine List.eq_nil_iff_forall_not_mem.2 fun p hp => ?_
    obtain ⟨n, g, hg, hpg⟩ := Expr.predicates_of_denote? e hf hp
    rw [ih n g hg] at hpg
    cases hpg

end Filter.ReadIn

/-! ### Runs in which filters are read before they are registered -/

/-- The step registers a filter. -/
def Step.registersFilter : Step → Bool
  | registerFilter _ _ => true
  | _ => false

namespace Session

variable {s : Session} {calls : Calls} {depth k : Nat} {steps steps' : List Step}
  {name text : String} {f : NodeFilter}

/-- Each filter that is registered was read by the session, then or earlier, or else was read before
the run began, in up to `k` texts one after the other. -/
def RegistersRead [Pattern.Engine] (calls : Calls) (k : Nat) (s : Session)
    (steps : List Step) : Prop :=
  ∀ before name spec after f, steps = before ++ .registerFilter name spec :: after →
    (s.steps calls before).2.buildFilter spec = .ok f →
      f.ReadIn k ∨ ∃ earlier text, earlier <+: before ∧
        (s.steps calls earlier).2.parseFilter text = .ok f

lemma RegistersRead.of_prefix [Pattern.Engine] (h : s.RegistersRead calls k steps)
    (hp : steps' <+: steps) :
    s.RegistersRead calls k steps' := by
  obtain ⟨rest, rfl⟩ := hp
  rintro before name spec after f rfl hb
  exact h before name spec (after ++ rest) f (List.append_assoc ..) hb

/-- What is registered as an expression is read when it is. -/
lemma registersRead_of_expressions [Pattern.Engine]
    (h : ∀ name spec, .registerFilter name spec ∈ steps → ∃ text, spec = .expression text) :
    s.RegistersRead calls k steps := by
  rintro before name spec after f rfl hb
  obtain ⟨text, rfl⟩ := h name spec (by simp)
  refine Or.inr ⟨before, text, List.prefix_rfl, ?_⟩
  rw [buildFilter] at hb
  cases hp : (s.steps calls before).2.parseFilter text with
  | error e =>
    rw [hp] at hb
    cases hb
  | ok g =>
    rw [hp] at hb
    cases hb
    rfl

/-- What a name stands for was read in no more texts than were there from the start and have been
registered since. -/
lemma readIn_of_names [Pattern.Engine] {steps : List Step} {name : String} {f : NodeFilter}
    (hs : ∀ n g, s.Names n g → g.ReadIn k) (hreg : s.RegistersRead (Calls.within depth) k steps)
    (h : (s.steps (Calls.within depth) steps).2.Names name f) :
    f.ReadIn (k + steps.countP Step.registersFilter) := by
  obtain hstart | ⟨before, spec, after, hsteps, hb⟩ := names_steps s steps h
  · exact (hs name f hstart).mono (Nat.le_add_right ..)
  obtain hk | ⟨earlier, text, hearlier, hp⟩ := hreg before name spec after f hsteps hb
  · exact hk.mono (Nat.le_add_right ..)
  -- the text was read after a shorter run, and what its names stood for then is known by induction
  have hprefix : earlier <+: steps := hsteps ▸ hearlier.trans (List.prefix_append ..)
  have hlength : earlier.length < steps.length := by
    have := hearlier.length_le
    rw [hsteps, List.length_append, List.length_cons]
    omega
  have hnames : ∀ n g, (s.steps (Calls.within depth) earlier).2.Names n g →
      g.ReadIn (k + earlier.countP Step.registersFilter) := fun n g hg =>
    readIn_of_names hs (hreg.of_prefix hprefix) hg
  refine (Filter.ReadIn.parse hnames (parseFilter_eq_ok_iff.1 hp)).mono ?_
  have hcount := hearlier.sublist.countP_le (p := Step.registersFilter)
  simp only [hsteps, List.countP_append, List.countP_cons, Step.registersFilter, if_true]
  omega
termination_by steps.length

/-! ### Towers of negations -/

/-- A text within some negations. -/
def negated : Nat → String → String
  | 0, text => text
  | k + 1, text => "not" ++ "(" ++ negated k text ++ ")"

section

variable {e : Expr} {us : List Token} {π : Type} {names : Resolver π} {g : Filter π}

lemma exists_derives_negated (he : Derives e us) (hw : Filter.Writes text us) (k : Nat) :
    ∃ us', Derives (Expr.not^[k] e) us' ∧ Filter.Writes (negated k text) us' := by
  induction k with
  | zero => exact ⟨us, he, hw⟩
  | succ k ih =>
    obtain ⟨us', he', hw'⟩ := ih
    rw [Function.iterate_succ_apply']
    exact ⟨_, he'.not, hw'.call (by decide)⟩

lemma depth_not_iterate (e : Expr) (k : Nat) : (Expr.not^[k] e).depth = e.depth + k := by
  induction k with
  | zero => rfl
  | succ k ih => rw [Function.iterate_succ_apply', Expr.depth, ih, Nat.add_assoc]

lemma denote?_not_iterate [Pattern.Engine] (hg : e.denote? names = some g) (k : Nat) :
    (Expr.not^[k] e).denote? names = some (Filter.not^[k] g) := by
  induction k with
  | zero => exact hg
  | succ k ih =>
    rw [Function.iterate_succ_apply', Function.iterate_succ_apply', Expr.denote?, ih,
      Option.map_some]

/-- Negations can be written up to the bound. -/
lemma parse_negated [Pattern.Engine] (he : Derives e us) (hw : Filter.Writes text us)
    (hg : e.denote? names = some g) (hd : e.depth + k ≤ maxNesting) : parse names
    (negated k text) = .ok (Filter.not^[k] g) := by
  obtain ⟨us', he', hw'⟩ := exists_derives_negated he hw k
  have hlexes := hw' [] [] (fun _ hc => nomatch hc) lexes_nil
  rw [List.append_nil, List.append_nil] at hlexes
  obtain ⟨ts, hts, rfl⟩ := tokenize_of_lexes hlexes
  refine parse_eq_ok_iff.2 ⟨ts, hts, _, ⟨he', ?_⟩, denote?_not_iterate hg k⟩
  rwa [depth_not_iterate]

lemma hops_not_iterate (g : Filter π) (k : Nat) : (Filter.not^[k] g).hops = g.hops := by
  induction k with
  | zero => rfl
  | succ k ih => rw [Function.iterate_succ_apply', Filter.hops, ih]

/-- Each negation is one evaluation more. -/
lemma exists_evaluateNested_not_iterate {m : Type → Type} [Monad m] [LawfulMonad m]
    {call : π → Record → m Filter.Outcome} {r : Record} {o : Filter.Outcome} {d : Nat}
    (h : g.evaluateNested call r = pure (o, d)) (k : Nat) :
    ∃ o, (Filter.not^[k] g).evaluateNested call r = pure (o, d + k) := by
  induction k with
  | zero => exact ⟨o, h⟩
  | succ k ih =>
    obtain ⟨o', ih⟩ := ih
    rw [Function.iterate_succ_apply']
    exact ⟨(!o'.1, o'.2), by simp [Filter.evaluateNested, ih, Nat.add_assoc]⟩

end

/-- The text of the lowest storey, and of those above it, where `f` stands for the one below. -/
def storey : Nat → String
  | 0 => negated (maxNesting - 1) "accept"
  | _ + 1 => negated (maxNesting - 1) "f"

/-- The filter that is read for a storey when all storeys below it were registered. -/
def tower : Nat → NodeFilter
  | 0 => Filter.not^[maxNesting - 1] .accept
  | k + 1 => Filter.not^[maxNesting - 1] (.reference "f" (tower k))

/-- Register storeys from the ground up, all under the same name. -/
def climb : Nat → List Step
  | 0 => []
  | k + 1 => climb k ++ [.registerFilter "f" (.expression (storey k))]

lemma length_climb (k : Nat) : (climb k).length = k := by
  induction k with
  | zero => rfl
  | succ k ih => rw [climb, List.length_append, ih, List.length_singleton]

lemma registersRead_climb [Pattern.Engine] (calls : Calls) (s : Session) (k : Nat) :
    s.RegistersRead calls 0 (climb k) := by
  refine registersRead_of_expressions fun name spec h => ?_
  induction k with
  | zero => cases h
  | succ k ih =>
    obtain h | h := List.mem_append.1 h
    · exact ih h
    · cases List.mem_singleton.1 h
      exact ⟨storey k, rfl⟩

lemma registeredAs_tower (k : Nat) : (tower k).registeredAs "f" = .reference "f" (tower k) := by
  cases k <;> rfl

/-- On each storey the next one can be read, as the name stands for all that is below. -/
lemma parseFilter_storey [Pattern.Engine] (calls : Calls) (s : Session) (hs : s.scope?.isSome)
    (k : Nat) :
    (s.steps calls (climb k)).2.scope?.isSome ∧
      (s.steps calls (climb k)).2.parseFilter (storey k) = .ok (tower k) := by
  induction k with
  | zero =>
    have haccept : Filter.Writes "accept" [.ident "accept"] :=
      Filter.writes_ident (Filter.isIdentifier_of_mem_keywords (by decide))
    exact ⟨hs, parseFilter_eq_ok_iff.2 (parse_negated .accept haccept rfl (Nat.le_refl 64))⟩
  | succ k ih =>
    obtain ⟨hscope, hp⟩ := ih
    have hb : (s.steps calls (climb k)).2.buildFilter (.expression (storey k)) = .ok (tower k) := by
      rw [buildFilter, hp]
      rfl
    obtain ⟨s', hstep, hr⟩ := step_registerFilter hscope hb calls "f"
    have hsteps : (s.steps calls (climb (k + 1))).2 = s' := by
      rw [climb, steps_append]
      exact congrArg Prod.snd hstep
    have hname : s'.Names "f" (tower k) := by
      rw [Names, hr, Resolver.filter?_define, if_pos rfl]
    have hf : Filter.Writes "f" [.ident "f"] := Filter.writes_ident (by decide +kernel)
    have hdenote : (Expr.ident "f").denote? s'.resolver = some (.reference "f" (tower k)) := by
      rw [Expr.denote?, hname, Option.map_some, registeredAs_tower]
    rw [hsteps]
    exact ⟨hname.scope, parseFilter_eq_ok_iff.2
      (parse_negated (.ident (by decide)) hf hdenote (Nat.le_refl 64))⟩

lemma hops_tower (k : Nat) : (tower k).hops = k := by
  induction k with
  | zero => exact hops_not_iterate _ _
  | succ k ih => rw [tower, hops_not_iterate, Filter.hops, ih]

/-- All evaluations of a tower go down to the ground. -/
lemma exists_evaluateNested_tower {m : Type → Type} [Monad m] [LawfulMonad m]
    (call : BoundPredicate → Record → m Filter.Outcome) (r : Record) (k : Nat) :
    ∃ o, (tower k).evaluateNested call r = pure (o, maxNesting * (k + 1)) := by
  induction k with
  | zero => exact exists_evaluateNested_not_iterate (d := 1) (pure_bind _ _) _
  | succ k ih =>
    obtain ⟨o, ih⟩ := ih
    have hname : (Filter.reference "f" (tower k)).evaluateNested call r =
        pure (o, maxNesting * (k + 1) + 1) := by
      rw [Filter.evaluateNested, ih, pure_bind]
    obtain ⟨o', h⟩ := exists_evaluateNested_not_iterate hname (maxNesting - 1)
    exact ⟨o', h⟩

/-! ### How deep evaluations are nested -/

/-- Evaluations of a filter that was read are nested at most `maxNesting` deep, and once more as
deep for each name that lies within others: at most so often as filters were registered, and not at
all where no name is used. -/
theorem nested_steps [Pattern.Engine] (m : Type → Type) [Monad m] [LawfulMonad m] (depth k : Nat)
    (strong : Bool) (baseline : Level) (levels : List Level) (filters : List (String × NodeFilter))
    (steps : List Step) (hfilters : ∀ e ∈ filters, e.2.ReadIn k)
    (hreg : (new strong baseline levels filters).RegistersRead (Calls.within depth) k steps)
    (hf : ((new strong baseline levels filters).steps (Calls.within depth) steps).2.parseFilter
      text = .ok f) :
    f.hops ≤ k + steps.countP Step.registersFilter ∧
      ∀ (call : BoundPredicate → Record → m Filter.Outcome) (r : Record),
        ∃ o d, f.evaluateNested call r = pure (o, d) ∧ f.evaluate call r = pure o ∧
          d ≤ maxNesting * (f.hops + 1) := by
  have hnew : ∀ n g, (new strong baseline levels filters).Names n g → g.ReadIn k :=
    fun n g hg => hfilters (n, g) (mem_of_names_new hg)
  have hread := Filter.ReadIn.parse (fun n g hg => readIn_of_names hnew hreg hg)
    (parseFilter_eq_ok_iff.1 hf)
  refine ⟨hread.bounded.hops, fun call r => ?_⟩
  obtain ⟨o, d, he, hd⟩ := Filter.exists_evaluateNested call f hread.predicates_eq_nil r
  refine ⟨o, d, he, ?_, hd.trans hread.bounded.height⟩
  rw [← Filter.outcome_evaluateNested, he, map_pure]

open scoped Pattern.Searching in
/-- A text that is as deep as it may be and uses the name of another such text. -/
theorem nested_steps_tower :
    ∃ f, ((new true .info [] []).steps (Calls.within 0)
        [.registerFilter "f" (.expression (negated 63 "accept"))]).2.parseFilter
          (negated 63 "f") = .ok f ∧ f.hops ≤ 1 ∧
      ∀ (call : BoundPredicate → Record → Id Filter.Outcome) (r : Record),
        ∃ o d, f.evaluateNested call r = pure (o, d) ∧ f.evaluate call r = pure o ∧
          d ≤ maxNesting * (f.hops + 1) := by
  have hp := (parseFilter_storey (Calls.within 0) (new true .info [] []) rfl 1).2
  exact ⟨tower 1, hp, nested_steps Id 0 0 true .info [] [] (climb 1) nofun
    (registersRead_climb _ _ 1) hp⟩

open scoped Pattern.Searching in
/-- Both texts are read, as neither is nested deeper than it may be, and all evaluations of what is
read are. -/
theorem not_nested_le_maxNesting :
    (new true .info [] []).RegistersRead (Calls.within 0) 0
        [.registerFilter "f" (.expression (negated 63 "accept"))] ∧
      ∃ f, ((new true .info [] []).steps (Calls.within 0)
          [.registerFilter "f" (.expression (negated 63 "accept"))]).2.parseFilter
            (negated 63 "f") = .ok f ∧
        ∀ (call : BoundPredicate → Record → Id Filter.Outcome) (r : Record),
          ∃ o d, f.evaluateNested call r = pure (o, d) ∧ maxNesting < d :=
  ⟨registersRead_climb _ _ 1, tower 1,
    (parseFilter_storey (Calls.within 0) (new true .info [] []) rfl 1).2, fun call r =>
      have ⟨o, h⟩ := exists_evaluateNested_tower call r 1
      ⟨o, 128, h, by decide⟩⟩

/-- However many filters are registered, they may all be evaluated within each other: no bound on
the nesting of evaluations holds for all runs. -/
theorem exists_nested [Pattern.Engine] (calls : Calls) (s : Session) (hs : s.scope?.isSome)
    (k : Nat) :
    ∃ steps text f, steps.length = k ∧ s.RegistersRead calls 0 steps ∧
      (s.steps calls steps).2.parseFilter text = .ok f ∧ f.hops = k ∧
      ∀ (m : Type → Type) [Monad m] [LawfulMonad m]
        (call : BoundPredicate → Record → m Filter.Outcome) (r : Record),
        ∃ o, f.evaluateNested call r = pure (o, maxNesting * (k + 1)) :=
  ⟨climb k, storey k, tower k, length_climb k, registersRead_climb calls s k,
    (parseFilter_storey calls s hs k).2, hops_tower k,
    fun _ _ _ call r => exists_evaluateNested_tower call r k⟩

end Session

end Logging
