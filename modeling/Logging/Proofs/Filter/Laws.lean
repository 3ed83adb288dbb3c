import Mathlib.Tactic.Common
import Logging.Filter.Evaluate

/-!
# Laws of filters

Filters are told apart only by what they do with a record: by the verdict, by the record that they
leave, and by the predicates that they ask, on which records and in which order. Since evaluation
works in any monad, all of this is one equation: two filters are equivalent if they evaluate to the
same in every monad and for every way to call predicates (`Filter.Equivalent`). A monad may record
the calls, and change state or break off in them. In terms of the questions that filters ask,
`Filter.equivalent_iff` says the same.

Negation swaps `all` and `any` and undoes itself, nested lists of one kind flatten, and a list ends
at `deny` or `accept` (`Filter.Laws`). Order matters throughout, as the parts see the record as
those before left it, so no law moves a part.
-/

namespace Logging.Filter

variable {π : Type}

/-- The two filters cannot be told apart: whatever predicates do, on every record they give the same
verdict and leave the same record after the same calls. -/
def Equivalent (f g : Filter π) : Prop :=
  ∀ {m : Type → Type} [Monad m] [LawfulMonad m] (call : π → Record → m Outcome) (r : Record),
    f.evaluate call r = g.evaluate call r

/-- Whatever predicates do, each evaluation that comes to an end gives the verdict: it is not
changed by putting the verdict in its place. -/
def Always (verdict : Bool) (f : Filter π) : Prop :=
  ∀ {m : Type → Type} [Monad m] [LawfulMonad m] (call : π → Record → m Outcome) (r : Record),
    f.evaluate call r = (fun outcome => (verdict, outcome.2)) <$> f.evaluate call r

/-! ### Lists of filters -/

section

variable {m : Type → Type} [Monad m] [LawfulMonad m] {call : π → Record → m Outcome}
  {f : Filter π} {fs gs : List (Filter π)} {r : Record}

@[simp]
lemma evaluateAll_append :
    evaluateAll call (fs ++ gs) r = (do
      let (verdict, r) ← evaluateAll call fs r
      if verdict then evaluateAll call gs r else pure (false, r)) := by
  induction fs generalizing r with
  | nil => simp [evaluateAll]
  | cons f fs ih =>
    simp only [List.cons_append, evaluateAll, ih, bind_assoc]
    apply bind_congr
    rintro ⟨_ | _, r'⟩ <;> simp

@[simp]
lemma evaluateAny_append :
    evaluateAny call (fs ++ gs) r = (do
      let (verdict, r) ← evaluateAny call fs r
      if verdict then pure (true, r) else evaluateAny call gs r) := by
  induction fs generalizing r with
  | nil => simp [evaluateAny]
  | cons f fs ih =>
    simp only [List.cons_append, evaluateAny, ih, bind_assoc]
    apply bind_congr
    rintro ⟨_ | _, r'⟩ <;> simp

@[simp]
lemma evaluateAll_singleton : evaluateAll call [f] r = f.evaluate call r := by
  simp only [evaluateAll]
  conv_rhs => rw [← bind_pure (f.evaluate call r)]
  apply bind_congr
  rintro ⟨_ | _, r'⟩ <;> rfl

@[simp]
lemma evaluateAny_singleton : evaluateAny call [f] r = f.evaluate call r := by
  simp only [evaluateAny]
  conv_rhs => rw [← bind_pure (f.evaluate call r)]
  apply bind_congr
  rintro ⟨_ | _, r'⟩ <;> rfl

/-- A list accepts where the list of the negations does not, and the other way around. -/
lemma evaluateAny_map_not :
    evaluateAny call (fs.map not) r
      = (fun outcome => (!outcome.1, outcome.2)) <$> evaluateAll call fs r := by
  induction fs generalizing r with
  | nil => simp [evaluateAll, evaluateAny]
  | cons f fs ih =>
    simp only [List.map_cons, evaluateAny, evaluateAll, evaluate, bind_assoc, map_bind]
    apply bind_congr
    rintro ⟨_ | _, r'⟩ <;> simp [ih]

lemma evaluateAll_map_not :
    evaluateAll call (fs.map not) r
      = (fun outcome => (!outcome.1, outcome.2)) <$> evaluateAny call fs r := by
  induction fs generalizing r with
  | nil => simp [evaluateAll, evaluateAny]
  | cons f fs ih =>
    simp only [List.map_cons, evaluateAny, evaluateAll, evaluate, bind_assoc, map_bind]
    apply bind_congr
    rintro ⟨_ | _, r'⟩ <;> simp [ih]

end

/-! ### Parts and names -/

section

variable {f g : Filter π} {fs gs : List (Filter π)}

lemma Equivalent.refl (f : Filter π) : f.Equivalent f := fun _ _ => rfl

/-- What a filter is called is of no account. -/
lemma equivalent_registeredAs (name : String) (f : Filter π) :
    (f.registeredAs name).Equivalent f := by
  intro m _ _ call r
  cases f <;> simp only [registeredAs, evaluate]

lemma Equivalent.not (h : f.Equivalent g) : f.not.Equivalent g.not := by
  intro m _ _ call r
  simp only [evaluate, h call r]

lemma Equivalent.all (h : List.Forall₂ Equivalent fs gs) : (all fs).Equivalent (all gs) := by
  intro m _ _ call r
  simp only [evaluate]
  induction h generalizing r with
  | nil => rfl
  | cons hf _ ih => simp only [evaluateAll, hf call r, ih]

lemma Equivalent.any (h : List.Forall₂ Equivalent fs gs) : (any fs).Equivalent (any gs) := by
  intro m _ _ call r
  simp only [evaluate]
  induction h generalizing r with
  | nil => rfl
  | cons hf _ ih => simp only [evaluateAny, hf call r, ih]

end

/-! ### The laws -/

/-- The laws of negation, of lists within lists, and of lists that end early. -/
structure Laws (π : Type) : Prop where
  not_not : ∀ f : Filter π, (not (not f)).Equivalent f
  not_all : ∀ fs : List (Filter π), (not (all fs)).Equivalent (any (fs.map not))
  not_any : ∀ fs : List (Filter π), (not (any fs)).Equivalent (all (fs.map not))
  all_all : ∀ xs ys zs : List (Filter π),
    (all (xs ++ all ys :: zs)).Equivalent (all (xs ++ ys ++ zs))
  any_any : ∀ xs ys zs : List (Filter π),
    (any (xs ++ any ys :: zs)).Equivalent (any (xs ++ ys ++ zs))
  all_singleton : ∀ f : Filter π, (all [f]).Equivalent f
  any_singleton : ∀ f : Filter π, (any [f]).Equivalent f
  rejects : ∀ xs ys : List (Filter π), (all (xs ++ deny :: ys)).Always false
  deny_ends : ∀ xs ys : List (Filter π), (all (xs ++ deny :: ys)).Equivalent (all (xs ++ [deny]))
  accepts : ∀ xs ys : List (Filter π), (any (xs ++ accept :: ys)).Always true
  accept_ends : ∀ xs ys : List (Filter π),
    (any (xs ++ accept :: ys)).Equivalent (any (xs ++ [accept]))

/-- The laws hold for all filters, whatever predicates do. -/
theorem laws (π : Type) : Laws π where
  not_not f _ _ _ call r := by simp [evaluate]
  not_all fs _ _ _ call r := by simp [evaluate, evaluateAny_map_not]
  not_any fs _ _ _ call r := by simp [evaluate, evaluateAll_map_not]
  all_all xs ys zs _ _ _ call r := by
    simp only [evaluate, List.append_assoc, evaluateAll_append, evaluateAll]
  any_any xs ys zs _ _ _ call r := by
    simp only [evaluate, List.append_assoc, evaluateAny_append, evaluateAny]
  all_singleton f _ _ _ call r := by simp [evaluate]
  any_singleton f _ _ _ call r := by simp [evaluate]
  rejects xs ys _ _ _ call r := by simp [evaluate, evaluateAll]
  deny_ends xs ys _ _ _ call r := by simp [evaluate, evaluateAll]
  accepts xs ys _ _ _ call r := by simp [evaluate, evaluateAny]
  accept_ends xs ys _ _ _ call r := by simp [evaluate, evaluateAny]

end Logging.Filter
