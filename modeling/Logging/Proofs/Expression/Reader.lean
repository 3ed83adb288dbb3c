import Mathlib.Tactic.Common
import Logging.Proofs.Expression.Grammar

/-!
# The reader accepts the grammar

A reader reads a relation between answers and tokens if it takes exactly such tokens from the front
of any input (`Reads`), whatever follows them. Each part of the reader reads what the grammar says
of it, and `Parse.expr` with some depth left reads the trees of that depth (`reads_expr`).
-/

namespace Logging.Expression

variable {π α β : Type}

/-- The reader succeeds on an input just if it has an answer to what is at its front. -/
def Takes (p : Parse α) (R : α → List Placed → Prop) : Prop :=
  ∀ ts a rest, p.run ts = .ok (a, rest) ↔ ∃ us, ts = us ++ rest ∧ R a us

lemma run_bind_eq_ok_iff {p : Parse α} {f : α → Parse β} {ts rest : List Placed} {b : β} :
    (p >>= f).run ts = .ok (b, rest) ↔
      ∃ a ts', p.run ts = .ok (a, ts') ∧ (f a).run ts' = .ok (b, rest) := by
  rw [StateT.run_bind]
  cases p.run ts with
  | error e =>
    constructor
    · intro h
      cases h
    · rintro ⟨_, _, h, -⟩
      cases h
  | ok r =>
    constructor
    · exact fun h => ⟨r.1, r.2, rfl, h⟩
    · rintro ⟨_, _, h, hf⟩
      cases h
      exact hf

namespace Takes

variable {p : Parse α} {R S : α → List Placed → Prop}

lemma congr (h : Takes p R) (hRS : ∀ a us, R a us ↔ S a us) : Takes p S := by
  intro ts a rest
  rw [h]
  simp only [hRS]

lemma pure (a : α) : Takes (pure a : Parse α) fun b us => b = a ∧ us = [] := by
  intro ts b rest
  have hrun : (Pure.pure a : Parse α).run ts = .ok (a, ts) := rfl
  rw [hrun]
  constructor
  · intro h
    cases h
    exact ⟨[], rfl, rfl, rfl⟩
  · rintro ⟨us, rfl, rfl, rfl⟩
    rfl

lemma fail (position : Nat) (cause : Cause) :
    Takes (Parse.fail position cause : Parse α) fun _ _ => False := by
  intro ts a rest
  have hrun : (Parse.fail position cause : Parse α).run ts = .error ⟨position, cause⟩ := rfl
  rw [hrun]
  simp

lemma bind {f : α → Parse β} {S : α → β → List Placed → Prop} (hp : Takes p R)
    (hf : ∀ a, Takes (f a) (S a)) :
    Takes (p >>= f) fun b us => ∃ a vs ws, us = vs ++ ws ∧ R a vs ∧ S a b ws := by
  intro ts b rest
  rw [run_bind_eq_ok_iff]
  constructor
  · rintro ⟨a, ts', hr, h⟩
    obtain ⟨vs, rfl, hR⟩ := (hp ts a ts').1 hr
    obtain ⟨ws, rfl, hS⟩ := (hf a ts' b rest).1 h
    exact ⟨vs ++ ws, by rw [List.append_assoc], a, vs, ws, rfl, hR, hS⟩
  · rintro ⟨us, rfl, a, vs, ws, rfl, hR, hS⟩
    rw [List.append_assoc]
    exact ⟨a, ws ++ rest, (hp _ a _).2 ⟨vs, rfl, hR⟩, (hf a _ b rest).2 ⟨ws, rfl, hS⟩⟩

end Takes

namespace Parse

variable {stop : Nat}

/-! ### Single tokens -/

lemma takes_next (expected : Expected) : Takes (next stop expected) fun t us => us = [t] := by
  intro ts t rest
  cases ts with
  | nil =>
    have hrun : (next stop expected).run [] = .error ⟨stop, .missing expected⟩ := rfl
    rw [hrun]
    simp
  | cons t' ts =>
    have hrun : (next stop expected).run (t' :: ts) = .ok (t', ts) := rfl
    rw [hrun]
    constructor
    · intro h
      cases h
      exact ⟨[t], rfl, rfl⟩
    · rintro ⟨us, h, rfl⟩
      cases h
      rfl

/-- To take the next token and then decide on it. -/
lemma takes_next_bind {expected : Expected} {f : Placed → Parse α} {G : Placed → α → Prop}
    (hf : ∀ t, Takes (f t) fun a us => G t a ∧ us = []) :
    Takes (next stop expected >>= f) fun a us => ∃ t, us = [t] ∧ G t a := by
  apply ((takes_next expected).bind hf).congr
  intro a us
  constructor
  · rintro ⟨t, _, _, rfl, rfl, hG, rfl⟩
    exact ⟨t, rfl, hG⟩
  · rintro ⟨t, rfl, hG⟩
    exact ⟨t, [t], [], rfl, rfl, hG, rfl⟩

lemma takes_unexpected (expected : Expected) (t : Placed) :
    Takes (unexpected expected t : Parse α) fun _ _ => False :=
  Takes.fail _ _

lemma takes_expect (t : Token) :
    Takes (expect stop t) fun _ us => us.map Placed.token = [t] := by
  have hf : ∀ found : Placed,
      Takes (if found.token = t then pure () else unexpected (.token t) found)
      fun _ us => found.token = t ∧ us = [] := by
    intro found
    split_ifs with h
    · exact (Takes.pure ()).congr (by simp [h])
    · exact (takes_unexpected _ _).congr (by simp [h])
  apply (takes_next_bind hf).congr
  intro _ us
  simp [List.map_eq_singleton_iff]

lemma takes_ident (expected : Expected) :
    Takes (ident stop expected) fun a us => us = [⟨.ident a.1, a.2⟩] := by
  refine (takes_next_bind (G := fun t a => t = ⟨.ident a.1, a.2⟩) ?_).congr (by simp)
  rintro ⟨token, position⟩
  cases token with
  | ident name => exact (Takes.pure (name, position)).congr (by simp [Prod.ext_iff, eq_comm])
  | _ => exact (takes_unexpected expected _).congr (by simp)

lemma takes_string : Takes (string stop) fun a us => us = [⟨.string a.1, a.2⟩] := by
  refine (takes_next_bind (G := fun t a => t = ⟨.string a.1, a.2⟩) ?_).congr (by simp)
  rintro ⟨token, position⟩
  cases token with
  | string value => exact (Takes.pure (value, position)).congr (by simp [Prod.ext_iff, eq_comm])
  | _ => exact (takes_unexpected .string _).congr (by simp)

lemma takes_rangeStart :
    Takes (rangeStart stop) fun b us => us.map Placed.token = [openingBracket b] := by
  refine (takes_next_bind (G := fun t b => t.token = openingBracket b) ?_).congr
    (by simp [List.map_eq_singleton_iff])
  rintro ⟨token, position⟩
  cases token with
  | leftBracket => exact (Takes.pure true).congr (by simp [openingBracket])
  | leftParen => exact (Takes.pure false).congr (by simp [openingBracket])
  | _ => exact (takes_unexpected .rangeStart _).congr (by simp [openingBracket])

lemma takes_rangeEnd :
    Takes (rangeEnd stop) fun b us => us.map Placed.token = [closingBracket b] := by
  refine (takes_next_bind (G := fun t b => t.token = closingBracket b) ?_).congr
    (by simp [List.map_eq_singleton_iff])
  rintro ⟨token, position⟩
  cases token with
  | rightBracket => exact (Takes.pure true).congr (by simp [closingBracket])
  | rightParen => exact (Takes.pure false).congr (by simp [closingBracket])
  | _ => exact (takes_unexpected .rangeEnd _).congr (by simp [closingBracket])

end Parse

/-! ### Readers of tokens -/

/-- The reader succeeds on an input just if it has an answer to the tokens at its front. -/
def Reads (p : Parse α) (R : α → List Token → Prop) : Prop :=
  Takes p fun a us => R a (us.map Placed.token)

namespace Reads

variable {p : Parse α} {R S : α → List Token → Prop}

lemma congr (h : Reads p R) (hRS : ∀ a ts, R a ts ↔ S a ts) : Reads p S :=
  Takes.congr h fun a _ => hRS a _

lemma pure (a : α) : Reads (pure a : Parse α) fun b ts => b = a ∧ ts = [] :=
  (Takes.pure a).congr (by simp)

lemma fail (position : Nat) (cause : Cause) :
    Reads (Parse.fail position cause : Parse α) fun _ _ => False :=
  Takes.fail position cause

lemma bind {f : α → Parse β} {S : α → β → List Token → Prop} (hp : Reads p R)
    (hf : ∀ a, Reads (f a) (S a)) :
    Reads (p >>= f) fun b ts => ∃ a vs ws, ts = vs ++ ws ∧ R a vs ∧ S a b ws := by
  apply (Takes.bind hp hf).congr
  intro b us
  constructor
  · rintro ⟨a, vs, ws, rfl, hR, hS⟩
    exact ⟨a, _, _, List.map_append, hR, hS⟩
  · rintro ⟨a, vs, ws, h, hR, hS⟩
    obtain ⟨vs, ws, rfl, rfl, rfl⟩ := List.map_eq_append_iff.1 h
    exact ⟨a, vs, ws, rfl, hR, hS⟩

/-- What is read before an answer that is known. -/
lemma map {g : α → β} (hp : Reads p R) :
    Reads (p >>= fun a => Pure.pure (g a)) fun b ts => ∃ a, b = g a ∧ R a ts := by
  refine (hp.bind fun a => Reads.pure (g a)).congr fun b ts => ?_
  constructor
  · rintro ⟨a, vs, _, rfl, hR, rfl, rfl⟩
    exact ⟨a, rfl, by rwa [List.append_nil]⟩
  · rintro ⟨a, rfl, hR⟩
    exact ⟨a, ts, [], (List.append_nil ts).symm, hR, rfl, rfl⟩

end Reads

namespace Parse

variable {stop : Nat} {names : Resolver π}

lemma reads_expect_bind {t : Token} {p : Parse α} {R : α → List Token → Prop} (hp : Reads p R) :
    Reads (expect stop t >>= fun _ => p) fun a ts => ∃ us, ts = t :: us ∧ R a us := by
  have ht : Reads (expect stop t) fun _ ts => ts = [t] := takes_expect t
  refine (ht.bind fun _ => hp).congr fun a ts => ?_
  constructor
  · rintro ⟨-, _, us, rfl, rfl, hR⟩
    exact ⟨us, rfl, hR⟩
  · rintro ⟨us, rfl, hR⟩
    exact ⟨(), [t], us, rfl, rfl, hR⟩

lemma reads_ident_bind {expected : Expected} {f : String × Nat → Parse α}
    {R : String → α → List Token → Prop} (hf : ∀ a, Reads (f a) (R a.1)) :
    Reads (ident stop expected >>= f) fun a ts => ∃ n us, ts = .ident n :: us ∧ R n a us := by
  apply ((takes_ident expected).bind hf).congr
  intro a us
  constructor
  · rintro ⟨⟨n, position⟩, _, us, rfl, rfl, hR⟩
    exact ⟨n, _, rfl, hR⟩
  · rintro ⟨n, ts, h, hR⟩
    obtain ⟨⟨t, position⟩, us, rfl, rfl, rfl⟩ := List.map_eq_cons_iff.1 h
    exact ⟨(n, position), [_], us, rfl, rfl, hR⟩

lemma reads_string_bind {f : String × Nat → Parse α} {R : String → α → List Token → Prop}
    (hf : ∀ a, Reads (f a) (R a.1)) :
    Reads (string stop >>= f) fun a ts => ∃ s us, ts = .string s :: us ∧ R s a us := by
  apply (takes_string.bind hf).congr
  intro a us
  constructor
  · rintro ⟨⟨s, position⟩, _, us, rfl, rfl, hR⟩
    exact ⟨s, _, rfl, hR⟩
  · rintro ⟨s, ts, h, hR⟩
    obtain ⟨⟨t, position⟩, us, rfl, rfl, rfl⟩ := List.map_eq_cons_iff.1 h
    exact ⟨(s, position), [_], us, rfl, rfl, hR⟩

/-- To look something up takes no tokens. -/
lemma reads_lookup {p : Parse α} (o : Option α) (hsome : ∀ a, o = some a → p = pure a)
    (hnone : o = none → ∃ position cause, p = fail position cause) :
    Reads p fun a ts => o = some a ∧ ts = [] := by
  cases o with
  | none =>
    obtain ⟨position, cause, rfl⟩ := hnone rfl
    exact (Reads.fail position cause).congr (by simp)
  | some a =>
    rw [hsome a rfl]
    exact (Reads.pure a).congr (by simp [eq_comm])

lemma reads_level :
    Reads (level stop names) fun l ts => ∃ n, ts = [.ident n] ∧ names.level? n = some l := by
  refine (reads_ident_bind (R := fun n l ts => names.level? n = some l ∧ ts = []) ?_).congr
    fun l ts => ?_
  · rintro ⟨name, position⟩
    refine reads_lookup (names.level? name) (fun l h => ?_) fun h =>
      ⟨position, .unknownLevel name, ?_⟩
    · simp only [h]
    · simp only [h]
  · constructor
    · rintro ⟨n, _, rfl, hl, rfl⟩
      exact ⟨n, rfl, hl⟩
    · rintro ⟨n, rfl, hl⟩
      exact ⟨n, [], rfl, hl, rfl⟩

lemma reads_pattern [Pattern.Engine] (source : String) (position : Nat) :
    Reads (pattern source position)
      fun p ts => Pattern.Engine.compile? source = some p ∧ ts = [] := by
  refine reads_lookup _ (fun p h => ?_) fun h => ⟨position, .invalidPattern, ?_⟩
  · simp [pattern, h]
  · simp [pattern, h]

/-! ### Lists and parentheses -/

lemma parens_bind (item : Parse α) (f : α → Parse β) :
    parens stop item >>= f =
      expect stop .leftParen >>= fun _ => item >>= fun a =>
        expect stop .rightParen >>= fun _ => f a := by
  simp only [parens, bind_assoc, pure_bind]

variable {item : Parse α} {R : α → List Token → Prop}

lemma reads_parens (hi : Reads item R) :
    Reads (parens stop item) fun a ts => ∃ us, ts = .leftParen :: us ++ [.rightParen] ∧ R a us := by
  have hclose : ∀ a : α, Reads (expect stop .rightParen >>= fun _ => pure a)
      fun b ts => b = a ∧ ts = [.rightParen] := fun a =>
    (reads_expect_bind (Reads.pure a)).congr fun b ts => by
      constructor
      · rintro ⟨_, rfl, rfl, rfl⟩
        exact ⟨rfl, rfl⟩
      · rintro ⟨rfl, rfl⟩
        exact ⟨[], rfl, rfl, rfl⟩
  apply (reads_expect_bind (hi.bind hclose)).congr
  intro a ts
  constructor
  · rintro ⟨_, rfl, b, us, _, rfl, hR, rfl, rfl⟩
    exact ⟨us, rfl, hR⟩
  · rintro ⟨us, rfl, hR⟩
    exact ⟨_, rfl, a, us, _, rfl, hR, rfl, rfl⟩

/-- What follows the first item of a list. -/
def Rest (R : α → List Token → Prop) (as : List α) (ts : List Token) : Prop :=
  (as = [] ∧ ts = [.rightParen]) ∨ ∃ us, ts = .comma :: us ++ [.rightParen] ∧ Separated R as us

/-- An item and the rest make a list. -/
lemma separated_cons_iff {a : α} {as : List α} {ts : List Token} :
    (∃ us vs, ts = us ++ vs ∧ R a us ∧ Rest R as vs) ↔
      ∃ us, ts = us ++ [.rightParen] ∧ Separated R (a :: as) us := by
  constructor
  · rintro ⟨us, _, rfl, ha, ⟨rfl, rfl⟩ | ⟨vs, rfl, hs⟩⟩
    · exact ⟨us, rfl, .one ha⟩
    · exact ⟨us ++ .comma :: vs, by simp, .more ha hs⟩
  · rintro ⟨_, rfl, hs⟩
    cases hs with
    | one ha => exact ⟨_, _, rfl, ha, Or.inl ⟨rfl, rfl⟩⟩
    | more ha hs => exact ⟨_, _, by simp, ha, Or.inr ⟨_, rfl, hs⟩⟩

lemma run_moreItems_cons (fuel : Nat) (t : Placed) (ts : List Placed) :
    (moreItems stop item (fuel + 1)).run (t :: ts) =
      match t.token with
      | .comma => (item >>= fun a => moreItems stop item fuel >>= fun as => pure (a :: as)).run ts
      | .rightParen => .ok ([], ts)
      | _ => .error ⟨t.position, .unexpected .listGoesOn t.token⟩ := by
  obtain ⟨token, position⟩ := t
  cases token <;> rfl

lemma moreItems_sound (hi : Reads item R) {fuel : Nat} {ts rest : List Placed} {as : List α}
    (h : (moreItems stop item fuel).run ts = .ok (as, rest)) :
    ∃ us, ts = us ++ rest ∧ Rest R as (us.map Placed.token) := by
  induction fuel generalizing ts as with
  | zero => cases h
  | succ fuel ih =>
    cases ts with
    | nil => cases h
    | cons t ts =>
      rw [run_moreItems_cons] at h
      obtain ⟨token, position⟩ := t
      cases token with
      | comma =>
        obtain ⟨a, ts', ha, h⟩ := run_bind_eq_ok_iff.1 h
        obtain ⟨as', ts'', has, h⟩ := run_bind_eq_ok_iff.1 h
        cases h
        obtain ⟨us, rfl, hR⟩ := (hi _ _ _).1 ha
        obtain ⟨vs, rfl, hs⟩ := ih has
        obtain ⟨ws, hws, hs⟩ := separated_cons_iff.1 ⟨_, _, rfl, hR, hs⟩
        refine ⟨⟨.comma, position⟩ :: (us ++ vs), by simp, Or.inr ⟨ws, ?_, hs⟩⟩
        rw [List.map_cons, List.map_append, hws]
        rfl
      | rightParen =>
        cases h
        exact ⟨[_], rfl, Or.inl ⟨rfl, rfl⟩⟩
      | _ => cases h

/-- Each item takes a comma along, so there is fuel enough for as many items as tokens. -/
lemma moreItems_complete (hi : Reads item R) {fuel : Nat} {us : List Placed} {as : List α}
    (hs : Rest R as (us.map Placed.token)) (hus : us.length < fuel) (rest : List Placed) :
    (moreItems stop item fuel).run (us ++ rest) = .ok (as, rest) := by
  induction fuel generalizing us as with
  | zero => exact absurd hus (Nat.not_lt_zero _)
  | succ fuel ih =>
    rcases hs with ⟨rfl, hs⟩ | ⟨ws, hws, hs⟩
    · obtain ⟨t, rfl, ht⟩ := List.map_eq_singleton_iff.1 hs
      rw [List.singleton_append, run_moreItems_cons, ht]
    · obtain ⟨t, us, rfl, ht, hus'⟩ := List.map_eq_cons_iff.1 hws
      obtain ⟨a, as, rfl⟩ := hs.exists_cons
      obtain ⟨xs, ys, hxy, ha, hr⟩ := separated_cons_iff.2 ⟨ws, hus', hs⟩
      obtain ⟨xs, ys, rfl, rfl, rfl⟩ := List.map_eq_append_iff.1 hxy
      rw [List.cons_append, run_moreItems_cons, ht]
      refine run_bind_eq_ok_iff.2 ⟨a, ys ++ rest, (hi _ _ _).2 ⟨xs, by simp, ha⟩, ?_⟩
      have hys : ys.length < fuel := by
        simp only [List.length_cons, List.length_append] at hus
        omega
      exact run_bind_eq_ok_iff.2 ⟨as, rest, ih hr hys, rfl⟩

lemma reads_list (hi : Reads item R) :
    Reads (list stop item) fun as ts =>
      ∃ us, ts = .leftParen :: us ++ [.rightParen] ∧ Separated R as us := by
  have hrest : Reads ((get : Parse (List Placed)) >>= fun ts => moreItems stop item (ts.length + 1))
      (Rest R) := by
    intro ts as rest
    constructor
    · exact moreItems_sound hi
    · rintro ⟨us, rfl, hs⟩
      have hlen : us.length < (us ++ rest).length + 1 := by
        rw [List.length_append]
        omega
      exact moreItems_complete hi hs hlen rest
  have htail : ∀ a, Reads
      ((get : Parse (List Placed)) >>= fun ts =>
        moreItems stop item (ts.length + 1) >>= fun as => pure (a :: as))
      fun as ts => ∃ as', as = a :: as' ∧ Rest R as' ts := fun a => by
    have h := hrest.map (g := fun as => a :: as)
    rwa [bind_assoc] at h
  apply (reads_expect_bind (hi.bind htail)).congr
  intro as ts
  constructor
  · rintro ⟨_, rfl, a, us, vs, rfl, ha, as, rfl, hs⟩
    obtain ⟨us, h, hs⟩ := separated_cons_iff.1 ⟨_, _, rfl, ha, hs⟩
    exact ⟨us, by rw [h]; rfl, hs⟩
  · rintro ⟨us, rfl, hs⟩
    obtain ⟨a, as, rfl⟩ := hs.exists_cons
    obtain ⟨us, vs, h, ha, hs⟩ := separated_cons_iff.2 ⟨us, rfl, hs⟩
    exact ⟨_, rfl, a, us, vs, h, ha, as, rfl, hs⟩

/-! ### Expressions -/

variable [Pattern.Engine]

/-- The filters that trees of bounded depth stand for, with the tokens that these derive. -/
def Stands (names : Resolver π) (d : Nat) (f : Filter π) (ts : List Token) : Prop :=
  ∃ e, DerivesWithin d e ts ∧ e.denote? names = some f

lemma separated_stands_iff {d : Nat} {fs : List (Filter π)} {ts : List Token} :
    Separated (Stands names d) fs ts ↔
      ∃ es, Separated Derives es ts ∧ Expr.depthList es ≤ d ∧
        Expr.denoteList? names es = some fs := by
  have h : Separated (Stands names d) fs ts ↔ _ := separated_mapM_iff
  rw [h]
  simp only [separated_derivesWithin_iff, Expr.denoteList?_eq_mapM, and_assoc]

lemma term_ident (inner : Parse (Filter π)) {n : String} (hn : n ∉ keywords) (position : Nat) :
    term stop names inner n position =
      match names.filter? n with
      | some f => return f.registeredAs n
      | none => fail position (.unknownFilter n) := by
  simp only [keywords, List.mem_cons, List.not_mem_nil, or_false, not_or] at hn
  obtain ⟨_, _, _, _, _, _, _, _, _, _, _⟩ := hn
  cases hf : names.filter? n with
  | none =>
    rw [term, hf]
    all_goals assumption
  | some f =>
    rw [term, hf]
    all_goals assumption

variable {inner : Parse (Filter π)} {d : Nat}

lemma reads_not (hi : Reads inner (Stands names d)) :
    Reads (do return .not (← parens stop inner)) fun f ts =>
      ∃ e, DerivesWithin (d + 1) e (.ident "not" :: ts) ∧ e.denote? names = some f := by
  apply ((reads_parens hi).map (g := Filter.not)).congr
  intro f ts
  simp only [DerivesWithin, derives_not_iff]
  constructor
  · rintro ⟨f, rfl, us, rfl, e, ⟨h, hd⟩, hf⟩
    refine ⟨.not e, ⟨⟨e, us, rfl, rfl, h⟩, Nat.succ_le_succ hd⟩, ?_⟩
    rw [Expr.denote?, hf]
    rfl
  · rintro ⟨_, ⟨⟨e, us, rfl, rfl, h⟩, hd⟩, hf⟩
    rw [Expr.denote?, Option.map_eq_some_iff] at hf
    obtain ⟨f, hf, rfl⟩ := hf
    exact ⟨f, rfl, us, rfl, e, ⟨h, Nat.le_of_succ_le_succ hd⟩, hf⟩

lemma reads_all (hi : Reads inner (Stands names d)) :
    Reads (do return .all (← list stop inner)) fun f ts =>
      ∃ e, DerivesWithin (d + 1) e (.ident "all" :: ts) ∧ e.denote? names = some f := by
  apply ((reads_list hi).map (g := Filter.all)).congr
  intro f ts
  simp only [DerivesWithin, derives_all_iff, separated_stands_iff]
  constructor
  · rintro ⟨fs, rfl, us, rfl, es, h, hd, hf⟩
    refine ⟨.all es, ⟨⟨es, us, rfl, rfl, h⟩, Nat.succ_le_succ hd⟩, ?_⟩
    rw [Expr.denote?, hf]
    rfl
  · rintro ⟨_, ⟨⟨es, us, rfl, rfl, h⟩, hd⟩, hf⟩
    rw [Expr.denote?, Option.map_eq_some_iff] at hf
    obtain ⟨fs, hf, rfl⟩ := hf
    exact ⟨fs, rfl, us, rfl, es, h, Nat.le_of_succ_le_succ hd, hf⟩

lemma reads_any (hi : Reads inner (Stands names d)) :
    Reads (do return .any (← list stop inner)) fun f ts =>
      ∃ e, DerivesWithin (d + 1) e (.ident "any" :: ts) ∧ e.denote? names = some f := by
  apply ((reads_list hi).map (g := Filter.any)).congr
  intro f ts
  simp only [DerivesWithin, derives_any_iff, separated_stands_iff]
  constructor
  · rintro ⟨fs, rfl, us, rfl, es, h, hd, hf⟩
    refine ⟨.any es, ⟨⟨es, us, rfl, rfl, h⟩, Nat.succ_le_succ hd⟩, ?_⟩
    rw [Expr.denote?, hf]
    rfl
  · rintro ⟨_, ⟨⟨es, us, rfl, rfl, h⟩, hd⟩, hf⟩
    rw [Expr.denote?, Option.map_eq_some_iff] at hf
    obtain ⟨fs, hf, rfl⟩ := hf
    exact ⟨fs, rfl, us, rfl, es, h, Nat.le_of_succ_le_succ hd, hf⟩

lemma reads_levels :
    Reads (do return .levels (← list stop (level stop names))) fun (f : Filter π) ts =>
      ∃ e, DerivesWithin (d + 1) e (.ident "levels" :: ts) ∧ e.denote? names = some f := by
  apply ((reads_list reads_level).map (g := Filter.levels)).congr
  intro f ts
  have hls : ∀ ls us, Separated (fun l ts => ∃ n, ts = [.ident n] ∧ names.level? n = some l) ls us ↔
      ∃ ns, Separated IsName ns us ∧ ns.mapM names.level? = some ls :=
    fun _ _ => separated_mapM_iff
  simp only [hls]
  constructor
  · rintro ⟨ls, rfl, us, rfl, ns, h, hf⟩
    refine ⟨.levels ns, ⟨.levels h, Nat.succ_le_succ (Nat.zero_le d)⟩, ?_⟩
    rw [Expr.denote?, hf]
    rfl
  · rintro ⟨e, ⟨h, -⟩, hf⟩
    obtain ⟨ns, us, rfl, rfl, hs⟩ := derives_levels_iff.1 h
    rw [Expr.denote?, Option.map_eq_some_iff] at hf
    obtain ⟨ls, hf, rfl⟩ := hf
    exact ⟨ls, rfl, us, rfl, ns, hs, hf⟩

lemma reads_levelChange :
    Reads (do return .levelChange (← parens stop (level stop names))) fun (f : Filter π) ts =>
      ∃ e, DerivesWithin (d + 1) e (.ident "levelChange" :: ts) ∧ e.denote? names = some f := by
  apply ((reads_parens reads_level).map (g := Filter.levelChange)).congr
  intro f ts
  constructor
  · rintro ⟨l, rfl, _, rfl, n, rfl, hl⟩
    refine ⟨.levelChange n, ⟨.levelChange n, Nat.succ_le_succ (Nat.zero_le d)⟩, ?_⟩
    rw [Expr.denote?, hl]
    rfl
  · rintro ⟨e, ⟨h, -⟩, hf⟩
    obtain ⟨n, rfl, rfl⟩ := derives_levelChange_iff.1 h
    rw [Expr.denote?, Option.map_eq_some_iff] at hf
    obtain ⟨l, hl, rfl⟩ := hf
    exact ⟨l, rfl, _, rfl, n, rfl, hl⟩

/-- A pattern that was read is looked up when all that belongs to it was read. -/
lemma reads_pattern_map (source : String) (position : Nat) (g : Pattern → Filter π) :
    Reads (pattern source position >>= fun p => return g p) fun f ts =>
      (Pattern.Engine.compile? source).map g = some f ∧ ts = [] := by
  apply ((reads_pattern source position).map (g := g)).congr
  intro f ts
  rw [Option.map_eq_some_iff]
  constructor
  · rintro ⟨p, rfl, hp, rfl⟩
    exact ⟨⟨p, hp, rfl⟩, rfl⟩
  · rintro ⟨⟨p, hp, rfl⟩, rfl⟩
    exact ⟨p, rfl, hp, rfl⟩

lemma reads_match :
    Reads (do
      let (source, position) ← parens stop (string stop)
      return .match (← pattern source position)) fun (f : Filter π) ts =>
      ∃ e, DerivesWithin (d + 1) e (.ident "match" :: ts) ∧ e.denote? names = some f := by
  rw [parens_bind]
  refine (reads_expect_bind (reads_string_bind
    (R := fun s f ts => ∃ us, ts = .rightParen :: us ∧
      (Pattern.Engine.compile? s).map Filter.match = some f ∧ us = []) ?_)).congr fun f ts => ?_
  · exact fun a => reads_expect_bind (reads_pattern_map a.1 a.2 Filter.match)
  constructor
  · rintro ⟨_, rfl, p, _, rfl, _, rfl, hf, rfl⟩
    exact ⟨.match p, ⟨.match p, Nat.succ_le_succ (Nat.zero_le d)⟩, hf⟩
  · rintro ⟨e, ⟨h, -⟩, hf⟩
    obtain ⟨p, rfl, rfl⟩ := derives_match_iff.1 h
    exact ⟨_, rfl, p, _, rfl, _, rfl, hf, rfl⟩

/-- The strings of a substitution, without the keyword. -/
lemma reads_substitution (names : Resolver π) (everywhere : Bool) :
    Reads (substitution stop everywhere) fun (f : Filter π) ts =>
      ∃ p r, ts = [.leftParen, .string p, .comma, .string r, .rightParen] ∧
        (Expr.substitute p r everywhere).denote? names = some f := by
  -- what follows the second string, and what follows the first
  let R₂ (s r : String) (f : Filter π) (ts : List Token) : Prop := ∃ us, ts = .rightParen :: us ∧
    (Pattern.Engine.compile? s).map (Filter.substitute · r everywhere) = some f ∧ us = []
  let R₁ (s : String) (f : Filter π) (ts : List Token) : Prop := ∃ us, ts = .comma :: us ∧
    ∃ r vs, us = .string r :: vs ∧ R₂ s r f vs
  have h₂ : ∀ a : String × Nat, Reads (string stop >>= fun b => expect stop .rightParen >>= fun _ =>
      pattern a.1 a.2 >>= fun p => pure (Filter.substitute p b.1 everywhere))
      fun (f : Filter π) us => ∃ r vs, us = .string r :: vs ∧ R₂ a.1 r f vs := fun a =>
    reads_string_bind fun b => reads_expect_bind (reads_pattern_map a.1 a.2 _)
  refine (reads_expect_bind (reads_string_bind (R := R₁) fun a => reads_expect_bind (h₂ a))).congr
    fun f ts => ?_
  constructor
  · rintro ⟨_, rfl, p, _, rfl, _, rfl, r, _, rfl, _, rfl, hf, rfl⟩
    exact ⟨p, r, rfl, hf⟩
  · rintro ⟨p, r, rfl, hf⟩
    exact ⟨_, rfl, p, _, rfl, _, rfl, r, _, rfl, _, rfl, hf, rfl⟩

lemma reads_substitute :
    Reads (substitution stop false) fun (f : Filter π) ts =>
      ∃ e, DerivesWithin (d + 1) e (.ident "substitute" :: ts) ∧ e.denote? names = some f := by
  apply (reads_substitution names false).congr
  intro f ts
  constructor
  · rintro ⟨p, r, rfl, hf⟩
    exact ⟨_, ⟨.substitute p r, Nat.succ_le_succ (Nat.zero_le d)⟩, hf⟩
  · rintro ⟨e, ⟨h, -⟩, hf⟩
    obtain ⟨p, r, rfl, rfl⟩ := derives_substitute_iff.1 h
    exact ⟨p, r, rfl, hf⟩

lemma reads_substituteAll :
    Reads (substitution stop true) fun (f : Filter π) ts =>
      ∃ e, DerivesWithin (d + 1) e (.ident "substituteAll" :: ts) ∧ e.denote? names = some f := by
  apply (reads_substitution names true).congr
  intro f ts
  constructor
  · rintro ⟨p, r, rfl, hf⟩
    exact ⟨_, ⟨.substituteAll p r, Nat.succ_le_succ (Nat.zero_le d)⟩, hf⟩
  · rintro ⟨e, ⟨h, -⟩, hf⟩
    obtain ⟨p, r, rfl, rfl⟩ := derives_substituteAll_iff.1 h
    exact ⟨p, r, rfl, hf⟩

lemma reads_levelRange (inner : Parse (Filter π)) (position : Nat) :
    Reads (term stop names inner "levelRange" position) fun f ts =>
      ∃ e, DerivesWithin (d + 1) e (.ident "levelRange" :: ts) ∧ e.denote? names = some f := by
  have hstart : Reads (rangeStart stop) fun b ts => ts = [openingBracket b] := takes_rangeStart
  have hend : Reads (rangeEnd stop) fun b ts => ts = [closingBracket b] := takes_rangeEnd
  refine (hstart.bind fun minIn => reads_level.bind fun min => reads_expect_bind
    (reads_level.bind fun max => hend.map)).congr fun f ts => ?_
  constructor
  · rintro ⟨minIn, _, _, rfl, rfl, min, _, _, rfl, ⟨m, rfl, hmin⟩, _, rfl, max, _, _, rfl,
      ⟨n, rfl, hmax⟩, maxIn, rfl, rfl⟩
    refine ⟨.levelRange minIn m n maxIn, ⟨.levelRange minIn m n maxIn,
      Nat.succ_le_succ (Nat.zero_le d)⟩, ?_⟩
    rw [Expr.denote?, hmin, hmax]
    rfl
  · rintro ⟨e, ⟨h, -⟩, hf⟩
    obtain ⟨minIn, m, n, maxIn, rfl, rfl⟩ := derives_levelRange_iff.1 h
    rw [Expr.denote?] at hf
    obtain ⟨min, hmin, hf⟩ := Option.bind_eq_some_iff.1 hf
    obtain ⟨max, hmax, hf⟩ := Option.bind_eq_some_iff.1 hf
    cases hf
    exact ⟨minIn, _, _, rfl, rfl, min, _, _, rfl, ⟨m, rfl, hmin⟩, _, rfl, max, _, _, rfl,
      ⟨n, rfl, hmax⟩, maxIn, rfl, rfl⟩

lemma reads_term_ident (inner : Parse (Filter π)) {n : String} (hn : n ∉ keywords)
    (position : Nat) :
    Reads (term stop names inner n position) fun f ts =>
      ∃ e, DerivesWithin (d + 1) e (.ident n :: ts) ∧ e.denote? names = some f := by
  rw [term_ident inner hn]
  refine (reads_lookup ((names.filter? n).map (·.registeredAs n)) (fun f h => ?_)
    fun h => ⟨position, .unknownFilter n, ?_⟩).congr fun f ts => ?_
  · obtain ⟨g, hg, rfl⟩ := Option.map_eq_some_iff.1 h
    simp [hg]
  · simp [Option.map_eq_none_iff.1 h]
  constructor
  · rintro ⟨hf, rfl⟩
    exact ⟨.ident n, ⟨.ident hn, Nat.succ_le_succ (Nat.zero_le d)⟩, hf⟩
  · rintro ⟨e, ⟨h, -⟩, hf⟩
    obtain ⟨rfl, rfl⟩ := (derives_ident_iff hn).1 h
    exact ⟨hf, rfl⟩

/-- What follows an identifier is read as the rest of a tree that begins with it. -/
lemma reads_term (hi : Reads inner (Stands names d)) (n : String) (position : Nat) :
    Reads (term stop names inner n position) fun f ts =>
      ∃ e, DerivesWithin (d + 1) e (.ident n :: ts) ∧ e.denote? names = some f := by
  cases n using keyword_cases with
  | accept =>
    apply (Reads.pure Filter.accept).congr
    intro f ts
    constructor
    · rintro ⟨rfl, rfl⟩
      exact ⟨.accept, ⟨.accept, Nat.succ_le_succ (Nat.zero_le d)⟩, rfl⟩
    · rintro ⟨e, ⟨h, -⟩, hf⟩
      obtain ⟨rfl, rfl⟩ := derives_accept_iff.1 h
      exact ⟨(Option.some.inj hf).symm, rfl⟩
  | deny =>
    apply (Reads.pure Filter.deny).congr
    intro f ts
    constructor
    · rintro ⟨rfl, rfl⟩
      exact ⟨.deny, ⟨.deny, Nat.succ_le_succ (Nat.zero_le d)⟩, rfl⟩
    · rintro ⟨e, ⟨h, -⟩, hf⟩
      obtain ⟨rfl, rfl⟩ := derives_deny_iff.1 h
      exact ⟨(Option.some.inj hf).symm, rfl⟩
  | not => exact reads_not hi
  | all => exact reads_all hi
  | any => exact reads_any hi
  | levels => exact reads_levels
  | levelRange => exact reads_levelRange inner position
  | levelChange => exact reads_levelChange
  | «match» => exact reads_match
  | substitute => exact reads_substitute
  | substituteAll => exact reads_substituteAll
  | ident n hn => exact reads_term_ident inner hn position

/-- An expression is read as a tree that is no deeper than what is left. -/
theorem reads_expr (d : Nat) : Reads (expr stop names d) (Stands names d) := by
  induction d with
  | zero =>
    intro ts f rest
    have hrun : ∃ error, (expr stop names 0).run ts = .error error := ⟨_, rfl⟩
    obtain ⟨error, hrun⟩ := hrun
    rw [hrun]
    constructor
    · intro h
      cases h
    · rintro ⟨us, -, e, ⟨-, he⟩, -⟩
      exact absurd he (Nat.not_le.2 (depth_pos e))
  | succ d ih =>
    refine (reads_ident_bind (R := fun n f us =>
      ∃ e, DerivesWithin (d + 1) e (.ident n :: us) ∧ e.denote? names = some f) ?_).congr
        fun f ts => ?_
    · rintro ⟨n, position⟩
      exact reads_term ih n position
    constructor
    · rintro ⟨n, us, rfl, e, he, hf⟩
      exact ⟨e, he, hf⟩
    · rintro ⟨e, he, hf⟩
      obtain ⟨n, us, rfl⟩ := he.1.head
      exact ⟨n, us, rfl, e, he, hf⟩

/-- All tokens are read as one tree, and none are left. -/
lemma run_whole_iff {ts rest : List Placed} {f : Filter π} :
    (whole stop names).run ts = .ok (f, rest) ↔
      rest = [] ∧ Stands names maxNesting f (ts.map Placed.token) := by
  rw [whole, run_bind_eq_ok_iff]
  constructor
  · rintro ⟨g, ts', hg, h⟩
    cases ts' with
    | nil =>
      cases h
      obtain ⟨us, rfl, hf⟩ := (reads_expr maxNesting _ _ _).1 hg
      rw [List.append_nil]
      exact ⟨rfl, hf⟩
    | cons t ts' => cases h
  · rintro ⟨rfl, hf⟩
    exact ⟨f, [], (reads_expr maxNesting _ _ _).2 ⟨ts, (List.append_nil ts).symm, hf⟩, rfl⟩

end Parse

variable [Pattern.Engine]

/-- What is read from a text is what the tree of its tokens stands for. -/
theorem parse_eq_ok_iff {names : Resolver π} {text : String} {f : Filter π} :
    parse names text = .ok f ↔
      ∃ ts, tokenize text = .ok ts ∧ Parse.Stands names maxNesting f (ts.map Placed.token) := by
  rw [parse]
  cases tokenize text with
  | error e =>
    constructor
    · intro h
      cases h
    · rintro ⟨ts, h, -⟩
      cases h
  | ok ts =>
    have hrun : (Parse.whole text.utf8ByteSize names).run' ts = .ok f ↔
        ∃ rest, (Parse.whole text.utf8ByteSize names).run ts = .ok (f, rest) := by
      rw [StateT.run']
      change Prod.fst <$> (Parse.whole text.utf8ByteSize names).run ts = _ ↔ _
      cases (Parse.whole text.utf8ByteSize names).run ts with
      | error e => simp
      | ok r => simp [Prod.ext_iff]
    refine hrun.trans ?_
    simp only [Parse.run_whole_iff]
    constructor
    · rintro ⟨_, rfl, hf⟩
      exact ⟨ts, rfl, hf⟩
    · rintro ⟨_, h, hf⟩
      cases h
      exact ⟨[], rfl, hf⟩

/-- The reader accepts exactly the grammar. A text is read if and only if it has tokens, these have
a tree, all that occurs in the tree stands for something, and it is nested at most 64 deep. The
tokens have no other tree then, and what is read is what the tree stands for. -/
theorem parse_accepts_grammar (names : Resolver π) (text : String) :
    ((∃ f, parse names text = .ok f) ↔ ∃ ts, tokenize text = .ok ts ∧
      ∃ e, Derives e (ts.map Placed.token) ∧ e.Resolved names ∧ e.depth ≤ 64) ∧
    ∀ f, parse names text = .ok f → ∃ ts e, tokenize text = .ok ts ∧
      (∀ e', Derives e' (ts.map Placed.token) ↔ e' = e) ∧ e.denote? names = some f := by
  constructor
  · constructor
    · rintro ⟨f, hf⟩
      obtain ⟨ts, hts, e, ⟨he, hd⟩, hf⟩ := parse_eq_ok_iff.1 hf
      refine ⟨ts, hts, e, he, ?_, hd⟩
      rw [← Expr.isSome_denote?_iff, hf]
      rfl
    · rintro ⟨ts, hts, e, he, hr, hd⟩
      obtain ⟨f, hf⟩ := Option.isSome_iff_exists.1 (Expr.isSome_denote?_iff e |>.2 hr)
      exact ⟨f, parse_eq_ok_iff.2 ⟨ts, hts, e, ⟨he, hd⟩, hf⟩⟩
  · intro f hf
    obtain ⟨ts, hts, e, ⟨he, -⟩, hf⟩ := parse_eq_ok_iff.1 hf
    refine ⟨ts, e, hts, fun e' => ?_, hf⟩
    constructor
    · exact fun he' => he'.unique he
    · rintro rfl
      exact he

end Logging.Expression
