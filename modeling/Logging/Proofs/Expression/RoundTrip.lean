import Mathlib.Tactic.Common
import Logging.Filter.Evaluate
import Logging.Filter.Printer
import Logging.Proofs.Expression.Reader
import Logging.Proofs.Expression.Tokens

/-!
# Writing filters and reading them again

A filter is expressible if its names can be written and stand for what is in it, and the texts of
its patterns compile. What is written of it is then cut into the tokens of its tree, whatever
follows, and the tree stands for the same filter again, up to how named filters are made and what
else than its text there is of a pattern. It behaves as the filter did, if the patterns in this were
what their texts are compiled to. All filters that are read are expressible, and these are read
again as they were.
-/

namespace Logging

open Expression

namespace Filter

variable {π : Type}

/-! ### What is in a filter -/

mutual

/-- The tree that is written for a filter. -/
def expr : Filter π → Expr
  | accept => .accept
  | deny => .deny
  | not f => .not f.expr
  | all fs => .all (exprList fs)
  | any fs => .any (exprList fs)
  | levels ls => .levels (ls.map (·.name))
  | levelRange min minIn max maxIn => .levelRange minIn min.name max.name maxIn
  | levelChange l => .levelChange l.name
  | «match» p => .match p.source
  | substitute p replacement everywhere => .substitute p.source replacement everywhere
  | named name _ => .ident name
  | reference name _ => .ident name

def exprList : List (Filter π) → List Expr
  | [] => []
  | f :: fs => f.expr :: exprList fs

end

variable (m : Type → Type) [Monad m]

/-- What can be observed of a filter: how it judges records, for all ways of calling predicates. -/
def Behaviour (π : Type) (m : Type → Type) : Type :=
  (π → Record → m Outcome) → Record → m Outcome

def behaviour (f : Filter π) : Behaviour π m := fun call r => f.evaluate call r

/-- The pattern with nothing left of it but its text. -/
def textOnly (p : Pattern) : Pattern := ⟨p.source, fun _ => false, fun _ _ _ => none⟩

mutual

/-- The filter with nothing left of patterns but their texts, and of what is named but the names and
how it behaves. -/
def observed : Filter π → Filter (Behaviour π m)
  | accept => accept
  | deny => deny
  | not f => not f.observed
  | all fs => all (observedList fs)
  | any fs => any (observedList fs)
  | levels ls => levels ls
  | levelRange min minIn max maxIn => levelRange min minIn max maxIn
  | levelChange l => levelChange l
  | «match» p => «match» (textOnly p)
  | substitute p replacement everywhere => substitute (textOnly p) replacement everywhere
  | named name p => named name (behaviour m (named name p))
  | reference name f => named name (behaviour m f)

def observedList : List (Filter π) → List (Filter (Behaviour π m))
  | [] => []
  | f :: fs => f.observed :: observedList fs

end

variable (names : Resolver π)

/-- A level that is found again under its name, which can be written. -/
def LevelExpressible (l : Level) : Prop := IsIdentifier l.name ∧ names.level? l.name = some l

/-- A pattern whose text compiles. -/
def PatternExpressible [Pattern.Engine] (p : Pattern) : Prop :=
  (Pattern.Engine.compile? p.source).isSome

/-- A pattern that is what its text is compiled to. -/
def PatternCompiled [Pattern.Engine] (p : Pattern) : Prop :=
  Pattern.Engine.compile? p.source = some p

/-- A name that can be written, of a filter that behaves in a given way. -/
def NameExpressible (name : String) (b : Behaviour π m) : Prop :=
  IsIdentifier name ∧ name ∉ keywords ∧ ∃ g, names.filter? name = some g ∧ behaviour m g = b

mutual

/-- Lists have items, patterns compile, and all names stand for what is in the filter. -/
def PartsExpressible [Pattern.Engine] : Filter π → Prop
  | accept => True
  | deny => True
  | not f => f.PartsExpressible
  | all fs => fs ≠ [] ∧ PartsExpressibleList fs
  | any fs => fs ≠ [] ∧ PartsExpressibleList fs
  | levels ls => ls ≠ [] ∧ ∀ l ∈ ls, LevelExpressible names l
  | levelRange min _ max _ => LevelExpressible names min ∧ LevelExpressible names max
  | levelChange l => LevelExpressible names l
  | «match» p => PatternExpressible p
  | substitute p _ _ => PatternExpressible p
  | named name p => NameExpressible m names name (behaviour m (named name p))
  | reference name f => NameExpressible m names name (behaviour m f)

def PartsExpressibleList [Pattern.Engine] : List (Filter π) → Prop
  | [] => True
  | f :: fs => f.PartsExpressible ∧ PartsExpressibleList fs

end

mutual

/-- All patterns are what their texts are compiled to. -/
def Compiled [Pattern.Engine] : Filter π → Prop
  | not f => f.Compiled
  | all fs => CompiledList fs
  | any fs => CompiledList fs
  | «match» p => PatternCompiled p
  | substitute p _ _ => PatternCompiled p
  | _ => True

def CompiledList [Pattern.Engine] : List (Filter π) → Prop
  | [] => True
  | f :: fs => f.Compiled ∧ CompiledList fs

end

/-- A filter that can be written: its parts can, and they lie no deeper than they may. -/
structure Expressible [Pattern.Engine] (f : Filter π) : Prop where
  parts : f.PartsExpressible m names
  nesting : f.expr.depth ≤ 64

variable {m} {names}

/-! ### What is written -/

/-- The text is cut into these tokens, whatever follows that no name goes on into. -/
def Writes (s : String) (ts : List Token) : Prop :=
  ∀ cs us, Stops cs → Lexes cs us → Lexes (s.toList ++ cs) (ts ++ us)

/-- Keywords are written like identifiers. -/
lemma isIdentifier_of_mem_keywords {n : String} (hn : n ∈ keywords) : IsIdentifier n := by
  have h : ∀ n ∈ keywords, IsIdentifier n := by decide +kernel
  exact h n hn

variable {s s' : String} {ts us : List Token} {n n' : String}

lemma writes_ident (hn : IsIdentifier n) : Writes n [.ident n] :=
  fun _ _ hcs h => h.ident hn hcs

/-- Something in parentheses after a keyword. -/
lemma Writes.call (hn : n ∈ keywords) (h : Writes s ts) :
    Writes (n ++ "(" ++ s ++ ")") (.ident n :: .leftParen :: ts ++ [.rightParen]) := by
  intro cs us _ hcs
  simp only [String.toList_append, List.append_assoc]
  refine Lexes.ident (isIdentifier_of_mem_keywords hn) (stops_cons_of_punctuation? rfl)
    (Lexes.punctuation rfl ?_)
  exact h _ _ (stops_cons_of_punctuation? rfl) (Lexes.punctuation rfl hcs)

lemma writes_source (s : String) : Writes (Text.Quoted.source s) [.string s] :=
  fun _ _ _ h => h.string s

/-- Two things with a comma between them. -/
lemma Writes.comma (h : Writes s ts) (h' : Writes s' us) :
    Writes (s ++ "," ++ s') (ts ++ .comma :: us) := by
  intro cs vs hstop hcs
  simp only [String.toList_append, List.append_assoc]
  exact h _ _ (stops_cons_of_punctuation? rfl) (Lexes.punctuation rfl (h' _ _ hstop hcs))

lemma writes_range (minIn maxIn : Bool) (hn : IsIdentifier n) (hn' : IsIdentifier n') :
    Writes ("levelRange" ++ (if minIn then "[" else "(") ++ n ++ "," ++ n' ++
      (if maxIn then "]" else ")"))
      [.ident "levelRange", openingBracket minIn, .ident n, .comma, .ident n',
        closingBracket maxIn] := by
  intro cs us _ hcs
  simp only [String.toList_append, List.append_assoc]
  -- from the bracket at the end to the name at the beginning
  have hend : Lexes ((if maxIn then "]" else ")").toList ++ cs) (closingBracket maxIn :: us) := by
    cases maxIn <;> exact Lexes.punctuation rfl hcs
  have hstop : Stops ((if maxIn then "]" else ")").toList ++ cs) := by
    cases maxIn <;> exact stops_cons_of_punctuation? rfl
  have hlevels := Lexes.ident hn (stops_cons_of_punctuation? rfl)
    (Lexes.punctuation (c := ',') rfl (Lexes.ident hn' hstop hend))
  refine Lexes.ident (isIdentifier_of_mem_keywords (by simp [keywords])) ?_ ?_
  · cases minIn <;> exact stops_cons_of_punctuation? rfl
  · cases minIn <;> exact Lexes.punctuation rfl hlevels

variable {α β : Type} {Item : β → List Token → Prop}

/-- A list with commas, if its items can be written. -/
lemma exists_writes_intercalate {write : α → String} {tree : α → β} {as : List α} (has : as ≠ [])
    (h : ∀ a ∈ as, ∃ ts, Item (tree a) ts ∧ Writes (write a) ts) :
    ∃ ts, Separated Item (as.map tree) ts ∧ Writes (String.intercalate "," (as.map write)) ts := by
  induction as with
  | nil => exact absurd rfl has
  | cons a as ih =>
    obtain ⟨ts, ha, hw⟩ := h a List.mem_cons_self
    cases as with
    | nil =>
      refine ⟨ts, .one ha, ?_⟩
      rw [List.map_singleton, String.intercalate_singleton]
      exact hw
    | cons b as =>
      obtain ⟨us, hs, hws⟩ := ih (by simp) fun a ha => h a (List.mem_cons_of_mem _ ha)
      refine ⟨ts ++ .comma :: us, .more ha hs, ?_⟩
      rw [List.map_cons, List.map_cons, String.intercalate_cons_cons]
      exact hw.comma hws

lemma exprList_eq_map (fs : List (Filter π)) : exprList fs = fs.map expr := by
  induction fs with
  | nil => rfl
  | cons f fs ih => simp [exprList, ih]

lemma renderList_eq_map (fs : List (Filter π)) : renderList fs = fs.map render := by
  induction fs with
  | nil => rfl
  | cons f fs ih => simp [renderList, ih]

/-- The names of levels, in a list that is not empty. -/
lemma exists_writes_levels {ls : List Level} (hne : ls ≠ [])
    (hls : ∀ l ∈ ls, LevelExpressible names l) :
    ∃ ts, Separated IsName (ls.map (·.name)) ts ∧
      Writes (String.intercalate "," (ls.map (·.name))) ts :=
  exists_writes_intercalate hne fun l hl => ⟨[.ident l.name], rfl, writes_ident (hls l hl).1⟩

mutual

/-- What is written of a filter does not depend on more than can be observed of it. -/
lemma render_observed (f : Filter π) : (f.observed m).render = f.render := by
  cases f with
  | not f => rw [observed, render, render, render_observed f]
  | all fs => rw [observed, render, render, renderList_observed fs]
  | any fs => rw [observed, render, render, renderList_observed fs]
  | _ => rfl

lemma renderList_observed (fs : List (Filter π)) :
    renderList (observedList m fs) = renderList fs := by
  cases fs with
  | nil => rfl
  | cons f fs =>
    rw [observedList, renderList, renderList, render_observed f, renderList_observed fs]

end

/-! ### How filters behave -/

section

variable {f g : Filter π} {fs gs : List (Filter π)}

lemma behaviour_registeredAs (name : String) (g : Filter π) :
    behaviour m (g.registeredAs name) = behaviour m g := by
  funext call r
  cases g <;> simp only [behaviour, registeredAs, evaluate]

lemma behaviour_not (h : behaviour m f = behaviour m g) :
    behaviour m f.not = behaviour m g.not := by
  funext call r
  have hr : f.evaluate call r = g.evaluate call r := congrFun (congrFun h call) r
  simp only [behaviour, evaluate, hr]

/-- Lists behave alike if their parts do, one by one. -/
lemma behaviour_all (h : List.Forall₂ (behaviour m · = behaviour m ·) fs gs) :
    behaviour m (all fs) = behaviour m (all gs) := by
  funext call r
  simp only [behaviour, evaluate]
  induction h generalizing r with
  | nil => rfl
  | @cons f g _ _ hf _ ih =>
    have hr : f.evaluate call r = g.evaluate call r := congrFun (congrFun hf call) r
    simp only [evaluateAll, hr, ih]

lemma behaviour_any (h : List.Forall₂ (behaviour m · = behaviour m ·) fs gs) :
    behaviour m (any fs) = behaviour m (any gs) := by
  funext call r
  simp only [behaviour, evaluate]
  induction h generalizing r with
  | nil => rfl
  | @cons f g _ _ hf _ ih =>
    have hr : f.evaluate call r = g.evaluate call r := congrFun (congrFun hf call) r
    simp only [evaluateAny, hr, ih]

end

/-! ### What names stand for -/

lemma observed_registeredAs (name : String) (g : Filter π) :
    (g.registeredAs name).observed m = .named name (behaviour m g) := by
  cases g <;> rfl

lemma mapM_level?_names {ls : List Level} (hls : ∀ l ∈ ls, LevelExpressible names l) :
    (ls.map (·.name)).mapM names.level? = some ls := by
  induction ls with
  | nil => rfl
  | cons l ls ih =>
    rw [List.forall_mem_cons] at hls
    exact Expression.mapM_cons_eq_some_iff.2 ⟨l, ls, hls.1.2, ih hls.2, rfl⟩

/-- Each level of the registry goes by its own name. -/
def LevelsNamed (names : Resolver π) : Prop := ∀ n l, names.level? n = some l → l.name = n

lemma levelExpressible_of_level? (hl : LevelsNamed names) {l : Level} (hn : IsIdentifier n)
    (h : names.level? n = some l) : LevelExpressible names l := by
  obtain rfl := hl n l h
  exact ⟨hn, h⟩

lemma levels_of_mapM (hl : LevelsNamed names) {ns : List String} {ls : List Level}
    (hns : ∀ n ∈ ns, IsIdentifier n) (h : ns.mapM names.level? = some ls) :
    (∀ l ∈ ls, LevelExpressible names l) ∧ ls.map (·.name) = ns := by
  induction ns generalizing ls with
  | nil =>
    cases h
    exact ⟨by simp, rfl⟩
  | cons n ns ih =>
    rw [List.forall_mem_cons] at hns
    obtain ⟨l, ls, hn, hls, rfl⟩ := Expression.mapM_cons_eq_some_iff.1 h
    obtain ⟨h, h'⟩ := ih hns.2 hls
    refine ⟨List.forall_mem_cons.2 ⟨levelExpressible_of_level? hl hns.1 hn, h⟩, ?_⟩
    simp [h', hl n l hn]

/-- The identifiers among some tokens, all of which have that shape. -/
def Shaped (ts : List Token) : Prop := ∀ n, .ident n ∈ ts → IsIdentifier n

lemma Shaped.mono (h : Shaped ts) (hus : us ⊆ ts) : Shaped us := fun n hn => h n (hus hn)

/-- What stands between a keyword with a parenthesis and the end. -/
lemma Shaped.inner {t t' t'' : Token} (h : Shaped (t :: t' :: ts ++ [t''])) : Shaped ts :=
  h.mono fun _ ht => by simp [ht]

lemma Shaped.isIdentifier_of_separated {ns : List String} (h : Shaped ts)
    (hs : Separated IsName ns ts) : ∀ n ∈ ns, IsIdentifier n := by
  induction hs with
  | one hn =>
    cases hn
    simpa using h _ List.mem_cons_self
  | more hn _ ih =>
    cases hn
    rw [List.forall_mem_cons]
    exact ⟨h _ List.mem_cons_self, ih (h.mono fun _ ht => by simp [ht])⟩

variable [Pattern.Engine]

/-! ### The tokens of what is written -/

mutual

/-- What is written of a filter is cut into the tokens of its tree. -/
theorem exists_derives_writes (f : Filter π) (hf : f.PartsExpressible m names) :
    ∃ ts, Derives f.expr ts ∧ Writes f.render ts := by
  cases f with
  | accept => exact ⟨_, .accept, writes_ident (n := "accept") (by decide +kernel)⟩
  | deny => exact ⟨_, .deny, writes_ident (n := "deny") (by decide +kernel)⟩
  | not f =>
    obtain ⟨ts, h, hw⟩ := exists_derives_writes f hf
    exact ⟨_, .not h, Writes.call (n := "not") (by simp [keywords]) hw⟩
  | all fs =>
    obtain ⟨ts, h, hw⟩ := exists_writes_intercalate hf.1 (exists_derives_writes_of_mem fs hf.2)
    rw [← exprList_eq_map] at h
    rw [← renderList_eq_map] at hw
    exact ⟨_, .all h, Writes.call (n := "all") (by simp [keywords]) hw⟩
  | any fs =>
    obtain ⟨ts, h, hw⟩ := exists_writes_intercalate hf.1 (exists_derives_writes_of_mem fs hf.2)
    rw [← exprList_eq_map] at h
    rw [← renderList_eq_map] at hw
    exact ⟨_, .any h, Writes.call (n := "any") (by simp [keywords]) hw⟩
  | levels ls =>
    obtain ⟨ts, h, hw⟩ := exists_writes_levels hf.1 hf.2
    exact ⟨_, .levels h, Writes.call (n := "levels") (by simp [keywords]) hw⟩
  | levelRange min minIn max maxIn =>
    exact ⟨_, .levelRange .., writes_range minIn maxIn hf.1.1 hf.2.1⟩
  | levelChange l =>
    have hw := writes_ident hf.1
    exact ⟨_, .levelChange _, Writes.call (n := "levelChange") (by simp [keywords]) hw⟩
  | «match» p =>
    have hw := writes_source p.source
    exact ⟨_, .match _, Writes.call (n := "match") (by simp [keywords]) hw⟩
  | substitute p r everywhere =>
    have hw := (writes_source p.source).comma (writes_source r)
    cases everywhere with
    | false =>
      refine ⟨_, .substitute _ _, ?_⟩
      have h := Writes.call (n := "substitute") (by simp [keywords]) hw
      rwa [← String.append_assoc, ← String.append_assoc] at h
    | true =>
      refine ⟨_, .substituteAll _ _, ?_⟩
      have h := Writes.call (n := "substituteAll") (by simp [keywords]) hw
      rwa [← String.append_assoc, ← String.append_assoc] at h
  | named name p => exact ⟨_, .ident hf.2.1, writes_ident hf.1⟩
  | reference name f => exact ⟨_, .ident hf.2.1, writes_ident hf.1⟩

theorem exists_derives_writes_of_mem (fs : List (Filter π))
    (hfs : PartsExpressibleList m names fs) :
    ∀ f ∈ fs, ∃ ts, Derives f.expr ts ∧ Writes f.render ts := by
  cases fs with
  | nil =>
    intro f hf
    cases hf
  | cons f fs =>
    rw [List.forall_mem_cons]
    exact ⟨exists_derives_writes f hfs.1, exists_derives_writes_of_mem fs hfs.2⟩

end

/-! ### What is read again -/

/-- What a name stands for is the filter that is named so, as far as it can be observed. -/
lemma denote?_ident {b : Behaviour π m} (h : NameExpressible m names n b) :
    ∃ g, (Expr.ident n).denote? names = some g ∧ g.observed m = .named n b ∧
      behaviour m g = b := by
  obtain ⟨-, -, g, hg, rfl⟩ := h
  refine ⟨g.registeredAs n, ?_, observed_registeredAs n g, behaviour_registeredAs n g⟩
  rw [Expr.denote?, hg]
  rfl

/-- A text that compiles stands for a pattern with this text. -/
lemma exists_compile? {p : Pattern} (hp : PatternExpressible p) :
    ∃ q, Pattern.Engine.compile? p.source = some q ∧ textOnly q = textOnly p ∧
      (PatternCompiled p → q = p) := by
  obtain ⟨q, hq⟩ := Option.isSome_iff_exists.1 hp
  refine ⟨q, hq, ?_, fun hc => Option.some.inj (hq.symm.trans hc)⟩
  rw [textOnly, textOnly, Pattern.Engine.source_of_compile? hq]

mutual

/-- The tree of a filter stands for what cannot be told from the filter, and behaves like it if its
patterns are what is compiled. -/
theorem exists_denote?_expr (f : Filter π) (hf : f.PartsExpressible m names) :
    ∃ g, f.expr.denote? names = some g ∧ g.observed m = f.observed m ∧
      (f.Compiled → behaviour m g = behaviour m f) := by
  cases f with
  | accept => exact ⟨.accept, rfl, rfl, fun _ => rfl⟩
  | deny => exact ⟨.deny, rfl, rfl, fun _ => rfl⟩
  | not f =>
    obtain ⟨g, hg, ho, hb⟩ := exists_denote?_expr f hf
    refine ⟨.not g, ?_, ?_, fun hc => behaviour_not (hb hc)⟩
    · rw [expr, Expr.denote?, hg]
      rfl
    · simp [observed, ho]
  | all fs =>
    obtain ⟨gs, hg, ho, hb⟩ := exists_denoteList?_expr fs hf.2
    refine ⟨.all gs, ?_, ?_, fun hc => behaviour_all (hb hc)⟩
    · rw [expr, Expr.denote?, hg]
      rfl
    · simp [observed, ho]
  | any fs =>
    obtain ⟨gs, hg, ho, hb⟩ := exists_denoteList?_expr fs hf.2
    refine ⟨.any gs, ?_, ?_, fun hc => behaviour_any (hb hc)⟩
    · rw [expr, Expr.denote?, hg]
      rfl
    · simp [observed, ho]
  | levels ls =>
    refine ⟨.levels ls, ?_, rfl, fun _ => rfl⟩
    rw [expr, Expr.denote?, mapM_level?_names hf.2]
    rfl
  | levelRange min minIn max maxIn =>
    refine ⟨.levelRange min minIn max maxIn, ?_, rfl, fun _ => rfl⟩
    rw [expr, Expr.denote?, hf.1.2, hf.2.2]
    rfl
  | levelChange l =>
    refine ⟨.levelChange l, ?_, rfl, fun _ => rfl⟩
    rw [expr, Expr.denote?, hf.2]
    rfl
  | «match» p =>
    obtain ⟨q, hq, htext, hc⟩ := exists_compile? hf
    refine ⟨.match q, ?_, ?_, fun h => by rw [hc h]⟩
    · rw [expr, Expr.denote?, hq]
      rfl
    · simp [observed, htext]
  | substitute p r everywhere =>
    obtain ⟨q, hq, htext, hc⟩ := exists_compile? hf
    refine ⟨.substitute q r everywhere, ?_, ?_, fun h => by rw [hc h]⟩
    · rw [expr, Expr.denote?, hq]
      rfl
    · simp [observed, htext]
  | named name p =>
    obtain ⟨g, hg, ho, hb⟩ := denote?_ident hf
    exact ⟨g, hg, ho, fun _ => hb⟩
  | reference name f =>
    obtain ⟨g, hg, ho, hb⟩ := denote?_ident hf
    refine ⟨g, hg, ho, fun _ => hb.trans ?_⟩
    funext call r
    simp only [behaviour, evaluate]

theorem exists_denoteList?_expr (fs : List (Filter π)) (hfs : PartsExpressibleList m names fs) :
    ∃ gs, Expr.denoteList? names (exprList fs) = some gs ∧
      observedList m gs = observedList m fs ∧
      (CompiledList fs → List.Forall₂ (behaviour m · = behaviour m ·) gs fs) := by
  cases fs with
  | nil => exact ⟨[], rfl, rfl, fun _ => .nil⟩
  | cons f fs =>
    obtain ⟨g, hg, ho, hb⟩ := exists_denote?_expr f hfs.1
    obtain ⟨gs, hgs, hos, hbs⟩ := exists_denoteList?_expr fs hfs.2
    refine ⟨g :: gs, ?_, ?_, fun hc => .cons (hb hc.1) (hbs hc.2)⟩
    · rw [exprList, Expr.denoteList?, hg, hgs]
      rfl
    · rw [observedList, observedList, ho, hos]

end

/-! ### What was read -/

lemma parts_registeredAs {g : Filter π} (hi : IsIdentifier n) (hk : n ∉ keywords)
    (hg : names.filter? n = some g) :
    (g.registeredAs n).PartsExpressible m names ∧ (g.registeredAs n).Compiled ∧
      (g.registeredAs n).expr = .ident n := by
  have h : NameExpressible m names n (behaviour m g) := ⟨hi, hk, g, hg, rfl⟩
  cases g <;> exact ⟨h, trivial, rfl⟩

mutual

/-- A filter that a tree stands for is expressible, its patterns are what is compiled, and the tree
is written for it. -/
theorem parts_of_denote? (hl : LevelsNamed names) (e : Expr) {ts : List Token} {f : Filter π}
    (hts : Shaped ts) (he : Derives e ts) (hf : e.denote? names = some f) :
    f.PartsExpressible m names ∧ f.Compiled ∧ f.expr = e := by
  cases e with
  | accept | deny =>
    cases hf
    exact ⟨trivial, trivial, rfl⟩
  | not e =>
    obtain ⟨g, hg, rfl⟩ := Option.map_eq_some_iff.1 hf
    cases he with
    | not he =>
      obtain ⟨hp, hc, hx⟩ := parts_of_denote? hl e hts.inner he hg
      exact ⟨hp, hc, by rw [expr, hx]⟩
  | all es =>
    obtain ⟨gs, hg, rfl⟩ := Option.map_eq_some_iff.1 hf
    cases he with
    | all he =>
      obtain ⟨hne, hp, hc, hx⟩ := parts_of_denoteList? hl es hts.inner he hg
      exact ⟨⟨hne, hp⟩, hc, by rw [expr, hx]⟩
  | any es =>
    obtain ⟨gs, hg, rfl⟩ := Option.map_eq_some_iff.1 hf
    cases he with
    | any he =>
      obtain ⟨hne, hp, hc, hx⟩ := parts_of_denoteList? hl es hts.inner he hg
      exact ⟨⟨hne, hp⟩, hc, by rw [expr, hx]⟩
  | levels ns =>
    obtain ⟨ls, hls, rfl⟩ := Option.map_eq_some_iff.1 hf
    cases he with
    | levels he =>
      obtain ⟨hp, rfl⟩ := levels_of_mapM hl (hts.inner.isIdentifier_of_separated he) hls
      obtain ⟨n, ns, hne⟩ := he.exists_cons
      exact ⟨⟨fun h => by simp [h] at hne, hp⟩, trivial, rfl⟩
  | levelRange minIn min max maxIn =>
    obtain ⟨l, hmin, hf⟩ := Option.bind_eq_some_iff.1 hf
    obtain ⟨l', hmax, hf⟩ := Option.bind_eq_some_iff.1 hf
    cases hf
    cases he
    obtain rfl := hl _ _ hmin
    obtain rfl := hl _ _ hmax
    exact ⟨⟨⟨hts _ (by simp), hmin⟩, hts _ (by simp), hmax⟩, trivial, rfl⟩
  | levelChange n =>
    obtain ⟨l, hn, rfl⟩ := Option.map_eq_some_iff.1 hf
    cases he
    obtain rfl := hl _ _ hn
    exact ⟨⟨hts _ (by simp), hn⟩, trivial, rfl⟩
  | «match» p =>
    obtain ⟨q, hq, rfl⟩ := Option.map_eq_some_iff.1 hf
    obtain rfl := Pattern.Engine.source_of_compile? hq
    exact ⟨Option.isSome_of_mem hq, hq, rfl⟩
  | substitute p r everywhere =>
    obtain ⟨q, hq, rfl⟩ := Option.map_eq_some_iff.1 hf
    obtain rfl := Pattern.Engine.source_of_compile? hq
    exact ⟨Option.isSome_of_mem hq, hq, rfl⟩
  | ident n =>
    obtain ⟨g, hg, rfl⟩ := Option.map_eq_some_iff.1 hf
    cases he with
    | ident hk => exact parts_registeredAs (hts _ (by simp)) hk hg

theorem parts_of_denoteList? (hl : LevelsNamed names) (es : List Expr) {ts : List Token}
    {fs : List (Filter π)} (hts : Shaped ts) (he : Separated Derives es ts)
    (hf : Expr.denoteList? names es = some fs) :
    fs ≠ [] ∧ PartsExpressibleList m names fs ∧ CompiledList fs ∧ exprList fs = es := by
  cases es with
  | nil => cases he
  | cons e es =>
    rw [Expr.denoteList?_eq_mapM] at hf
    obtain ⟨g, gs, hg, hgs, rfl⟩ := Expression.mapM_cons_eq_some_iff.1 hf
    rw [← Expr.denoteList?_eq_mapM] at hgs
    cases he with
    | one he =>
      cases hgs
      obtain ⟨hp, hc, hx⟩ := parts_of_denote? hl e hts he hg
      exact ⟨List.cons_ne_nil _ _, ⟨hp, trivial⟩, ⟨hc, trivial⟩, by rw [exprList, hx, exprList]⟩
    | more he hes =>
      obtain ⟨hp, hc, hx⟩ := parts_of_denote? hl e (hts.mono fun _ ht => by simp [ht]) he hg
      obtain ⟨-, hps, hcs, hxs⟩ :=
        parts_of_denoteList? hl es (hts.mono fun _ ht => by simp [ht]) hes hgs
      exact ⟨List.cons_ne_nil _ _, ⟨hp, hps⟩, ⟨hc, hcs⟩, by rw [exprList, hx, hxs]⟩

end

/-! ### The round trip -/

/-- The tokens of what is written of a filter have its tree. -/
lemma exists_tokenize_render {f : Filter π} (hf : f.PartsExpressible m names) :
    ∃ us, tokenize f.render = .ok us ∧ Derives f.expr (us.map Placed.token) := by
  obtain ⟨ts, hd, hw⟩ := exists_derives_writes f hf
  have h := hw [] [] (fun c hc => nomatch hc) lexes_nil
  rw [List.append_nil, List.append_nil] at h
  obtain ⟨us, hus, rfl⟩ := tokenize_of_lexes h
  exact ⟨us, hus, hd⟩

/-- An expressible filter is read again, as far as filters can be told apart. -/
theorem exists_parse_render {f : Filter π} (hf : f.Expressible m names) :
    ∃ g, parse names f.render = .ok g ∧ g.observed m = f.observed m ∧
      (f.Compiled → behaviour m g = behaviour m f) := by
  obtain ⟨us, hus, hd⟩ := exists_tokenize_render hf.parts
  obtain ⟨g, hg, ho, hb⟩ := exists_denote?_expr f hf.parts
  exact ⟨g, parse_eq_ok_iff.2 ⟨us, hus, f.expr, ⟨hd, hf.nesting⟩, hg⟩, ho, hb⟩

/-- A filter that was read is expressible, and is read again as it was. -/
theorem expressible_of_parse (hl : LevelsNamed names) {text : String} {f : Filter π}
    (h : parse names text = .ok f) :
    f.Expressible m names ∧ f.Compiled ∧ parse names f.render = .ok f := by
  obtain ⟨us, hus, e, ⟨hd, he⟩, hf⟩ := parse_eq_ok_iff.1 h
  have hs : Shaped (us.map Placed.token) := fun n hn => isIdentifier_of_tokenize hus hn
  obtain ⟨hp, hc, rfl⟩ := parts_of_denote? (m := m) hl e hs hd hf
  obtain ⟨us', hus', hd'⟩ := exists_tokenize_render hp
  exact ⟨⟨hp, he⟩, hc, parse_eq_ok_iff.2 ⟨us', hus', f.expr, ⟨hd', he⟩, hf⟩⟩

/-- Filters that are written alike cannot be told apart. -/
theorem observed_eq_of_render_eq {f g : Filter π} (hf : f.Expressible m names)
    (hg : g.Expressible m names) (h : f.render = g.render) : f.observed m = g.observed m := by
  obtain ⟨f', hf', hof, -⟩ := exists_parse_render hf
  obtain ⟨g', hg', hog, -⟩ := exists_parse_render hg
  rw [h, hg'] at hf'
  cases hf'
  exact hof.symm.trans hog

end Filter

end Logging
