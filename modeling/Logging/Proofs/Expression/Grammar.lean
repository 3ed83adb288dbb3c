import Mathlib.Tactic.Common
import Logging.Expression.Parser

/-!
# The grammar of filter expressions

    expr := accept | deny | not ( expr )
          | all ( expr , ... ) | any ( expr , ... )
          | levels ( level , ... )
          | levelRange [ level , level ]      (either bracket may be round instead)
          | levelChange ( level )
          | match ( string )
          | substitute ( string , string ) | substituteAll ( string , string )
          | identifier

`Derives` is this grammar as a relation between syntax trees and sequences of tokens. It says
nothing of a reader, and nothing of what the names stand for: that is `Expr.denote?`. No sequence
of tokens has two trees (`Derives.unique`).
-/

namespace Logging.Expression

/-! ### Syntax trees -/

/-- The tree of an expression, with the names and texts that occur in it. -/
inductive Expr
  | accept
  | deny
  | not (inner : Expr)
  | all (parts : List Expr)
  | any (parts : List Expr)
  | levels (names : List String)
  | levelRange (minIncluded : Bool) (min max : String) (maxIncluded : Bool)
  | levelChange (name : String)
  | «match» (pattern : String)
  | substitute (pattern replacement : String) (everywhere : Bool)
  | ident (name : String)

/-- The identifiers that begin an expression of their own and never name a filter. -/
def keywords : List String :=
  ["accept", "deny", "not", "all", "any", "levels", "levelRange", "levelChange", "match",
    "substitute", "substituteAll"]

/-- A name is one of the keywords or an identifier. -/
theorem keyword_cases {motive : String → Prop}
    (accept : motive "accept") (deny : motive "deny") (not : motive "not") (all : motive "all")
    (any : motive "any") (levels : motive "levels") (levelRange : motive "levelRange")
    (levelChange : motive "levelChange") («match» : motive "match")
    (substitute : motive "substitute") (substituteAll : motive "substituteAll")
    (ident : ∀ n, n ∉ keywords → motive n) (n : String) : motive n := by
  by_cases hn : n ∈ keywords
  · simp only [keywords, List.mem_cons, List.not_mem_nil, or_false] at hn
    rcases hn with rfl | rfl | rfl | rfl | rfl | rfl | rfl | rfl | rfl | rfl | rfl <;> assumption
  · exact ident n hn

namespace Expr

mutual

/-- How many expressions lie within each other. -/
def depth : Expr → Nat
  | not e => e.depth + 1
  | all es => depthList es + 1
  | any es => depthList es + 1
  | _ => 1

def depthList : List Expr → Nat
  | [] => 0
  | e :: es => max e.depth (depthList es)

end

mutual

/-- The names in the places of levels. -/
def levelNames : Expr → List String
  | not e => e.levelNames
  | all es => levelNamesList es
  | any es => levelNamesList es
  | levels names => names
  | levelRange _ min max _ => [min, max]
  | levelChange name => [name]
  | _ => []

def levelNamesList : List Expr → List String
  | [] => []
  | e :: es => e.levelNames ++ levelNamesList es

end

mutual

/-- The names in the places of expressions. -/
def filterNames : Expr → List String
  | not e => e.filterNames
  | all es => filterNamesList es
  | any es => filterNamesList es
  | ident name => [name]
  | _ => []

def filterNamesList : List Expr → List String
  | [] => []
  | e :: es => e.filterNames ++ filterNamesList es

end

mutual

/-- The texts in the places of patterns. -/
def patterns : Expr → List String
  | not e => e.patterns
  | all es => patternsList es
  | any es => patternsList es
  | «match» pattern => [pattern]
  | substitute pattern _ _ => [pattern]
  | _ => []

def patternsList : List Expr → List String
  | [] => []
  | e :: es => e.patterns ++ patternsList es

end

variable {π : Type} [Pattern.Engine] (names : Resolver π)

mutual

/-- The filter that a tree stands for, if all its names and patterns stand for something. -/
def denote? : Expr → Option (Filter π)
  | accept => some .accept
  | deny => some .deny
  | not e => e.denote?.map .not
  | all es => (denoteList? es).map .all
  | any es => (denoteList? es).map .any
  | levels ns => (ns.mapM names.level?).map .levels
  | levelRange minIn min max maxIn => do
    let min ← names.level? min
    let max ← names.level? max
    return .levelRange min minIn max maxIn
  | levelChange n => (names.level? n).map .levelChange
  | «match» p => (Pattern.Engine.compile? p).map .match
  | substitute p replacement everywhere =>
    (Pattern.Engine.compile? p).map fun p => .substitute p replacement everywhere
  | ident n => (names.filter? n).map (·.registeredAs n)

def denoteList? : List Expr → Option (List (Filter π))
  | [] => some []
  | e :: es => do return (← e.denote?) :: (← denoteList? es)

end

/-- All of some names of levels, names of filters and texts of patterns stand for something. -/
structure Known (levels filters patterns : List String) : Prop where
  levels : ∀ n ∈ levels, (names.level? n).isSome
  filters : ∀ n ∈ filters, (names.filter? n).isSome
  patterns : ∀ p ∈ patterns, (Pattern.Engine.compile? p).isSome

/-- All that occurs in a tree stands for something. -/
def Resolved (e : Expr) : Prop := Known names e.levelNames e.filterNames e.patterns

end Expr

/-! ### Derivations -/

/-- One or more items with commas between them. -/
inductive Separated {α : Type} (Item : α → List Token → Prop) : List α → List Token → Prop
  | one {a : α} {ts : List Token} (h : Item a ts) : Separated Item [a] ts
  | more {a : α} {as : List α} {ts us : List Token} (h : Item a ts)
      (hs : Separated Item as us) : Separated Item (a :: as) (ts ++ .comma :: us)

lemma Separated.exists_cons {α : Type} {Item : α → List Token → Prop} {as : List α}
    {ts : List Token} (h : Separated Item as ts) : ∃ a as', as = a :: as' := by
  cases h <;> exact ⟨_, _, rfl⟩

/-- The bracket at the beginning of a range, and the one at its end. -/
def openingBracket (included : Bool) : Token := if included then .leftBracket else .leftParen

def closingBracket (included : Bool) : Token := if included then .rightBracket else .rightParen

lemma openingBracket_inj {b b' : Bool} (h : openingBracket b = openingBracket b') : b = b' := by
  cases b <;> cases b' <;> cases h <;> rfl

lemma closingBracket_inj {b b' : Bool} (h : closingBracket b = closingBracket b') : b = b' := by
  cases b <;> cases b' <;> cases h <;> rfl

/-- A name stands for itself. -/
def IsName (name : String) (ts : List Token) : Prop := ts = [.ident name]

/-- The tree derives the tokens. -/
inductive Derives : Expr → List Token → Prop
  | accept : Derives .accept [.ident "accept"]
  | deny : Derives .deny [.ident "deny"]
  | not {e : Expr} {ts : List Token} (h : Derives e ts) :
    Derives (.not e) (.ident "not" :: .leftParen :: ts ++ [.rightParen])
  | all {es : List Expr} {ts : List Token} (h : Separated Derives es ts) :
    Derives (.all es) (.ident "all" :: .leftParen :: ts ++ [.rightParen])
  | any {es : List Expr} {ts : List Token} (h : Separated Derives es ts) :
    Derives (.any es) (.ident "any" :: .leftParen :: ts ++ [.rightParen])
  | levels {ns : List String} {ts : List Token} (h : Separated IsName ns ts) :
    Derives (.levels ns) (.ident "levels" :: .leftParen :: ts ++ [.rightParen])
  | levelRange (minIn : Bool) (min max : String) (maxIn : Bool) :
    Derives (.levelRange minIn min max maxIn) [.ident "levelRange", openingBracket minIn,
      .ident min, .comma, .ident max, closingBracket maxIn]
  | levelChange (n : String) :
    Derives (.levelChange n) [.ident "levelChange", .leftParen, .ident n, .rightParen]
  | «match» (p : String) :
    Derives (.match p) [.ident "match", .leftParen, .string p, .rightParen]
  | substitute (p r : String) :
    Derives (.substitute p r false)
      [.ident "substitute", .leftParen, .string p, .comma, .string r, .rightParen]
  | substituteAll (p r : String) :
    Derives (.substitute p r true)
      [.ident "substituteAll", .leftParen, .string p, .comma, .string r, .rightParen]
  | ident {n : String} (h : n ∉ keywords) : Derives (.ident n) [.ident n]

/-! ### What keywords begin -/

variable {e : Expr} {ts us : List Token} {n : String}

/-- A keyword is no identifier. -/
lemma keyword_ne_ident {k : String} (hk : k ∈ keywords) (hn : n ∉ keywords) :
    Token.ident k :: us ≠ [.ident n] := by
  intro h
  simp only [List.cons.injEq, Token.ident.injEq] at h
  exact hn (h.1 ▸ hk)

lemma derives_accept_iff : Derives e (.ident "accept" :: us) ↔
    e = .accept ∧ us = [] := by
  constructor
  · intro h
    generalize hts : Token.ident "accept" :: us = ts at h
    cases h with
    | accept =>
      obtain ⟨-, rfl⟩ := List.cons.inj hts
      exact ⟨rfl, rfl⟩
    | ident h => exact absurd hts (keyword_ne_ident (by simp [keywords]) h)
    | _ => simp at hts
  · rintro ⟨rfl, rfl⟩
    exact .accept

lemma derives_deny_iff : Derives e (.ident "deny" :: us) ↔
    e = .deny ∧ us = [] := by
  constructor
  · intro h
    generalize hts : Token.ident "deny" :: us = ts at h
    cases h with
    | deny =>
      obtain ⟨-, rfl⟩ := List.cons.inj hts
      exact ⟨rfl, rfl⟩
    | ident h => exact absurd hts (keyword_ne_ident (by simp [keywords]) h)
    | _ => simp at hts
  · rintro ⟨rfl, rfl⟩
    exact .deny

lemma derives_not_iff : Derives e (.ident "not" :: us) ↔
    ∃ e' ts, e = .not e' ∧ us = .leftParen :: ts ++ [.rightParen] ∧ Derives e' ts := by
  constructor
  · intro h
    generalize hts : Token.ident "not" :: us = ts at h
    cases h with
    | not h =>
      obtain ⟨-, rfl⟩ := List.cons.inj hts
      exact ⟨_, _, rfl, rfl, h⟩
    | ident h => exact absurd hts (keyword_ne_ident (by simp [keywords]) h)
    | _ => simp at hts
  · rintro ⟨e', ts, rfl, rfl, h⟩
    exact .not h

lemma derives_all_iff : Derives e (.ident "all" :: us) ↔
    ∃ es ts, e = .all es ∧ us = .leftParen :: ts ++ [.rightParen] ∧ Separated Derives es ts := by
  constructor
  · intro h
    generalize hts : Token.ident "all" :: us = ts at h
    cases h with
    | all h =>
      obtain ⟨-, rfl⟩ := List.cons.inj hts
      exact ⟨_, _, rfl, rfl, h⟩
    | ident h => exact absurd hts (keyword_ne_ident (by simp [keywords]) h)
    | _ => simp at hts
  · rintro ⟨es, ts, rfl, rfl, h⟩
    exact .all h

lemma derives_any_iff : Derives e (.ident "any" :: us) ↔
    ∃ es ts, e = .any es ∧ us = .leftParen :: ts ++ [.rightParen] ∧ Separated Derives es ts := by
  constructor
  · intro h
    generalize hts : Token.ident "any" :: us = ts at h
    cases h with
    | any h =>
      obtain ⟨-, rfl⟩ := List.cons.inj hts
      exact ⟨_, _, rfl, rfl, h⟩
    | ident h => exact absurd hts (keyword_ne_ident (by simp [keywords]) h)
    | _ => simp at hts
  · rintro ⟨es, ts, rfl, rfl, h⟩
    exact .any h

lemma derives_levels_iff : Derives e (.ident "levels" :: us) ↔
    ∃ ns ts, e = .levels ns ∧ us = .leftParen :: ts ++ [.rightParen] ∧ Separated IsName ns ts := by
  constructor
  · intro h
    generalize hts : Token.ident "levels" :: us = ts at h
    cases h with
    | levels h =>
      obtain ⟨-, rfl⟩ := List.cons.inj hts
      exact ⟨_, _, rfl, rfl, h⟩
    | ident h => exact absurd hts (keyword_ne_ident (by simp [keywords]) h)
    | _ => simp at hts
  · rintro ⟨ns, ts, rfl, rfl, h⟩
    exact .levels h

lemma derives_levelRange_iff : Derives e (.ident "levelRange" :: us) ↔
    ∃ minIn min max maxIn, e = .levelRange minIn min max maxIn ∧
      us = [openingBracket minIn, .ident min, .comma, .ident max, closingBracket maxIn] := by
  constructor
  · intro h
    generalize hts : Token.ident "levelRange" :: us = ts at h
    cases h with
    | levelRange minIn min max maxIn =>
      obtain ⟨-, rfl⟩ := List.cons.inj hts
      exact ⟨_, _, _, _, rfl, rfl⟩
    | ident h => exact absurd hts (keyword_ne_ident (by simp [keywords]) h)
    | _ => simp at hts
  · rintro ⟨minIn, min, max, maxIn, rfl, rfl⟩
    exact .levelRange minIn min max maxIn

lemma derives_levelChange_iff : Derives e (.ident "levelChange" :: us) ↔
    ∃ n, e = .levelChange n ∧ us = [.leftParen, .ident n, .rightParen] := by
  constructor
  · intro h
    generalize hts : Token.ident "levelChange" :: us = ts at h
    cases h with
    | levelChange n =>
      obtain ⟨-, rfl⟩ := List.cons.inj hts
      exact ⟨_, rfl, rfl⟩
    | ident h => exact absurd hts (keyword_ne_ident (by simp [keywords]) h)
    | _ => simp at hts
  · rintro ⟨n, rfl, rfl⟩
    exact .levelChange n

lemma derives_match_iff : Derives e (.ident "match" :: us) ↔
    ∃ p, e = .match p ∧ us = [.leftParen, .string p, .rightParen] := by
  constructor
  · intro h
    generalize hts : Token.ident "match" :: us = ts at h
    cases h with
    | «match» p =>
      obtain ⟨-, rfl⟩ := List.cons.inj hts
      exact ⟨_, rfl, rfl⟩
    | ident h => exact absurd hts (keyword_ne_ident (by simp [keywords]) h)
    | _ => simp at hts
  · rintro ⟨p, rfl, rfl⟩
    exact .match p

lemma derives_substitute_iff : Derives e (.ident "substitute" :: us) ↔
    ∃ p r, e = .substitute p r false ∧
      us = [.leftParen, .string p, .comma, .string r, .rightParen] := by
  constructor
  · intro h
    generalize hts : Token.ident "substitute" :: us = ts at h
    cases h with
    | substitute p r =>
      obtain ⟨-, rfl⟩ := List.cons.inj hts
      exact ⟨_, _, rfl, rfl⟩
    | ident h => exact absurd hts (keyword_ne_ident (by simp [keywords]) h)
    | _ => simp at hts
  · rintro ⟨p, r, rfl, rfl⟩
    exact .substitute p r

lemma derives_substituteAll_iff : Derives e (.ident "substituteAll" :: us) ↔
    ∃ p r, e = .substitute p r true ∧
      us = [.leftParen, .string p, .comma, .string r, .rightParen] := by
  constructor
  · intro h
    generalize hts : Token.ident "substituteAll" :: us = ts at h
    cases h with
    | substituteAll p r =>
      obtain ⟨-, rfl⟩ := List.cons.inj hts
      exact ⟨_, _, rfl, rfl⟩
    | ident h => exact absurd hts (keyword_ne_ident (by simp [keywords]) h)
    | _ => simp at hts
  · rintro ⟨p, r, rfl, rfl⟩
    exact .substituteAll p r

lemma derives_ident_iff (hn : n ∉ keywords) :
    Derives e (.ident n :: us) ↔ e = .ident n ∧ us = [] := by
  constructor
  · intro h
    generalize hts : Token.ident n :: us = ts at h
    cases h with
    | ident h =>
      cases hts
      exact ⟨rfl, rfl⟩
    | _ =>
      -- the token would be a keyword
      obtain ⟨hk, -⟩ := List.cons.inj hts
      cases hk
      simp [keywords] at hn
  · rintro ⟨rfl, rfl⟩
    exact .ident hn

/-! ### Depths -/

lemma depthList_le_iff {es : List Expr} {d : Nat} :
    Expr.depthList es ≤ d ↔ ∀ e ∈ es, e.depth ≤ d := by
  induction es with
  | nil => simp [Expr.depthList]
  | cons e es ih => rw [Expr.depthList, Nat.max_le, ih, List.forall_mem_cons]

lemma depth_pos (e : Expr) : 0 < e.depth := by
  cases e <;> simp [Expr.depth]

/-! ### One tree for each sequence of tokens -/

variable {α β : Type} {Item : α → List Token → Prop}

/-- A thing is known by tokens that something else may follow. -/
def PrefixFree (Item : α → List Token → Prop) : Prop :=
  ∀ ⦃a b us vs rest rest'⦄, Item a us → Item b vs → us ++ rest = vs ++ rest' → a = b ∧ us = vs

lemma prefixFree_isName : PrefixFree IsName := by
  rintro a b us vs rest rest' rfl rfl h
  cases h
  exact ⟨rfl, rfl⟩

/-- A list in parentheses ends where the parenthesis closes. -/
lemma Separated.unique (hi : PrefixFree Item) {as bs : List α} {vs rest rest' : List Token}
    (h : Separated Item as us) (h' : Separated Item bs vs)
    (heq : us ++ .rightParen :: rest = vs ++ .rightParen :: rest') : as = bs ∧ us = vs := by
  induction h generalizing bs vs with
  | one ha =>
    cases h' with
    | one hb =>
      obtain ⟨rfl, rfl⟩ := hi ha hb heq
      exact ⟨rfl, rfl⟩
    | more hb hs =>
      rw [List.append_assoc] at heq
      obtain ⟨-, rfl⟩ := hi ha hb heq
      simp at heq
  | more ha hs ih =>
    rw [List.append_assoc] at heq
    cases h' with
    | one hb =>
      obtain ⟨-, rfl⟩ := hi ha hb heq
      simp at heq
    | more hb hs' =>
      rw [List.append_assoc] at heq
      obtain ⟨rfl, rfl⟩ := hi ha hb heq
      have hrest := List.append_cancel_left heq
      simp only [List.cons_append, List.cons.injEq, true_and] at hrest
      obtain ⟨rfl, rfl⟩ := ih hs' hrest
      exact ⟨rfl, rfl⟩

lemma Separated.imp_mem {Item' : α → List Token → Prop} {as : List α}
    (hi : ∀ a ∈ as, ∀ us, Item a us → Item' a us) (h : Separated Item as us) :
    Separated Item' as us := by
  induction h with
  | one h => exact .one (hi _ (by simp) _ h)
  | more h hs ih =>
    exact .more (hi _ (by simp) _ h) (ih fun a ha => hi a (List.mem_cons_of_mem _ ha))

/-- A condition on the items of a list. -/
lemma Separated.and_iff {P : α → Prop} {as : List α} :
    Separated (fun a us => Item a us ∧ P a) as us ↔ Separated Item as us ∧ ∀ a ∈ as, P a := by
  constructor
  · intro h
    refine ⟨h.imp_mem fun _ _ _ ha => ha.1, ?_⟩
    induction h with
    | one h => exact List.forall_mem_singleton.2 h.2
    | more h _ ih => exact List.forall_mem_cons.2 ⟨h.2, ih⟩
  · rintro ⟨h, hP⟩
    exact h.imp_mem fun a ha _ hi => ⟨hi, hP a ha⟩

lemma Derives.head (h : Derives e ts) : ∃ n us, ts = .ident n :: us := by
  cases h <;> exact ⟨_, _, rfl⟩

/-- Trees of bounded depth, with the tokens that they derive. -/
def DerivesWithin (d : Nat) (e : Expr) (us : List Token) : Prop := Derives e us ∧ e.depth ≤ d

lemma separated_derivesWithin_iff {es : List Expr} {d : Nat} :
    Separated (DerivesWithin d) es us ↔ Separated Derives es us ∧ Expr.depthList es ≤ d := by
  rw [depthList_le_iff]
  exact Separated.and_iff

lemma prefixFree_derivesWithin (d : Nat) : PrefixFree (DerivesWithin d) := by
  induction d with
  | zero => exact fun e _ _ _ _ _ h => absurd h.2 (Nat.not_le.2 (depth_pos e))
  | succ d ih =>
    rintro e e' us vs rest rest' ⟨h, hd⟩ ⟨h', hd'⟩ heq
    obtain ⟨n, us, rfl⟩ := h.head
    obtain ⟨n', vs, rfl⟩ := h'.head
    obtain ⟨hn, heq⟩ := List.cons.inj heq
    cases hn
    cases n using keyword_cases with
    | accept =>
      rw [derives_accept_iff] at h h'
      obtain ⟨rfl, rfl⟩ := h
      obtain ⟨rfl, rfl⟩ := h'
      cases heq
      exact ⟨rfl, rfl⟩
    | deny =>
      rw [derives_deny_iff] at h h'
      obtain ⟨rfl, rfl⟩ := h
      obtain ⟨rfl, rfl⟩ := h'
      cases heq
      exact ⟨rfl, rfl⟩
    | not =>
      rw [derives_not_iff] at h h'
      obtain ⟨e, ts, rfl, rfl, h⟩ := h
      obtain ⟨e', ts', rfl, rfl, h'⟩ := h'
      rw [Expr.depth, Nat.succ_le_succ_iff] at hd hd'
      simp only [List.cons_append, List.append_assoc, List.cons.injEq, true_and] at heq
      obtain ⟨rfl, rfl⟩ := ih ⟨h, hd⟩ ⟨h', hd'⟩ heq
      exact ⟨rfl, rfl⟩
    | all =>
      rw [derives_all_iff] at h h'
      obtain ⟨es, ts, rfl, rfl, h⟩ := h
      obtain ⟨es', ts', rfl, rfl, h'⟩ := h'
      rw [Expr.depth, Nat.succ_le_succ_iff] at hd hd'
      simp only [List.cons_append, List.append_assoc, List.cons.injEq, true_and] at heq
      obtain ⟨rfl, rfl⟩ := Separated.unique ih (separated_derivesWithin_iff.2 ⟨h, hd⟩)
        (separated_derivesWithin_iff.2 ⟨h', hd'⟩) heq
      exact ⟨rfl, rfl⟩
    | any =>
      rw [derives_any_iff] at h h'
      obtain ⟨es, ts, rfl, rfl, h⟩ := h
      obtain ⟨es', ts', rfl, rfl, h'⟩ := h'
      rw [Expr.depth, Nat.succ_le_succ_iff] at hd hd'
      simp only [List.cons_append, List.append_assoc, List.cons.injEq, true_and] at heq
      obtain ⟨rfl, rfl⟩ := Separated.unique ih (separated_derivesWithin_iff.2 ⟨h, hd⟩)
        (separated_derivesWithin_iff.2 ⟨h', hd'⟩) heq
      exact ⟨rfl, rfl⟩
    | levels =>
      rw [derives_levels_iff] at h h'
      obtain ⟨ns, ts, rfl, rfl, h⟩ := h
      obtain ⟨ns', ts', rfl, rfl, h'⟩ := h'
      simp only [List.cons_append, List.append_assoc, List.cons.injEq, true_and] at heq
      obtain ⟨rfl, rfl⟩ := Separated.unique prefixFree_isName h h' heq
      exact ⟨rfl, rfl⟩
    | levelRange =>
      rw [derives_levelRange_iff] at h h'
      obtain ⟨minIn, min, max, maxIn, rfl, rfl⟩ := h
      obtain ⟨minIn', min', max', maxIn', rfl, rfl⟩ := h'
      simp only [List.cons_append, List.cons.injEq, Token.ident.injEq, true_and] at heq
      obtain ⟨hmin, rfl, rfl, hmax, -⟩ := heq
      rw [openingBracket_inj hmin, closingBracket_inj hmax]
      exact ⟨rfl, rfl⟩
    | levelChange =>
      rw [derives_levelChange_iff] at h h'
      obtain ⟨n, rfl, rfl⟩ := h
      obtain ⟨n', rfl, rfl⟩ := h'
      cases heq
      exact ⟨rfl, rfl⟩
    | «match» =>
      rw [derives_match_iff] at h h'
      obtain ⟨p, rfl, rfl⟩ := h
      obtain ⟨p', rfl, rfl⟩ := h'
      cases heq
      exact ⟨rfl, rfl⟩
    | substitute =>
      rw [derives_substitute_iff] at h h'
      obtain ⟨p, r, rfl, rfl⟩ := h
      obtain ⟨p', r', rfl, rfl⟩ := h'
      cases heq
      exact ⟨rfl, rfl⟩
    | substituteAll =>
      rw [derives_substituteAll_iff] at h h'
      obtain ⟨p, r, rfl, rfl⟩ := h
      obtain ⟨p', r', rfl, rfl⟩ := h'
      cases heq
      exact ⟨rfl, rfl⟩
    | ident n hn =>
      rw [derives_ident_iff hn] at h h'
      obtain ⟨rfl, rfl⟩ := h
      obtain ⟨rfl, rfl⟩ := h'
      exact ⟨rfl, rfl⟩

lemma prefixFree_derives : PrefixFree Derives := by
  intro e e' _ _ _ _ h h'
  have hi := prefixFree_derivesWithin (max e.depth e'.depth)
  exact hi ⟨h, Nat.le_max_left _ _⟩ ⟨h', Nat.le_max_right _ _⟩

theorem Derives.unique {e' : Expr} (h : Derives e ts) (h' : Derives e' ts) : e = e' := by
  have heq : ts ++ [] = ts ++ [] := rfl
  exact (prefixFree_derives h h' heq).1

/-! ### What trees stand for -/

lemma mapM_cons_eq_some_iff {f : α → Option β} {a : α} {as : List α} {bs : List β} :
    (a :: as).mapM f = some bs ↔
      ∃ b bs', f a = some b ∧ as.mapM f = some bs' ∧ bs = b :: bs' := by
  rw [List.mapM_cons]
  cases f a with
  | none => simp
  | some b => cases as.mapM f <;> simp [eq_comm]

/-- Items that stand for something, in a list that stands for all of it. -/
lemma separated_mapM_iff {f : α → Option β} {bs : List β} :
    Separated (fun b ts => ∃ a, Item a ts ∧ f a = some b) bs us ↔
      ∃ as, Separated Item as us ∧ as.mapM f = some bs := by
  constructor
  · intro h
    induction h with
    | one h =>
      obtain ⟨a, ha, hf⟩ := h
      exact ⟨[a], .one ha, mapM_cons_eq_some_iff.2 ⟨_, [], hf, rfl, rfl⟩⟩
    | more h _ ih =>
      obtain ⟨a, ha, hf⟩ := h
      obtain ⟨as, has, hm⟩ := ih
      exact ⟨a :: as, .more ha has, mapM_cons_eq_some_iff.2 ⟨_, _, hf, hm, rfl⟩⟩
  · rintro ⟨as, h, hm⟩
    induction h generalizing bs with
    | one ha =>
      obtain ⟨b, bs, hb, hbs, rfl⟩ := mapM_cons_eq_some_iff.1 hm
      cases hbs
      exact .one ⟨_, ha, hb⟩
    | more ha _ ih =>
      obtain ⟨b, bs, hb, hbs, rfl⟩ := mapM_cons_eq_some_iff.1 hm
      exact .more ⟨_, ha, hb⟩ (ih hbs)

namespace Expr

lemma isSome_mapM_iff {f : α → Option β} {as : List α} :
    (as.mapM f).isSome ↔ ∀ a ∈ as, (f a).isSome := by
  induction as with
  | nil => simp
  | cons a as ih =>
    rw [List.mapM_cons, List.forall_mem_cons, ← ih]
    cases f a with
    | none => simp
    | some b => cases as.mapM f <;> simp

variable {π : Type} [Pattern.Engine] {names : Resolver π}

lemma known_iff {ls fs ps : List String} :
    Known names ls fs ps ↔ (∀ n ∈ ls, (names.level? n).isSome) ∧
      (∀ n ∈ fs, (names.filter? n).isSome) ∧ ∀ p ∈ ps, (Pattern.Engine.compile? p).isSome :=
  ⟨fun h => ⟨h.levels, h.filters, h.patterns⟩, fun h => ⟨h.1, h.2.1, h.2.2⟩⟩

lemma known_append_iff {ls ls' fs fs' ps ps' : List String} :
    Known names (ls ++ ls') (fs ++ fs') (ps ++ ps') ↔
      Known names ls fs ps ∧ Known names ls' fs' ps' := by
  simp only [known_iff, List.forall_mem_append]
  constructor
  · rintro ⟨⟨hl, hl'⟩, ⟨hf, hf'⟩, hp, hp'⟩
    exact ⟨⟨hl, hf, hp⟩, hl', hf', hp'⟩
  · rintro ⟨⟨hl, hf, hp⟩, hl', hf', hp'⟩
    exact ⟨⟨hl, hl'⟩, ⟨hf, hf'⟩, hp, hp'⟩

lemma denoteList?_eq_mapM (es : List Expr) : denoteList? names es = es.mapM (denote? names) := by
  induction es with
  | nil => rfl
  | cons e es ih => simp [denoteList?, ih]

mutual

/-- A tree stands for a filter if all that occurs in it stands for something. -/
theorem isSome_denote?_iff (e : Expr) : (e.denote? names).isSome ↔ e.Resolved names := by
  cases e with
  | not e =>
    rw [denote?, Option.isSome_map]
    exact isSome_denote?_iff e
  | all es =>
    rw [denote?, Option.isSome_map]
    exact isSome_denoteList?_iff es
  | any es =>
    rw [denote?, Option.isSome_map]
    exact isSome_denoteList?_iff es
  | levels ns =>
    rw [denote?, Option.isSome_map, isSome_mapM_iff]
    exact ⟨fun h => ⟨h, by simp [filterNames], by simp [patterns]⟩, fun h => h.levels⟩
  | levelRange minIn min max maxIn =>
    simp only [Resolved, known_iff, denote?, levelNames, filterNames, patterns]
    cases hmin : names.level? min with
    | none => simp [hmin]
    | some l => cases hmax : names.level? max <;> simp [hmin, hmax]
  | accept | deny | levelChange | «match» | substitute | ident =>
    simp [Resolved, known_iff, denote?, levelNames, filterNames, patterns]

theorem isSome_denoteList?_iff (es : List Expr) :
    (denoteList? names es).isSome ↔
      Known names (levelNamesList es) (filterNamesList es) (patternsList es) := by
  cases es with
  | nil => simp [known_iff, denoteList?, levelNamesList, filterNamesList, patternsList]
  | cons e es =>
    rw [levelNamesList, filterNamesList, patternsList, known_append_iff,
      ← isSome_denoteList?_iff es]
    have he := isSome_denote?_iff e
    rw [Resolved] at he
    rw [← he, denoteList?]
    cases e.denote? names with
    | none => simp
    | some f => cases denoteList? names es <;> simp

end

end Expr

end Logging.Expression
