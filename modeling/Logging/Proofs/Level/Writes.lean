import Mathlib.Data.List.Induction
import Mathlib.Data.List.Sort
import Logging.Level.Usage
import Logging.Proofs.Level.Registry

/-!
# A registry as a map of last writes

A registry forgets entries that have lapsed when it comes across them, but to a user it is the map
that remembers, for each name, what was written for it last: a name resolves when the last write
is of an entry that still stands (`resolves_useAll`). So it does not matter when entries are swept
out, or whether they ever are.
-/

namespace Logging

/-! ### Owners -/

namespace LevelOwners

variable {o o' : LevelOwners} {i : Nat} {id id' : String} {l : Level} {a : Nat × Level}

lemma alive_iff : o.alive i ↔ ∃ id l, o.get? id = some (i, l) := by
  simp only [alive, List.any_eq_true, Dict.mem_values_iff, beq_iff_eq, get?]
  constructor
  · rintro ⟨⟨j, l⟩, ⟨id, h⟩, rfl⟩
    exact ⟨id, l, h⟩
  · rintro ⟨id, l, h⟩
    exact ⟨(i, l), ⟨id, h⟩, rfl⟩

/-- Levels have numbers that were given out, and each number is that of one level. -/
structure Sound (o : LevelOwners) : Prop where
  lt : ∀ id i l, o.get? id = some (i, l) → i < o.next
  level_eq : ∀ id id' i l l', o.get? id = some (i, l) → o.get? id' = some (i, l') → l = l'

/-- Whether owners may have become others: what is owned now was owned before or is new. -/
structure Later (o o' : LevelOwners) : Prop where
  next_le : o.next ≤ o'.next
  old_or_new : ∀ id i l, o'.get? id = some (i, l) → (∃ id', o.get? id' = some (i, l)) ∨ o.next ≤ i

lemma sound_empty : Sound {} where
  lt id i l h := by cases h
  level_eq id id' i l l' h := by cases h

/-- What is not alive is never alive again. -/
lemma Later.alive (h : o.Later o') (hi : i < o.next) (ha : o'.alive i) : o.alive i := by
  obtain ⟨id, l, hl⟩ := alive_iff.1 ha
  obtain ⟨id', h'⟩ | hn := h.old_or_new id i l hl
  · exact alive_iff.2 ⟨id', l, h'⟩
  · omega

/-- Names were given to owned levels or taken away from them. -/
lemma later_of_get? (hn : o'.next = o.next)
    (hg : ∀ id a, o'.get? id = some a → ∃ id', o.get? id' = some a) : o.Later o' :=
  ⟨Nat.le_of_eq hn.symm, fun id _ _ h => Or.inl (hg id _ h)⟩

lemma Sound.of_get? (h : o.Sound) (hn : o'.next = o.next)
    (hg : ∀ id a, o'.get? id = some a → ∃ id', o.get? id' = some a) : o'.Sound where
  lt id i l hi := by
    obtain ⟨id', hi'⟩ := hg id _ hi
    rw [hn]
    exact h.lt id' i l hi'
  level_eq id₁ id₂ i l₁ l₂ h₁ h₂ := by
    obtain ⟨id₁', h₁'⟩ := hg id₁ _ h₁
    obtain ⟨id₂', h₂'⟩ := hg id₂ _ h₂
    exact h.level_eq id₁' id₂' i l₁ l₂ h₁' h₂'

lemma share_next (o : LevelOwners) (id as_ : String) : (o.share id as_).next = o.next := by
  unfold share
  split <;> rfl

lemma get?_share {as_ : String} (h : (o.share id as_).get? id' = some a) :
    ∃ id, o.get? id = some a := by
  unfold share at h
  split at h
  · next b hb =>
    rw [get?, Dict.get?_insert] at h
    split_ifs at h
    · cases h
      exact ⟨id, hb⟩
    · exact ⟨id', h⟩
  · exact ⟨id', h⟩

lemma get?_release (h : (o.release id).get? id' = some a) : ∃ id, o.get? id = some a := by
  rw [release, get?, Dict.get?_erase] at h
  split_ifs at h
  exact ⟨id', h⟩

lemma get?_hold (o : LevelOwners) (id id' : String) (l : Level) :
    (o.hold id l).2.get? id' = if id = id' then some (o.next, l) else o.get? id' :=
  Dict.get?_insert _ _ _ _

lemma later_hold (o : LevelOwners) (id : String) (l : Level) : o.Later (o.hold id l).2 where
  next_le := Nat.le_succ _
  old_or_new id' i l' h := by
    rw [get?_hold] at h
    split_ifs at h
    · cases h
      exact Or.inr (Nat.le_refl _)
    · exact Or.inl ⟨id', h⟩

lemma Sound.hold (h : o.Sound) (id : String) (l : Level) : (o.hold id l).2.Sound where
  lt id' i l' hi := by
    rw [get?_hold] at hi
    split_ifs at hi
    · cases hi
      exact Nat.lt_succ_self _
    · exact Nat.lt_succ_of_lt (h.lt _ _ _ hi)
  level_eq id₁ id₂ i l₁ l₂ h₁ h₂ := by
    rw [get?_hold] at h₁ h₂
    split_ifs at h₁ h₂
    · cases h₁
      cases h₂
      rfl
    -- the number of the new level was not in use
    · cases h₁
      exact absurd (h.lt _ _ _ h₂) (Nat.lt_irrefl _)
    · cases h₂
      exact absurd (h.lt _ _ _ h₁) (Nat.lt_irrefl _)
    · exact h.level_eq _ _ _ _ _ h₁ h₂

end LevelOwners

namespace LevelRegistry

/-! ### Lookups -/

variable {r : LevelRegistry} {alive : Nat → Bool} {n : String} {l : Level}

lemma find?_eq_some_iff :
    r.find? alive n = some l ↔ ∃ e, r.entries.get? n = some e ∧ e.isLive alive ∧ e.level = l := by
  unfold find?
  cases r.entries.get? n with
  | none => simp
  | some e => simp

lemma find?_sweep (r : LevelRegistry) (alive : Nat → Bool) (n : String) :
    (r.sweep alive).find? alive n = r.find? alive n := by
  ext l
  simp only [find?_eq_some_iff, sweep, Dict.get?_filter, Option.filter_eq_some_iff]
  tauto

lemma find?_register (r : LevelRegistry) (alive : Nat → Bool) (l : Level) (n : String) :
    (r.register alive l).find? alive n = if l.name = n then some l else r.find? alive n := by
  by_cases hn : l.name = n
  · simp only [find?, register, Dict.get?_insert, hn, if_true, LevelEntry.isLive, LevelEntry.level]
  · rw [if_neg hn, ← find?_sweep r]
    simp only [find?, register, Dict.get?_insert, hn, if_false]

/-- Of the levels that are registered one after the other the last of a name is found. -/
lemma find?_foldl_register (r : LevelRegistry) (alive : Nat → Bool) (ls : List Level) (n : String) :
    (ls.foldl (fun r l => r.register alive l) r).find? alive n =
      (ls.filter (·.name = n)).getLast?.or (r.find? alive n) := by
  induction ls using List.reverseRecOn with
  | nil => rfl
  | append_singleton ls l ih =>
    rw [List.foldl_append, List.foldl_cons, List.foldl_nil, find?_register, ih, List.filter_append]
    by_cases hn : l.name = n
    · simp [hn]
    · simp [hn]

lemma mem_names_iff : n ∈ r.names alive ↔ ∃ l, r.find? alive n = some l := by
  rw [names, (List.mergeSort_perm _ _).mem_iff, Dict.mem_keys_iff]
  simp only [sweep, Dict.get?_filter, Option.filter_eq_some_iff, find?_eq_some_iff]
  constructor
  · rintro ⟨e, he, hl⟩
    exact ⟨e.level, e, he, hl, rfl⟩
  · rintro ⟨_, e, he, hl, -⟩
    exact ⟨e, he, hl⟩

lemma names_sorted (r : LevelRegistry) (alive : Nat → Bool) :
    (r.names alive).Pairwise (· < ·) := by
  have hs : (r.names alive).Pairwise fun a b => decide (a ≤ b) = true := by
    apply List.pairwise_mergeSort
    · intro a b c hab hbc
      simp only [decide_eq_true_eq] at hab hbc ⊢
      exact String.le_trans hab hbc
    · intro a b
      simp only [Bool.or_eq_true, decide_eq_true_eq]
      exact String.le_total a b
  have hd : (r.names alive).Nodup :=
    (List.mergeSort_perm _ _).nodup_iff.2 (r.sweep alive).entries.nodup
  exact hs.imp₂ (fun _ _ hle hne => Std.lt_of_le_of_ne (of_decide_eq_true hle) hne) hd

/-! ### Writes -/

/-- What a name is to stand for from now on; nothing once it was removed. -/
structure Write where
  name : String
  entry? : Option LevelEntry

/-- What was written for a name last. -/
def lastOf (ws : List Write) (n : String) : Option LevelEntry :=
  (ws.filter (·.name = n)).getLast?.bind Write.entry?

lemma lastOf_concat (ws : List Write) (w : Write) (n : String) :
    lastOf (ws ++ [w]) n = if w.name = n then w.entry? else lastOf ws n := by
  by_cases h : w.name = n <;> simp [lastOf, h]

/-- The standard levels as they are written at the start. -/
def initialWrites : List Write := Level.standard.map fun l => ⟨l.name, some (.strong l)⟩

lemma eq_strong_of_initialWrites {e : LevelEntry} (he : lastOf initialWrites n = some e) :
    ∃ l, e = .strong l := by
  obtain ⟨w, hw, hwe⟩ := Option.bind_eq_some_iff.1 he
  obtain ⟨l, -, rfl⟩ := List.mem_map.1 (List.mem_filter.1 (List.mem_of_getLast? hw)).1
  cases hwe
  exact ⟨l, rfl⟩

namespace User

/-- What a use of the registry writes. -/
def write? (u : User) : Use → Option Write
  | .register l => some ⟨l.name, some (.strong l)⟩
  | .registerWeak id => (u.owners.get? id).map fun a => ⟨a.2.name, some (.weak a.1 a.2)⟩
  | .unregister name => some ⟨name, none⟩
  | .hold _ _ | .share _ _ | .drop _ | .get _ | .names => none

/-- What is written along the way. -/
def writes (u : User) : List Use → List Write
  | [] => []
  | step :: steps => (u.write? step).toList ++ (u.use step).2.writes steps

end User

/-- Whether an entry still stands: it is for good, or its level has an owner. -/
def Stands (o : LevelOwners) : LevelEntry → Prop
  | .strong _ => True
  | .weak i l => ∃ id, o.get? id = some (i, l)

/-- Whether a name stands for a level after some writes. -/
def Resolves (ws : List Write) (o : LevelOwners) (n : String) (l : Level) : Prop :=
  ∃ e, lastOf ws n = some e ∧ Stands o e ∧ e.level = l

/-! ### What a registry remembers -/

/-- A user whose registry has come about by some writes. An entry of which the registry knows
nothing any more has lapsed, and will not come back: its number is not given out again. -/
structure User.Tracks (u : User) (ws : List Write) : Prop where
  last : ∀ n e, u.registry.entries.get? n = some e → lastOf ws n = some e
  kept : ∀ n e, lastOf ws n = some e → e.isLive u.owners.alive → u.registry.entries.get? n = some e
  named : ∀ n e, lastOf ws n = some e → e.level.name = n
  sound : u.owners.Sound
  lt : ∀ n i l, lastOf ws n = some (.weak i l) → i < u.owners.next
  level_eq : ∀ n i l, lastOf ws n = some (.weak i l) →
    ∀ id l', u.owners.get? id = some (i, l') → l' = l

namespace User

variable {u v : User} {ws : List Write}

lemma Tracks.isLive_iff (h : u.Tracks ws) {e : LevelEntry} (he : lastOf ws n = some e) :
    e.isLive u.owners.alive ↔ Stands u.owners e := by
  cases e with
  | strong l => simp [LevelEntry.isLive, Stands]
  | weak i l =>
    rw [LevelEntry.isLive, LevelOwners.alive_iff, Stands]
    constructor
    · rintro ⟨id, l', hl'⟩
      cases h.level_eq n i l he id l' hl'
      exact ⟨id, hl'⟩
    · rintro ⟨id, hl⟩
      exact ⟨id, l, hl⟩

/-- Lookups go by the last writes. -/
lemma Tracks.find?_eq_some_iff (h : u.Tracks ws) :
    u.registry.find? u.owners.alive n = some l ↔ Resolves ws u.owners n l := by
  rw [LevelRegistry.find?_eq_some_iff]
  constructor
  · rintro ⟨e, he, hlive, rfl⟩
    have hlast := h.last n e he
    exact ⟨e, hlast, (h.isLive_iff hlast).1 hlive, rfl⟩
  · rintro ⟨e, hlast, hstands, rfl⟩
    have hlive := (h.isLive_iff hlast).2 hstands
    exact ⟨e, h.kept n e hlast hlive, hlive, rfl⟩

lemma tracks_initial : ({} : User).Tracks initialWrites := by
  have hget : ∀ (ls : List Level) (n : String),
      (Dict.ofList (ls.map fun l => (l.name, LevelEntry.strong l))).get? n =
        lastOf (ls.map fun l => ⟨l.name, some (.strong l)⟩) n := by
    intro ls n
    induction ls using List.reverseRecOn with
    | nil => rfl
    | append_singleton ls l ih =>
      rw [List.map_append, List.map_append, List.map_singleton, List.map_singleton, lastOf_concat,
        ← ih, Dict.ofList, List.foldl_concat, Dict.get?_insert, Dict.ofList]
  have hentries : ∀ n, LevelRegistry.standard.entries.get? n = lastOf initialWrites n :=
    hget Level.standard
  exact {
    last n e he := (hentries n).symm.trans he
    kept n e he _ := (hentries n).trans he
    named n e he := named_standard n e ((hentries n).trans he)
    sound := LevelOwners.sound_empty
    lt n i l hl := by
      obtain ⟨_, he⟩ := eq_strong_of_initialWrites hl
      cases he
    level_eq n i l hl := by
      obtain ⟨_, he⟩ := eq_strong_of_initialWrites hl
      cases he }

/-! ### What a use preserves -/

/-- The registry with its lapsed entries swept out. -/
def swept (u : User) : User := { u with registry := u.registry.sweep u.owners.alive }

lemma Tracks.swept (h : u.Tracks ws) : u.swept.Tracks ws where
  last n e he := h.last n e (Dict.get?_of_get?_filter he)
  kept n e he hlive := by
    rw [User.swept, sweep, Dict.get?_filter, Option.filter_eq_some_iff]
    exact ⟨h.kept n e he hlive, hlive⟩
  named := h.named
  sound := h.sound
  lt := h.lt
  level_eq := h.level_eq

/-- Owners come and go, and no entry that lapsed comes back. -/
lemma Tracks.owners (h : u.Tracks ws) {o : LevelOwners} (hl : u.owners.Later o) (hs : o.Sound) :
    ({ u with owners := o } : User).Tracks ws where
  last := h.last
  kept n e he hlive := by
    refine h.kept n e he ?_
    cases e with
    | strong l => rfl
    | weak i l => exact hl.alive (h.lt n i l he) hlive
  named := h.named
  sound := hs
  lt n i l he := Nat.lt_of_lt_of_le (h.lt n i l he) hl.next_le
  level_eq n i l he id l' hi := by
    obtain ⟨id', hi'⟩ | hn := hl.old_or_new id i l' hi
    · exact h.level_eq n i l he id' l' hi'
    · exact absurd (h.lt n i l he) (Nat.not_lt.2 hn)

/-- An entry is put in place of what a name stood for. -/
lemma Tracks.insert (h : u.Tracks ws) {e : LevelEntry} (hs : Stands u.owners e) :
    ({ u with registry := ⟨u.registry.entries.insert e.level.name e⟩ } : User).Tracks
      (ws ++ [⟨e.level.name, some e⟩]) where
  last n e' he' := by
    rw [Dict.get?_insert] at he'
    rw [lastOf_concat]
    split_ifs at he' ⊢
    · exact he'
    · exact h.last n e' he'
  kept n e' he' hlive := by
    rw [lastOf_concat] at he'
    rw [Dict.get?_insert]
    split_ifs at he' ⊢
    · exact he'
    · exact h.kept n e' he' hlive
  named n e' he' := by
    rw [lastOf_concat] at he'
    split_ifs at he' with hn
    · cases he'
      exact hn
    · exact h.named n e' he'
  sound := h.sound
  lt n i l he' := by
    rw [lastOf_concat] at he'
    split_ifs at he'
    · cases he'
      obtain ⟨id, hid⟩ := hs
      exact h.sound.lt id i l hid
    · exact h.lt n i l he'
  level_eq n i l he' id l' hi := by
    rw [lastOf_concat] at he'
    split_ifs at he'
    · cases he'
      obtain ⟨id', hid'⟩ := hs
      exact h.sound.level_eq id id' i l' l hi hid'
    · exact h.level_eq n i l he' id l' hi

/-- A name is removed. -/
lemma Tracks.erase (h : u.Tracks ws) (name : String) :
    ({ u with registry := ⟨u.registry.entries.erase name⟩ } : User).Tracks
      (ws ++ [⟨name, none⟩]) := by
  have hlast : ∀ {n e}, lastOf (ws ++ [⟨name, none⟩]) n = some e →
      name ≠ n ∧ lastOf ws n = some e := by
    intro n e he
    rw [lastOf_concat] at he
    split_ifs at he with hn
    exact ⟨hn, he⟩
  exact {
    last n e he := by
      rw [Dict.get?_erase] at he
      rw [lastOf_concat]
      split_ifs at he ⊢
      exact h.last n e he
    kept n e he hlive := by
      obtain ⟨hn, he⟩ := hlast he
      rw [Dict.get?_erase, if_neg hn]
      exact h.kept n e he hlive
    named n e he := h.named n e (hlast he).2
    sound := h.sound
    lt n i l he := h.lt n i l (hlast he).2
    level_eq n i l he := h.level_eq n i l (hlast he).2 }

lemma Tracks.use (h : u.Tracks ws) (step : Use) :
    (u.use step).2.Tracks (ws ++ (u.write? step).toList) := by
  cases step with
  | register l => exact h.swept.insert (e := .strong l) trivial
  | hold id l =>
    rw [write?, Option.toList_none, List.append_nil]
    exact h.owners (LevelOwners.later_hold _ id l) (h.sound.hold id l)
  | share id as_ =>
    rw [write?, Option.toList_none, List.append_nil]
    have hg : ∀ id' a, (u.owners.share id as_).get? id' = some a →
        ∃ id, u.owners.get? id = some a := fun _ _ => LevelOwners.get?_share
    have hn := LevelOwners.share_next u.owners id as_
    exact h.owners (LevelOwners.later_of_get? hn hg) (h.sound.of_get? hn hg)
  | registerWeak id =>
    cases hid : u.owners.get? id with
    | none => simpa [User.use, write?, hid] using h
    | some a =>
      rw [User.use, write?, hid]
      exact h.swept.insert (e := .weak a.1 a.2) ⟨id, hid⟩
  | drop id =>
    rw [write?, Option.toList_none, List.append_nil]
    have hg : ∀ id' a, (u.owners.release id).get? id' = some a →
        ∃ id, u.owners.get? id = some a := fun _ _ => LevelOwners.get?_release
    exact h.owners (LevelOwners.later_of_get? rfl hg) (h.sound.of_get? rfl hg)
  | unregister name => exact h.erase name
  | get name =>
    rw [write?, Option.toList_none, List.append_nil, User.use]
    split <;> exact h
  | names =>
    rw [write?, Option.toList_none, List.append_nil]
    exact h

lemma Tracks.useAll (h : u.Tracks ws) (steps : List Use) :
    (u.useAll steps).2.Tracks (ws ++ u.writes steps) := by
  induction steps generalizing u ws with
  | nil => simpa [writes, User.useAll] using h
  | cons step steps ih =>
    have h' := ih (h.use step)
    rw [List.append_assoc] at h'
    exact h'

/-! ### What a user is told -/

/-- Whether a user is told of levels what the last writes and the owners of levels say. -/
structure Told (u : User) (ws : List Write) : Prop where
  get_level : ∀ n l, (u.use (.get n)).1 = .level l ↔ Resolves ws u.owners n l
  name_eq : ∀ n l, (u.use (.get n)).1 = .level l → l.name = n
  get_fault : ∀ n, (¬ ∃ l, Resolves ws u.owners n l) →
    (u.use (.get n)).1 = .fault (.unknownLevel n)
  names : ∃ ns, (u.use .names).1 = .names ns ∧ ns.Pairwise (· < ·) ∧
    ∀ n, n ∈ ns ↔ ∃ l, (u.use (.get n)).1 = .level l

lemma use_get_eq_level_iff : (u.use (.get n)).1 = .level l ↔
    u.registry.find? u.owners.alive n = some l := by
  rw [User.use, LevelRegistry.get]
  cases u.registry.find? u.owners.alive n <;> simp

lemma use_get_of_find?_eq_none (h : u.registry.find? u.owners.alive n = none) :
    (u.use (.get n)).1 = .fault (.unknownLevel n) := by
  simp [User.use, LevelRegistry.get, h]

lemma Tracks.told (h : u.Tracks ws) : u.Told ws where
  get_level n l := use_get_eq_level_iff.trans h.find?_eq_some_iff
  name_eq n l hl := by
    obtain ⟨e, he, -, rfl⟩ := h.find?_eq_some_iff.1 (use_get_eq_level_iff.1 hl)
    exact h.named n e he
  get_fault n hn := by
    refine use_get_of_find?_eq_none (Option.eq_none_iff_forall_ne_some.2 fun l hl => hn ⟨l, ?_⟩)
    exact h.find?_eq_some_iff.1 hl
  names := by
    refine ⟨_, rfl, names_sorted _ _, fun n => ?_⟩
    simp only [mem_names_iff, use_get_eq_level_iff]

/-- Users who own the same and of whose registries the same was written are told the same. -/
lemma Tracks.use_get_eq (h : u.Tracks ws) (h' : v.Tracks ws) (ho : u.owners = v.owners)
    (n : String) : (u.use (.get n)).1 = (v.use (.get n)).1 := by
  have hfind : u.registry.find? u.owners.alive n = v.registry.find? v.owners.alive n := by
    ext l
    rw [h.find?_eq_some_iff, h'.find?_eq_some_iff, ho]
  rw [User.use, User.use, LevelRegistry.get, LevelRegistry.get, hfind]
  cases v.registry.find? v.owners.alive n <;> rfl

lemma Tracks.use_names_eq (h : u.Tracks ws) (h' : v.Tracks ws) (ho : u.owners = v.owners) :
    (u.use .names).1 = (v.use .names).1 := by
  have hnames : u.registry.names u.owners.alive = v.registry.names v.owners.alive := by
    refine (names_sorted _ _).eq_of_mem_iff (names_sorted _ _) fun n => ?_
    rw [mem_names_iff, mem_names_iff]
    refine exists_congr fun l => ?_
    rw [h.find?_eq_some_iff, h'.find?_eq_some_iff, ho]
  exact congrArg Response.names hnames

lemma use_owners_congr (ho : u.owners = v.owners) (step : Use) :
    (u.use step).2.owners = (v.use step).2.owners := by
  cases step with
  | get name =>
    have hsame : ∀ w : User, (w.use (.get name)).2 = w := by
      intro w
      rw [User.use]
      split <;> rfl
    rw [hsame, hsame, ho]
  | registerWeak id =>
    simp only [User.use, ho]
    cases v.owners.get? id <;> simp [ho]
  | _ => simp [User.use, ho]

lemma useAll_owners_congr (ho : u.owners = v.owners) (steps : List Use) :
    (u.useAll steps).2.owners = (v.useAll steps).2.owners ∧ u.writes steps = v.writes steps := by
  induction steps generalizing u v with
  | nil => exact ⟨ho, rfl⟩
  | cons step steps ih =>
    obtain ⟨ho', hw'⟩ := ih (use_owners_congr ho step)
    have hw : u.write? step = v.write? step := by cases step <;> simp [write?, ho]
    exact ⟨ho', by rw [writes, writes, hw, hw']⟩

/-- A registry of standard levels that is put to any use is, for `get` and `names`, the map of
last writes from which entries drop out when their levels lose their last owner. Lapsed entries
may be swept out at any time without anybody being told anything else later on. -/
theorem resolves_useAll (uses : List Use) :
    let u := (({} : User).useAll uses).2
    u.Told (initialWrites ++ ({} : User).writes uses) ∧
      ∀ more n, ((u.swept.useAll more).2.use (.get n)).1 = ((u.useAll more).2.use (.get n)).1 ∧
        ((u.swept.useAll more).2.use .names).1 = ((u.useAll more).2.use .names).1 := by
  intro u
  have h : u.Tracks (initialWrites ++ ({} : User).writes uses) := tracks_initial.useAll uses
  refine ⟨h.told, fun more n => ?_⟩
  have hu := h.useAll more
  have hs := h.swept.useAll more
  obtain ⟨ho, hw⟩ := useAll_owners_congr (u := u.swept) (v := u) rfl more
  rw [hw] at hs
  exact ⟨hs.use_get_eq hu ho n, hs.use_names_eq hu ho⟩

end User

end LevelRegistry

end Logging
