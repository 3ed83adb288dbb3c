import Mathlib.Data.Finmap
import Mathlib.Tactic.Common
import Logging.Attachment

/-!
# Attachments as a map

The two places for attachments are a finite map from keys to values that holds two keys at most:
whatever is done with them is done with the map, and is answered as the map answers it
(`Attachments.agrees_use`). Which place a key is in does not show.
-/

namespace Logging

/-- Something that is done with the attachments of a node, with keys of some kind. -/
inductive AttachmentUse (κ : Type)
  | attach (key : κ) (value : AttachmentValue)
  | attachIfAbsent (key : κ) (value : AttachmentValue)
  | detach (key : κ)
  | get (key : κ)
  | clear

/-- Values by the numbers of their keys. -/
abbrev AttachmentMap := Finmap fun _ : Nat => AttachmentValue

/-! ### The map -/

namespace AttachmentMap

/-- Put a value in, unless the key is a third one. -/
def store (m : AttachmentMap) (owner : String) (k : AttachmentKey) (v : AttachmentValue) :
    Except Fault (Option AttachmentValue) × AttachmentMap :=
  if k.number ∉ m ∧ m.keys.card = 2 then (.error (.attachmentCapacity owner k.name), m)
  else (.ok (m.lookup k.number), m.insert k.number v)

/-- What is answered by a map, and the map that it becomes. -/
def use (m : AttachmentMap) (owner : String) :
    AttachmentUse AttachmentKey → Except Fault (Option AttachmentValue) × AttachmentMap
  | .attach k v => m.store owner k v
  | .attachIfAbsent k v =>
    if k.number ∈ m then (.ok (m.lookup k.number), m) else m.store owner k v
  | .detach k => (.ok (m.lookup k.number), m.erase k.number)
  | .get k => (.ok (m.lookup k.number), m)
  | .clear => (.ok none, ∅)

end AttachmentMap

namespace Attachments

variable {a : Attachments} {place? : Option (Nat × AttachmentValue)} {k : AttachmentKey}
  {v : AttachmentValue} {owner : String}

/-! ### The places -/

/-- What came of an attempt to change attachments, which are as before if it failed. -/
def settled (a : Attachments) :
    Except Fault (Option AttachmentValue × Attachments) →
      Except Fault (Option AttachmentValue) × Attachments
  | .ok (v?, a') => (.ok v?, a')
  | .error f => (.error f, a)

/-- What is answered by attachments, and what they become. -/
def use (a : Attachments) (owner : String) :
    AttachmentUse AttachmentKey → Except Fault (Option AttachmentValue) × Attachments
  | .attach k v => a.settled (a.attach owner k v)
  | .attachIfAbsent k v => a.settled (a.attachIfAbsent owner k v)
  | .detach k => a.settled (.ok (a.detach k))
  | .get k => (.ok (a.get? k), a)
  | .clear => (.ok none, {})

/-- No key is in both places. -/
def Distinct (a : Attachments) : Prop :=
  ∀ e e', a.first? = some e → a.second? = some e' → e.1 ≠ e'.1

/-- A map with what is in a place. -/
def put (place? : Option (Nat × AttachmentValue)) (m : AttachmentMap) : AttachmentMap :=
  place?.elim m fun e => m.insert e.1 e.2

/-- What is in the places, by key. -/
def toMap (a : Attachments) : AttachmentMap := put a.first? (put a.second? ∅)

lemma distinct_empty : Distinct {} := fun e e' h => by cases h

lemma holds_iff : holds place? k ↔ place?.map Prod.fst = some k.number := by
  cases place? <;> simp [holds]

lemma lookup_put (place? : Option (Nat × AttachmentValue)) (m : AttachmentMap) (i : Nat) :
    (put place? m).lookup i =
      if place?.map Prod.fst = some i then place?.map Prod.snd else m.lookup i := by
  rcases place? with _ | ⟨j, v⟩
  · rfl
  · by_cases h : j = i
    · subst h
      simp [put, Finmap.lookup_insert]
    · simp [put, h, Finmap.lookup_insert_of_ne m (Ne.symm h)]

lemma lookup_toMap (a : Attachments) (k : AttachmentKey) : a.toMap.lookup k.number = a.get? k := by
  simp only [toMap, lookup_put, get?, holds_iff, Finmap.lookup_empty]

/-- The first place holds a key if nothing or an older value of the key was there. -/
lemma toMap_first {i : Nat} (h : ∀ e, a.first? = some e → e.1 = i) (v : AttachmentValue) :
    toMap { a with first? := some (i, v) } = a.toMap.insert i v := by
  refine Finmap.ext_lookup fun j => ?_
  simp only [toMap, lookup_put, Option.map_some, Option.some.injEq]
  by_cases hij : i = j
  · subst hij
    simp [Finmap.lookup_insert]
  · have hj : a.first?.map Prod.fst ≠ some j := by
      intro hj
      obtain ⟨e, he, rfl⟩ := Option.map_eq_some_iff.1 hj
      exact hij (h e he).symm
    rw [if_neg hij, Finmap.lookup_insert_of_ne _ (Ne.symm hij), lookup_put, if_neg hj, lookup_put]

/-- The second place may hold a key that is not in the first. -/
lemma toMap_second {i : Nat} (h₁ : a.first?.map Prod.fst ≠ some i)
    (h₂ : ∀ e, a.second? = some e → e.1 = i) (v : AttachmentValue) :
    toMap { a with second? := some (i, v) } = a.toMap.insert i v := by
  refine Finmap.ext_lookup fun j => ?_
  simp only [toMap, lookup_put, Option.map_some, Option.some.injEq]
  by_cases hij : i = j
  · subst hij
    simp [Finmap.lookup_insert, h₁]
  · have hj : a.second?.map Prod.fst ≠ some j := by
      intro hj
      obtain ⟨e, he, rfl⟩ := Option.map_eq_some_iff.1 hj
      exact hij (h₂ e he).symm
    rw [if_neg hij, Finmap.lookup_insert_of_ne _ (Ne.symm hij), lookup_put, lookup_put, if_neg hj]

lemma toMap_first_none {i : Nat} (h : a.Distinct) (hi : a.first?.map Prod.fst = some i) :
    toMap { a with first? := none } = a.toMap.erase i := by
  obtain ⟨e, he, rfl⟩ := Option.map_eq_some_iff.1 hi
  refine Finmap.ext_lookup fun j => ?_
  by_cases hij : e.1 = j
  · subst hij
    have hsecond : a.second?.map Prod.fst ≠ some e.1 := by
      intro hj
      obtain ⟨e', he', heq⟩ := Option.map_eq_some_iff.1 hj
      exact h e e' he he' heq.symm
    simp [toMap, lookup_put, Finmap.lookup_erase, hsecond]
  · simp [toMap, lookup_put, Finmap.lookup_erase_ne (Ne.symm hij), he, hij]

lemma toMap_second_none {i : Nat} (h₁ : a.first?.map Prod.fst ≠ some i)
    (h₂ : a.second?.map Prod.fst = some i) :
    toMap { a with second? := none } = a.toMap.erase i := by
  refine Finmap.ext_lookup fun j => ?_
  by_cases hij : i = j
  · subst hij
    simp [toMap, lookup_put, Finmap.lookup_erase, h₁]
  · have hj : a.second?.map Prod.fst ≠ some j := by simpa [h₂] using hij
    simp [toMap, lookup_put, Finmap.lookup_erase_ne (Ne.symm hij), hj]

lemma keys_insert (m : AttachmentMap) (i : Nat) (v : AttachmentValue) :
    (m.insert i v).keys = insert i m.keys := by
  ext j
  simp [Finmap.mem_keys, Finmap.mem_insert]

lemma erase_of_notMem {m : AttachmentMap} {i : Nat} (h : i ∉ m) : m.erase i = m := by
  refine Finmap.ext_lookup fun j => ?_
  by_cases hj : j = i
  · rw [hj, Finmap.lookup_erase, Finmap.lookup_eq_none.2 h]
  · rw [Finmap.lookup_erase_ne hj]

/-- Two keys are held just if both places are taken. -/
lemma card_toMap (h : a.Distinct) :
    a.toMap.keys.card = a.first?.toList.length + a.second?.toList.length := by
  rcases a with ⟨_ | ⟨i, v⟩, _ | ⟨j, w⟩⟩
  · rfl
  · rfl
  · rfl
  · have hij : i ≠ j := h (i, v) (j, w) rfl rfl
    simp [toMap, put, keys_insert, hij]

lemma mem_toMap_iff {i : Nat} :
    i ∈ a.toMap ↔ a.first?.map Prod.fst = some i ∨ a.second?.map Prod.fst = some i := by
  have hsome : ∀ place? : Option (Nat × AttachmentValue), place?.map Prod.fst = some i →
      (place?.map Prod.snd).isSome := by
    intro place? h
    cases place? with
    | none => cases h
    | some e => rfl
  rw [← Finmap.lookup_isSome, toMap, lookup_put, lookup_put, Finmap.lookup_empty]
  split_ifs with h₁ h₂
  · simp [h₁, hsome _ h₁]
  · simp [h₂, hsome _ h₂]
  · simp [h₁, h₂]

/-! ### What is done with them -/

/-- Whether the answer is that of the map, and the map is what is in the places, each key in one. -/
structure Agrees (r : Except Fault (Option AttachmentValue) × Attachments)
    (r' : Except Fault (Option AttachmentValue) × AttachmentMap) : Prop where
  answer : r.1 = r'.1
  toMap : r.2.toMap = r'.2
  distinct : r.2.Distinct

lemma agrees_self (h : a.Distinct) {r : Except Fault (Option AttachmentValue)} :
    Agrees (r, a) (r, a.toMap) := ⟨rfl, rfl, h⟩

/-- A new key is stored in the first free place, or refused. -/
lemma agrees_insertNew (h : a.Distinct) (hk : k.number ∉ a.toMap) (owner : String)
    (v : AttachmentValue) :
    Agrees (a.settled ((a.insertNew owner k v).map fun a' => (none, a')))
      (a.toMap.store owner k v) := by
  have hnone := Finmap.lookup_eq_none.2 hk
  have hcard := card_toMap h
  obtain ⟨h₁, h₂⟩ := not_or.1 (mt mem_toMap_iff.2 hk)
  rcases a with ⟨_ | e₁, e₂?⟩
  · have hroom : (toMap ⟨none, e₂?⟩).keys.card ≠ 2 := by
      rw [hcard]
      cases e₂? <;> simp
    rw [AttachmentMap.store, if_neg fun hfull => hroom hfull.2, hnone]
    refine ⟨rfl, toMap_first (fun e he => by cases he) v, ?_⟩
    rintro e₁ e₂ he₁ rfl heq
    cases he₁
    exact h₂ (congrArg some heq.symm)
  · cases e₂? with
    | none =>
      have hroom : (toMap ⟨some e₁, none⟩).keys.card ≠ 2 := by simp [hcard]
      rw [AttachmentMap.store, if_neg fun hfull => hroom hfull.2, hnone]
      refine ⟨rfl, toMap_second h₁ (fun e he => by cases he) v, ?_⟩
      rintro e e₂ he he₂ heq
      cases he
      cases he₂
      exact h₁ (congrArg some heq)
    | some e₂ =>
      rw [AttachmentMap.store, if_pos ⟨hk, hcard⟩]
      exact agrees_self h

/-- A key that is there is never refused. -/
lemma store_of_mem {m : AttachmentMap} (hk : k.number ∈ m) (owner : String) (v : AttachmentValue) :
    m.store owner k v = (.ok (m.lookup k.number), m.insert k.number v) :=
  if_neg fun h => h.1 hk

lemma agrees_attach (h : a.Distinct) (owner : String) (k : AttachmentKey) (v : AttachmentValue) :
    Agrees (a.use owner (.attach k v)) (a.toMap.use owner (.attach k v)) := by
  rw [use, AttachmentMap.use, attach]
  by_cases h₁ : holds a.first? k
  · have hfirst := holds_iff.1 h₁
    rw [if_pos h₁, store_of_mem (mem_toMap_iff.2 (Or.inl hfirst)), lookup_toMap]
    refine ⟨rfl, toMap_first (fun e he => by simpa [he] using hfirst) v, ?_⟩
    rintro e e' he he' heq
    cases he
    obtain ⟨e, he, hek⟩ := Option.map_eq_some_iff.1 hfirst
    exact h e e' he he' (hek.trans heq)
  · rw [if_neg h₁]
    rw [holds_iff] at h₁
    by_cases h₂ : holds a.second? k
    · have hsecond := holds_iff.1 h₂
      rw [if_pos h₂, store_of_mem (mem_toMap_iff.2 (Or.inr hsecond)), lookup_toMap]
      refine ⟨rfl, toMap_second h₁ (fun e he => by simpa [he] using hsecond) v, ?_⟩
      rintro e e' he he' heq
      cases he'
      exact h₁ (by rw [show a.first? = some e from he, Option.map_some, heq])
    · rw [if_neg h₂]
      rw [holds_iff] at h₂
      exact agrees_insertNew h (mt mem_toMap_iff.1 (not_or.2 ⟨h₁, h₂⟩)) owner v

lemma agrees_attachIfAbsent (h : a.Distinct) (owner : String) (k : AttachmentKey)
    (v : AttachmentValue) :
    Agrees (a.use owner (.attachIfAbsent k v)) (a.toMap.use owner (.attachIfAbsent k v)) := by
  rw [use, AttachmentMap.use, attachIfAbsent]
  have hlookup := lookup_toMap a k
  cases hget : a.get? k with
  | some old =>
    rw [hget] at hlookup
    rw [if_pos (Finmap.mem_of_lookup_eq_some hlookup), hlookup]
    exact agrees_self h
  | none =>
    rw [hget, Finmap.lookup_eq_none] at hlookup
    rw [if_neg hlookup]
    exact agrees_insertNew h hlookup owner v

lemma agrees_detach (h : a.Distinct) (owner : String) (k : AttachmentKey) :
    Agrees (a.use owner (.detach k)) (a.toMap.use owner (.detach k)) := by
  rw [use, AttachmentMap.use, detach, lookup_toMap]
  by_cases h₁ : holds a.first? k
  · rw [if_pos h₁]
    exact ⟨rfl, toMap_first_none h (holds_iff.1 h₁), fun e e' he => by cases he⟩
  · by_cases h₂ : holds a.second? k
    · rw [if_neg h₁, if_pos h₂]
      refine ⟨rfl, toMap_second_none (mt holds_iff.2 h₁) (holds_iff.1 h₂), ?_⟩
      exact fun e e' _ he' => by cases he'
    · have hk : k.number ∉ a.toMap := mt mem_toMap_iff.1 (by
        rw [← holds_iff, ← holds_iff]
        exact not_or.2 ⟨h₁, h₂⟩)
      rw [if_neg h₁, if_neg h₂, ← lookup_toMap, Finmap.lookup_eq_none.2 hk, erase_of_notMem hk]
      exact agrees_self h

/-- Whatever is done with attachments is done with the map of what they hold. -/
theorem agrees_use (h : a.Distinct) (owner : String) (u : AttachmentUse AttachmentKey) :
    Agrees (a.use owner u) (a.toMap.use owner u) := by
  cases u with
  | attach k v => exact agrees_attach h owner k v
  | attachIfAbsent k v => exact agrees_attachIfAbsent h owner k v
  | detach k => exact agrees_detach h owner k
  | get k =>
    rw [use, AttachmentMap.use, lookup_toMap]
    exact agrees_self h
  | clear => exact ⟨rfl, rfl, distinct_empty⟩

/-- What attachments become has no key twice either. -/
lemma Distinct.of_use {r : Except Fault (Option AttachmentValue × Attachments)}
    {o : Option AttachmentValue × Attachments} (h : a.Distinct) (owner : String)
    (u : AttachmentUse AttachmentKey) (hu : a.use owner u = a.settled r) (hr : r = .ok o) :
    o.2.Distinct := by
  have hagrees := agrees_use h owner u
  rw [hu, hr] at hagrees
  exact hagrees.distinct

lemma card_toMap_le (h : a.Distinct) : a.toMap.keys.card ≤ 2 := by
  rw [card_toMap h]
  rcases a with ⟨_ | e₁, _ | e₂⟩ <;> simp

end Attachments

end Logging
