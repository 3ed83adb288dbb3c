import Logging.Proofs.Level.Writes

/-!
# Names that are apart

What a user is told of one name by `get` and `names` does not depend on what is registered or
removed under other names. What `unregister` answers does: an entry that has lapsed counts as an
entry until the next registration, of whatever name, sweeps it out (`apart_after`).
-/

namespace Logging.LevelRegistry.User

variable {u v : User} {ws : List Write} {n : String} {step : Use} {w : Write}

/-- Whether a name is among those that a user is told. -/
def Lists (u : User) (n : String) : Prop := ∃ ns, (u.use .names).1 = .names ns ∧ n ∈ ns

lemma lists_iff : u.Lists n ↔ ∃ l, u.registry.find? u.owners.alive n = some l := by
  rw [← mem_names_iff]
  constructor
  · rintro ⟨_, h, hn⟩
    cases h
    exact hn
  · exact fun hn => ⟨_, rfl, hn⟩

lemma lists_iff_entry :
    u.Lists n ↔ ∃ e, u.registry.entries.get? n = some e ∧ e.isLive u.owners.alive := by
  simp only [lists_iff, find?_eq_some_iff]
  constructor
  · rintro ⟨_, e, he, hlive, -⟩
    exact ⟨e, he, hlive⟩
  · rintro ⟨e, he, hlive⟩
    exact ⟨_, e, he, hlive, rfl⟩

/-- What `unregister` answers says whether there is an entry, lapsed or not. -/
lemma use_unregister (u : User) (n : String) :
    (u.use (.unregister n)).1 = .flag (u.registry.entries.get? n).isSome := rfl

/-! ### One step -/

/-- A step that writes leaves the owners as they are. -/
lemma use_owners_of_write? (h : u.write? step = some w) : (u.use step).2.owners = u.owners := by
  cases step with
  | register l => rfl
  | unregister name => rfl
  | registerWeak id =>
    rw [User.use]
    split <;> rfl
  | _ => cases h

/-- A registration sweeps the entries of other names, a removal does not touch them. -/
lemma entries_use_of_write? (h : u.write? step = some w) (hn : w.name ≠ n) :
    (u.use step).2.registry.entries.get? n =
      if w.entry?.isSome then (u.registry.sweep u.owners.alive).entries.get? n
      else u.registry.entries.get? n := by
  cases step with
  | register l =>
    cases h
    exact (Dict.get?_insert _ _ _ _).trans (if_neg hn)
  | registerWeak id =>
    obtain ⟨a, ha, rfl⟩ := Option.map_eq_some_iff.1 h
    rw [User.use, ha]
    exact (Dict.get?_insert _ _ _ _).trans (if_neg hn)
  | unregister name =>
    cases h
    exact (Dict.get?_erase _ _ _).trans (if_neg hn)
  | _ => cases h

/-- A lookup goes by the entry of its name alone. -/
lemma find?_congr {r r' : LevelRegistry} (alive : Nat → Bool)
    (h : r.entries.get? n = r'.entries.get? n) : r.find? alive n = r'.find? alive n := by
  rw [find?, find?, h]

lemma find?_use_of_write? (h : u.write? step = some w) (hn : w.name ≠ n) :
    (u.use step).2.registry.find? (u.use step).2.owners.alive n =
      u.registry.find? u.owners.alive n := by
  rw [use_owners_of_write? h]
  have hentries := entries_use_of_write? h hn
  split_ifs at hentries
  · rw [find?_congr _ hentries, find?_sweep]
  · exact find?_congr _ hentries

/-- Whether two users are told the same of the level of a name. -/
structure Agree (u v : User) (n : String) : Prop where
  get_eq : (u.use (.get n)).1 = (v.use (.get n)).1
  lists_iff : u.Lists n ↔ v.Lists n

lemma agree_of_find?_eq
    (h : u.registry.find? u.owners.alive n = v.registry.find? v.owners.alive n) :
    u.Agree v n where
  get_eq := by
    rw [User.use, User.use, LevelRegistry.get, LevelRegistry.get, h]
    cases v.registry.find? v.owners.alive n <;> rfl
  lists_iff := by rw [User.lists_iff, User.lists_iff, h]

/-- What is told of a name before and after an entry or a removal under another name. -/
structure Spared (u v : User) (n : String) (e? : Option LevelEntry) : Prop where
  agree : u.Agree v n
  /-- A removal changes nothing, and a registration nothing of a name that is listed. -/
  unregister_eq : e? = none ∨ u.Lists n →
    (v.use (.unregister n)).1 = (u.use (.unregister n)).1
  /-- Of a name that is not listed, a registration leaves no entry behind. -/
  unregister_swept : e?.isSome → ¬ u.Lists n → (v.use (.unregister n)).1 = .flag false

lemma spared_use (h : u.write? step = some w) (hn : w.name ≠ n) :
    u.Spared (u.use step).2 n w.entry? := by
  have hfind := find?_use_of_write? h hn
  have hentries := entries_use_of_write? h hn
  refine ⟨agree_of_find?_eq hfind.symm, ?_, ?_⟩
  · rintro (hnone | hl)
    · simp [use_unregister, hentries, hnone]
    · obtain ⟨e, he, hlive⟩ := lists_iff_entry.1 hl
      simp [use_unregister, hentries, he, sweep, Dict.get?_filter, Option.filter, hlive]
  · intro hsome hl
    rw [use_unregister, hentries, if_pos hsome, sweep, Dict.get?_filter]
    cases he : u.registry.entries.get? n with
    | none => rfl
    | some e =>
      have hlive : ¬ e.isLive u.owners.alive := fun hlive => hl (lists_iff_entry.2 ⟨e, he, hlive⟩)
      simp [hlive]

/-! ### Leaving out other names -/

/-- The steps without those that write a name other than a given one. -/
def only (u : User) (n : String) : List Use → List Use
  | [] => []
  | step :: steps =>
    if (u.write? step).any (·.name ≠ n) then (u.use step).2.only n steps
    else step :: (u.use step).2.only n steps

lemma write?_congr (ho : u.owners = v.owners) (step : Use) : u.write? step = v.write? step := by
  cases step <;> simp [write?, ho]

/-- The steps that are left have the same owners and the same writes for the name. -/
lemma useAll_only (ho : u.owners = v.owners) (n : String) (steps : List Use) :
    (v.useAll (u.only n steps)).2.owners = (u.useAll steps).2.owners ∧
      (v.writes (u.only n steps)).filter (·.name = n) =
        (u.writes steps).filter (·.name = n) := by
  induction steps generalizing u v with
  | nil => exact ⟨ho.symm, rfl⟩
  | cons step steps ih =>
    rw [only]
    split_ifs with hother
    · obtain ⟨w, hw, hn⟩ : ∃ w, u.write? step = some w ∧ w.name ≠ n := by
        simpa [Option.any_eq_true] using hother
      obtain ⟨ho', hws⟩ := ih ((use_owners_of_write? hw).trans ho)
      refine ⟨ho', ?_⟩
      rw [hws, writes, hw]
      simp [hn]
    · obtain ⟨ho', hws⟩ := ih (use_owners_congr ho step)
      refine ⟨ho', ?_⟩
      rw [writes, writes, List.filter_append, List.filter_append, hws, write?_congr ho]

lemma lastOf_congr {ws ws' : List Write}
    (h : ws.filter (·.name = n) = ws'.filter (·.name = n)) : lastOf ws n = lastOf ws' n := by
  rw [lastOf, lastOf, h]

/-- Lookups of a name go by what was written for it last and by whether that still stands. -/
lemma Tracks.find?_congr {ws ws' : List Write} (h : u.Tracks ws) (h' : v.Tracks ws')
    (hlast : lastOf ws n = lastOf ws' n)
    (hstands : ∀ e, lastOf ws n = some e → (Stands u.owners e ↔ Stands v.owners e)) :
    u.registry.find? u.owners.alive n = v.registry.find? v.owners.alive n := by
  ext l
  rw [h.find?_eq_some_iff, h'.find?_eq_some_iff, Resolves, Resolves, ← hlast]
  refine exists_congr fun e => and_congr_right fun he => ?_
  rw [hstands e he]

/-! ### What `unregister` goes by -/

lemma useAll_append (u : User) (uses more : List Use) :
    (u.useAll (uses ++ more)).2 = ((u.useAll uses).2.useAll more).2 := by
  induction uses generalizing u with
  | nil => rfl
  | cons step steps ih => exact ih _

lemma writes_append (u : User) (uses more : List Use) :
    u.writes (uses ++ more) = u.writes uses ++ (u.useAll uses).2.writes more := by
  induction uses generalizing u with
  | nil => rfl
  | cons step steps ih =>
    rw [List.cons_append, writes, writes, ih, List.append_assoc]
    rfl

/-- Whether steps register nothing and do not remove a name. -/
def Idle (u : User) (n : String) (steps : List Use) : Prop :=
  ∀ w ∈ u.writes steps, w.entry? = none ∧ w.name ≠ n

lemma idle_nil (u : User) (n : String) : u.Idle n [] := fun w hw => by cases hw

lemma idle_concat {steps : List Use} (h : u.Idle n steps)
    (hw : ∀ w, (u.useAll steps).2.write? step = some w → w.entry? = none ∧ w.name ≠ n) :
    u.Idle n (steps ++ [step]) := by
  intro w hmem
  rw [writes_append, List.mem_append] at hmem
  obtain hmem | hmem := hmem
  · exact h w hmem
  · exact hw w (by simpa [writes] using hmem)

/-- A step that writes nothing leaves the registry as it is. -/
lemma use_registry_of_write?_eq_none (h : u.write? step = none) :
    (u.use step).2.registry = u.registry := by
  cases step with
  | registerWeak id =>
    have hid : u.owners.get? id = none := by simpa [write?] using h
    simp [User.use, hid]
  | get name =>
    rw [User.use]
    split <;> rfl
  | register l => cases h
  | unregister name => cases h
  | _ => rfl

/-- A name that has just been registered is listed. -/
lemma lists_use_of_write? {e : LevelEntry} (h : u.write? step = some ⟨n, some e⟩) :
    (u.use step).2.Lists n := by
  rw [lists_iff_entry, use_owners_of_write? h]
  cases step with
  | register l =>
    cases h
    exact ⟨.strong l, by simp [User.use, register, Dict.get?_insert], rfl⟩
  | registerWeak id =>
    obtain ⟨a, ha, hw⟩ := Option.map_eq_some_iff.1 h
    cases hw
    rw [User.use, ha]
    refine ⟨.weak a.1 a.2, by simp [registerWeak, Dict.get?_insert], ?_⟩
    exact LevelOwners.alive_iff.2 ⟨id, a.2, ha⟩
  | _ => cases h

/-- After a registration every entry that is left is one of a listed name. -/
lemma lists_use_of_isSome (h : u.write? step = some w) (he : w.entry?.isSome)
    (hn : ((u.use step).2.registry.entries.get? n).isSome) : (u.use step).2.Lists n := by
  obtain ⟨e, he⟩ := Option.isSome_iff_exists.1 he
  by_cases hname : w.name = n
  · refine lists_use_of_write? (e := e) ?_
    rw [h, ← hname, ← he]
  · rw [entries_use_of_write? h hname, he, Option.isSome_some, if_pos rfl, sweep,
      Dict.get?_filter] at hn
    obtain ⟨e', he'⟩ := Option.isSome_iff_exists.1 hn
    obtain ⟨hget, hlive⟩ := Option.filter_eq_some_iff.1 he'
    exact (spared_use h hname).agree.lists_iff.1 (lists_iff_entry.2 ⟨e', hget, hlive⟩)

/-- A name that has just been removed has no entry. -/
lemma entries_use_of_removal (h : u.write? step = some w) (hw : w.entry? = none) :
    (u.use step).2.registry.entries.get? w.name = none := by
  cases step with
  | unregister name =>
    cases h
    exact (Dict.get?_erase _ _ _).trans (if_pos rfl)
  | registerWeak id =>
    obtain ⟨a, -, rfl⟩ := Option.map_eq_some_iff.1 h
    cases hw
  | register l =>
    cases h
    cases hw
  | _ => cases h

lemma entries_use_of_idle (h : ∀ w, u.write? step = some w → w.entry? = none ∧ w.name ≠ n) :
    (u.use step).2.registry.entries.get? n = u.registry.entries.get? n := by
  cases hw : u.write? step with
  | none => rw [use_registry_of_write?_eq_none hw]
  | some w =>
    obtain ⟨hnone, hname⟩ := h w hw
    rw [entries_use_of_write? hw hname, hnone]
    rfl

lemma Idle.entries_useAll {steps : List Use} (h : u.Idle n steps) :
    (u.useAll steps).2.registry.entries.get? n = u.registry.entries.get? n := by
  induction steps generalizing u with
  | nil => rfl
  | cons step steps ih =>
    have hstep : ∀ w, u.write? step = some w → w.entry? = none ∧ w.name ≠ n := fun w hw =>
      h w (List.mem_append_left _ (by simp [hw]))
    have hsteps : (u.use step).2.Idle n steps := fun w hw => h w (List.mem_append_right _ hw)
    exact (ih hsteps).trans (entries_use_of_idle hstep)

/-! ### A registry of the standard levels -/

/-- A user who has put a registry of the standard levels to some uses. -/
def after (uses : List Use) : User := (({} : User).useAll uses).2

/-- What such a user has written, the standard levels first. -/
def written (uses : List Use) : List Write := initialWrites ++ ({} : User).writes uses

lemma tracks_after (uses : List Use) : (after uses).Tracks (written uses) :=
  tracks_initial.useAll uses

lemma after_append (uses more : List Use) :
    after (uses ++ more) = ((after uses).useAll more).2 := useAll_append {} uses more

/-- An entry is there just if its name was listed at some time since which nothing was registered
and the name was not removed. -/
lemma isSome_entries_after_iff (uses : List Use) (n : String) :
    ((after uses).registry.entries.get? n).isSome ↔
      ∃ early late, uses = early ++ late ∧ (after early).Lists n ∧ (after early).Idle n late := by
  constructor
  · induction uses using List.reverseRecOn with
    | nil =>
      intro h
      obtain ⟨e, he⟩ := Option.isSome_iff_exists.1 h
      obtain ⟨l, rfl⟩ := eq_strong_of_initialWrites (tracks_initial.last n e he)
      exact ⟨[], [], rfl, lists_iff_entry.2 ⟨_, he, rfl⟩, idle_nil _ n⟩
    | append_singleton uses step ih =>
      have hlast : after (uses ++ [step]) = ((after uses).use step).2 := after_append uses [step]
      rw [hlast]
      intro h
      by_cases hreg : ∃ w, (after uses).write? step = some w ∧ w.entry?.isSome
      · obtain ⟨w, hw, hsome⟩ := hreg
        refine ⟨uses ++ [step], [], by simp, ?_, idle_nil _ n⟩
        rw [hlast]
        exact lists_use_of_isSome hw hsome h
      -- nothing was registered, so the entry was there before and is not one that was removed
      · have hstep : ∀ w, (after uses).write? step = some w → w.entry? = none ∧ w.name ≠ n := by
          intro w hw
          have hnone : w.entry? = none :=
            Option.not_isSome_iff_eq_none.1 fun hsome => hreg ⟨w, hw, hsome⟩
          refine ⟨hnone, fun hname => ?_⟩
          rw [← hname, entries_use_of_removal hw hnone] at h
          cases h
        rw [entries_use_of_idle hstep] at h
        obtain ⟨early, late, rfl, hl, hidle⟩ := ih h
        rw [after_append] at hstep
        exact ⟨early, late ++ [step], by simp, hl, idle_concat hidle hstep⟩
  · rintro ⟨early, late, rfl, hl, hidle⟩
    obtain ⟨e, he, -⟩ := lists_iff_entry.1 hl
    rw [after_append, hidle.entries_useAll, he]
    rfl

/-- What a user is told of a name, whatever goes on under other names. -/
structure Apart (uses : List Use) (n : String) : Prop where
  spared : ∀ step w, (after uses).write? step = some w → w.name ≠ n →
    (after uses).Spared ((after uses).use step).2 n w.entry?
  /-- Levels go by what was written for the name last and by whether that still stands. -/
  agree : ∀ uses', lastOf (written uses) n = lastOf (written uses') n →
    (∀ e, lastOf (written uses) n = some e →
      (Stands (after uses).owners e ↔ Stands (after uses').owners e)) →
    (after uses).Agree (after uses') n
  /-- So all steps that write other names could be left out. -/
  agree_only : (after uses).Agree (after (({} : User).only n uses)) n
  /-- What is removed was listed at some time, and nothing was registered since. -/
  unregister_iff : ((after uses).use (.unregister n)).1 = .flag true ↔
    ∃ early late, uses = early ++ late ∧ (after early).Lists n ∧ (after early).Idle n late

/-- Steps that write other names change nothing about the level of a name, in any state that a
registry of the standard levels can be in. Nor do they change the answer to its removal, unless
its entry has lapsed: that counts as an entry until something is registered. -/
theorem apart_after (uses : List Use) (n : String) : Apart uses n where
  spared step w hw hn := spared_use hw hn
  agree uses' hlast hstands :=
    agree_of_find?_eq ((tracks_after uses).find?_congr (tracks_after uses') hlast hstands)
  agree_only := by
    obtain ⟨ho, hws⟩ := useAll_only (u := {}) rfl n uses
    have hlast : lastOf (written uses) n = lastOf (written (({} : User).only n uses)) n :=
      lastOf_congr (by rw [written, written, List.filter_append, List.filter_append, hws])
    refine agree_of_find?_eq
      ((tracks_after uses).find?_congr (tracks_after _) hlast fun e _ => ?_)
    rw [after, after, ho]
  unregister_iff := by
    rw [use_unregister, Response.flag.injEq]
    exact isSome_entries_after_iff uses n

/-- A level that nobody owns any more can be removed, but not once another was registered. -/
theorem unregister_ne_of_register :
    let u := after [.hold "X" ⟨"X", 1⟩, .registerWeak "X", .drop "X"]
    (u.use (.unregister "X")).1 = .flag true ∧
      ((u.use (.register ⟨"Y", 2⟩)).2.use (.unregister "X")).1 = .flag false := by
  decide

end Logging.LevelRegistry.User
