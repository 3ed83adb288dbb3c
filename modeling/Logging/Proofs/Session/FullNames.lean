import Logging.Pattern.Compiled
import Logging.Proofs.Session.Ownership
import Logging.Proofs.Tree.Names

/-!
# Nodes under their full names

Segments come from names that were cut at their dots, so no course ever brings a dot into one, and
the full name of a node is that of its path (`Course.spelled`). A lookup of that name gives the node
where the path can be read off it, and its parent where an empty segment at the end is lost; a
logger of that name is bound to the same node, since a handle keeps the way to its node.
-/

namespace Logging.Session

open Run

variable {L : Licence} {s s' u : Session} {n m : NodeId} {i : HandleId} {calls : Calls}
  {name k h : String} {path q : List String}

/-! ### How names are spelled -/

/-- Segments have no dots, and the root has the empty name. -/
structure Spelled (s : Session) : Prop where
  dotless : s.tree.Dotless
  root : (s.tree.node Tree.root).fullName = ""

lemma Leads.fullName_root (h : s.Leads s') (hs : s.Sound)
    (hroot : (s.tree.node Tree.root).fullName = "") :
    (s'.tree.node Tree.root).fullName = "" := by
  induction h with
  | refl => exact hroot
  | tail h h' ih =>
    cases h' with
    | change h' => exact h'.fullName_root (Leads.sound h hs).tree.toWellShaped ih
    | aside ht => rw [ht, ih]

lemma dotless_grant (hs : s.Sound) (hd : s.tree.Dotless) (hn : n < s.tree.nodes.next)
    (name : String) : (s.grant n name).tree.Dotless :=
  (hd.getOrCreate hs.tree.toWellShaped hn (Path.dotless_segments name.toList)).of_sameShape
    (Tree.sameShape_modify _ _ (Node.setting_live (List.cons s.handles.next)).place)

lemma Deed.dotless (h : s.Deed L s') (hs : s.Sound) (hd : s.tree.Dotless) : s'.tree.Dotless := by
  have ht := hs.tree.toWellShaped
  cases h with
  | beside h => rwa [h.tree]
  | @configure n f hf _ => exact hd.of_sameShape (Tree.sameShape_modify s.tree n hf.place)
  | setLevel l? _ => exact hd.of_sameShape (Tree.sameShape_setLevel s.tree _ l?)
  | grow name _ hn => exact hd.getOrCreate ht hn (Path.dotless_segments name.toList)
  | grant name hn => exact dotless_grant hs hd hn name
  | destroy hr => exact hd.of_entries ((End.destroy hr).partOf hs).entry
  | @process a rest _ =>
    have hu : (({ s with notices := rest } : Session).strikeOff a).tree.Dotless :=
      hd.of_sameShape
        (Tree.sameShape_modify s.tree a.node (Node.setting_live (List.erase · a.handle)).place)
    exact hu.of_entries ((ends_process _ a).partOf ((leads_strikeOff s a rest).sound hs)).entry
  | @reset n _ _ =>
    have hl := leads_reset s n
    have hr : (s.tree.reset n).Dotless := hd.of_entries fun hk => ((Tree.child?_reset ht).1 hk).1
    exact hr.of_entries ((ends_settle _).partOf (hl.sound hs)).entry
  | takeDown _ => exact hd.of_entries (Tree.partOf_takeDown ht Tree.root).entry

theorem Course.spelled (h : s.Course L s') (hs : s.Sound) (hd : s.Spelled) : s'.Spelled where
  dotless := h.induction hs hd.dotless fun _ _ hs h hd => h.dotless hs hd
  root := (h.leads hs).fullName_root hs hd.root

lemma spelled_new (strong : Bool) (baseline : Level) (levels : List Level)
    (filters : List (String × NodeFilter)) : (new strong baseline levels filters).Spelled where
  dotless p k c hk := by cases (Tree.child?_new _ _).symm.trans hk
  root := rfl

/-! ### Loggers of a name that is there -/

lemma Ends.get?_held (h : s.Ends s') (hk : s.client.handles.get? k = some i) :
    s'.client.handles.get? k = some i ∧ s'.handles.get? i = s.handles.get? i := by
  refine ⟨?_, h.keeps.held (handle_mem_outerRefs hk)⟩
  rw [h.keeps.client, hk]

lemma run_keepHandle (k : String) (i : HandleId) (s : Session) :
    ((keepHandle (some k) i).run s).2 =
      ({ s with client := { s.client with handles := s.client.handles.insert k i } } :
        Session).settle := rfl

/-- A handle that a client keeps outlives the end of a call. -/
lemma get?_regain (hk : s.client.handles.get? k = some i) (refs : List Ref)
    (hu : u = (regain s.settle refs).settle) :
    u.client.handles.get? k = some i ∧ u.handles.get? i = s.handles.get? i := by
  obtain ⟨hk, hi⟩ := (ends_settle s).get?_held hk
  obtain ⟨hk', hi'⟩ := (ends_settle (regain s.settle refs)).get?_held hk
  rw [hu]
  exact ⟨hk', hi'.trans hi⟩

lemma get?_keepHandle (s : Session) (k : String) (i : HandleId) (refs : List Ref)
    (hu : u = (regain ((keepHandle (some k) i).run s).2 refs).settle) :
    u.client.handles.get? k = some i ∧ u.handles.get? i = s.handles.get? i := by
  rw [run_keepHandle] at hu
  have hk : (s.client.handles.insert k i).get? k = some i := by rw [Dict.get?_insert, if_pos rfl]
  exact get?_regain
    (s := { s with client := { s.client with handles := s.client.handles.insert k i } }) hk refs hu

lemma run_reclaim_bind {α : Type} (f : Nat → Run α) (s : Session) :
    (Run.reclaim >>= f).run s = (f s.reclaim.1).run s.reclaim.2 := rfl

/-- The handle is made, held on to while ends are dealt with, and kept under a name. -/
lemma run_grant_keep (n : NodeId) (name k : String) (s : Session) :
    ((getOrCreate n name >>= fun c => withHandle c (keepHandle (some k))).run s).2 =
      (regain ((keepHandle (some k) s.handles.next).run
        (lend (s.grant n name) [.handle s.handles.next]).reclaim.2).2
          (s.grant n name).inUse).settle := by
  rw [run_grant, run_borrowing, run_reclaim_bind]

/-- A new handle for a node that is found is kept under its name. -/
lemma get?_grant (hm : s.tree.find? n (Path.ofString name) = some m) {k : String}
    (hrun : u = ((getOrCreate n name >>= fun c => withHandle c (keepHandle (some k))).run s).2) :
    ∃ j, u.client.handles.get? k = some j ∧ u.handles.get? j = some m := by
  have hm' : (s.grant n name).handles.get? s.handles.next = some m := by
    show (s.handles.push (s.tree.getOrCreate n (Path.ofString name)).1).get? s.handles.next = some m
    rw [Store.get?_push, if_pos rfl, Tree.getOrCreate_of_find? hm]
  have hheld :
      .handle s.handles.next ∈ (lend (s.grant n name) [.handle s.handles.next]).outerRefs :=
    List.mem_append_left _ (List.mem_append_left _ List.mem_cons_self)
  have hreclaim := (keeps_reclaim (lend (s.grant n name) [.handle s.handles.next])).held hheld
  rw [run_grant_keep] at hrun
  obtain ⟨hk, hi⟩ := get?_keepHandle _ k s.handles.next _ hrun
  refine ⟨s.handles.next, hk, ?_⟩
  rw [hi, hreclaim]
  exact hm'

/-- The node of a handle of the client is found as before once ends were dealt with, and so are
those on the way. -/
lemma find?_reclaim (hs : s.Sound) (hg : s.Grounded) (hn : s.tree.find? Tree.root path = some n)
    (hi : s.client.handles.get? h = some i) (hin : s.handles.get? i = some n) (hq : q <+: path) :
    s.reclaim.2.tree.find? Tree.root q = s.tree.find? Tree.root q := by
  have hc : s.reclaim.2.tree.contains n := by
    refine (hg.reclaim hs).bound (i := i) ?_
    rw [(keeps_reclaim s).held (handle_mem_outerRefs hi), hin]
  have hlt : n < s.tree.nodes.next := Tree.lt_next_of_contains (hg.bound hin)
  exact ((course_reclaim s).upholds hs hlt hc).find?_eq hn hq

/-- A client that asks for the logger of a name. -/
lemma run_logger_step [Pattern.Engine] (calls : Calls) (hn : s.scope?.isSome) (name k : String) :
    ((Step.logger name (some k)).take calls).run s =
      (getOrCreate Tree.root name >>= fun c => withHandle c (keepHandle (some k))).run
        s.reclaim.2 := by
  obtain ⟨ns, hns⟩ := Option.isSome_iff_exists.1 hn
  show (theNamespace >>= fun _ => logger name (keepHandle (some k))).run s = _
  rw [run_bind, run_theNamespace, hns]
  exact run_reclaim_bind _ s

lemma step_client [Pattern.Engine] (calls : Calls) (s : Session) (step : Step) :
    (s.step calls step).2.client =
      ((step.take calls).run ({ s with journal := [] } : Session)).2.client := rfl

lemma step_handles [Pattern.Engine] (calls : Calls) (s : Session) (step : Step) :
    (s.step calls step).2.handles =
      ((step.take calls).run ({ s with journal := [] } : Session)).2.handles := rfl

/-- What a name stands for, to a lookup from the root, and to clients that ask for the logger of
this name while they have a handle for a certain node. -/
structure StandsFor [Pattern.Engine] (s : Session) (calls : Calls) (n : NodeId) (name : String)
    (m : NodeId) :
    Prop where
  found : s.tree.find? Tree.root (Path.ofString name) = some m
  bound : ∀ {h i}, s.client.handles.get? h = some i → s.handles.get? i = some n →
    s.scope?.isSome → ∀ k, ∃ j,
      (s.step calls (.logger name (some k))).2.client.handles.get? k = some j ∧
        (s.step calls (.logger name (some k))).2.handles.get? j = some m

/-- A name stands for what is found under it, if that is on the way to the node of the handle. -/
lemma standsFor_of_find? [Pattern.Engine] (hs : s.Sound) (hg : s.Grounded)
    (hn : s.tree.find? Tree.root path = some n) (hq : Path.ofString name <+: path)
    (hm : s.tree.find? Tree.root (Path.ofString name) = some m) : s.StandsFor calls n name m where
  found := hm
  bound {h i} hi hin hscope k := by
    let u : Session := { s with journal := [] }
    have hu : u.Sound := (leads_beside rfl rfl rfl id : s.Leads u).sound hs
    have hfound : u.reclaim.2.tree.find? Tree.root (Path.ofString name) = some m :=
      (find?_reclaim hu ⟨hg.outer, hg.bound, hg.parent, hg.held⟩ hn hi hin hq).trans hm
    have hrun := run_logger_step (s := u) calls hscope name k
    rw [step_client, step_handles, hrun]
    exact get?_grant hfound rfl

/-- The node at the end of a path is found again under its full name if the path can be read off it,
and then every logger of that name is bound to it. Where a path ends with an empty segment but
begins with another one, the dot at the end of the name adds nothing, and the name stands for the
parent. -/
theorem standsFor_fullName_steps [Pattern.Engine] (depth : Nat) (strong : Bool) (baseline : Level)
    (levels : List Level) (filters : List (String × NodeFilter)) (steps : List Step)
    (path : List String) (n : NodeId) :
    let s := ((new strong baseline levels filters).steps (Calls.within depth) steps).2
    s.tree.find? Tree.root path = some n →
      (Path.Plain path → s.StandsFor (Calls.within depth) n (s.node n).fullName n) ∧
      (path.head? ≠ some "" → path.getLast? = some "" → ∃ p, (s.node n).parent? = some p ∧
        s.StandsFor (Calls.within depth) n (s.node n).fullName p) := by
  intro s hn
  have hs : s.Sound := sound_steps depth strong baseline levels filters steps
  have hg : s.Grounded := (orderly_steps depth strong baseline levels filters steps).1
  have hcourse := (conduct_all depth (sound_new strong baseline levels filters) steps).course
  have hspelled : s.Spelled := hcourse.spelled (sound_new _ _ _ _) (spelled_new _ _ _ _)
  have hdotless := hspelled.dotless.find? hn
  have hname : (s.node n).fullName = Path.fullName path :=
    Tree.fullName_eq_of_find? hs.tree.toWellShaped hspelled.root hn
  rw [hname]
  refine ⟨fun hplain => ?_, fun hhead hlast => ?_⟩
  · have hread := Path.ofString_fullName_of_plain hdotless hplain
    refine standsFor_of_find? hs hg hn ⟨[], by rw [hread, List.append_nil]⟩ ?_
    rw [hread, hn]
  · have hread := Path.ofString_fullName_of_getLast? hdotless hhead hlast
    obtain ⟨p, hp, hparent⟩ := Tree.find?_dropLast hs.tree.toWellShaped hlast hn
    refine ⟨p, hparent, standsFor_of_find? hs hg hn ?_ ?_⟩
    · rw [hread]
      exact path.dropLast_prefix
    · rw [hread, hp]

open scoped Pattern.Searching in
/-- A name without empty segments stands for its node, and one with a dot at the end for the parent
of the node that has it. -/
theorem standsFor_fullName_steps_dot :
    let s := ((new true .info [] []).steps (Calls.within 0) [.logger "a.." (some "h")]).2
    ((s.tree.find? Tree.root ["a"] = some 1 ∧ Path.Plain ["a"]) ∧
      s.StandsFor (Calls.within 0) 1 (s.node 1).fullName 1) ∧
    (s.tree.find? Tree.root ["a", ""] = some 2 ∧ ["a", ""].head? ≠ some "" ∧
      ["a", ""].getLast? = some "") ∧
      ∃ p, (s.node 2).parent? = some p ∧ s.StandsFor (Calls.within 0) 2 (s.node 2).fullName p := by
  intro s
  have hplain : Path.Plain ["a"] := Or.inl (by decide)
  have hone : s.tree.find? Tree.root ["a"] = some 1 := by decide +kernel
  have htwo : s.tree.find? Tree.root ["a", ""] = some 2 := by decide +kernel
  refine ⟨⟨⟨hone, hplain⟩, ?_⟩, ⟨htwo, by decide, by decide⟩, ?_⟩
  · exact (standsFor_fullName_steps 0 true .info [] [] _ ["a"] 1 hone).1 hplain
  · exact (standsFor_fullName_steps 0 true .info [] [] _ ["a", ""] 2 htwo).2 (by decide) (by decide)

open scoped Pattern.Searching in
/-- A node whose path ends with an empty segment is not found under its full name, and the logger of
that name is bound to another node. -/
theorem not_find?_fullName_steps :
    let s := ((new true .info [] []).steps (Calls.within 0) [.logger "a.." (some "h")]).2
    let s' := (s.step (Calls.within 0) (.logger (s.node 2).fullName (some "k"))).2
    s.tree.find? Tree.root ["a", ""] = some 2 ∧
      s.tree.find? Tree.root (Path.ofString (s.node 2).fullName) ≠ some 2 ∧
      (s.client.handles.get? "h").bind s.handles.get? = some 2 ∧
      (s'.client.handles.get? "k").bind s'.handles.get? ≠ some 2 := by
  intro s s'
  refine ⟨?_, ?_, ?_, ?_⟩ <;> decide +kernel

end Logging.Session
