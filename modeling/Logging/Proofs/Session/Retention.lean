import Mathlib.Tactic.Common
import Logging.Pattern.Compiled
import Logging.Proofs.Session.Mirror

/-!
# Retention of nodes

A namespace keeps its nodes for good, or only while they are needed. A client that does not ask
which nodes there are, and gives the namespace nothing that calls back, is answered the same in both
cases, step by step and whatever the steps are (`Session.steps_retention`); only the counts of
pruned nodes and of the children of a node tell them apart.
-/

namespace Logging

def Place.isHandle : Place → Bool
  | handle _ => true
  | node _ => false

/-- The step does not ask which nodes there are, and gives the tree nothing that calls back. -/
def Step.isBlind : Step → Bool
  | loggerIfExists .. | keepNode .. | createNode .. | findNode .. | dropNode .. => false
  | describeNode .. | compareAndSetSinks .. | startNames .. | nextName .. | dropNames .. => false
  | settings | describeNamespace | dropNamespace => false
  | nodeInfo place | setNodeLevel place _ | resetNode place => place.isHandle
  | setFilter _ spec? => spec?.all FilterSpec.isQuiet
  | newSink _ sink => sink.allActions.all Action.isQuiet
  | registerFilter _ spec | keepFilter _ spec => spec.isQuiet
  | addHook actions => actions.all Action.isQuiet
  | _ => true

/-- The answer without the counts of pruned nodes and of children. -/
def Answer.withoutCounts : Answer → Answer
  | metrics m => metrics m.withoutPruned
  | node info => node { info with children := 0 }
  | a => a

/-- What came of a step, without these counts. -/
def Report.withoutCounts (r : Report) : Report :=
  { r with answer := r.answer.map Answer.withoutCounts }

open Session

namespace Run

variable {α β γ : Type} {P : Pairing} {s u : Session} {n m : NodeId} {l : List Ref} {calls : Calls}
  {E : Session → Session → Prop} {Q : β → γ → Session → Session → Prop}

/-! ### Handles and nodes -/

lemma agree_get_bind {f : Session → Run β} {g : Session → Run γ}
    (h : Agree E Q ((f s).run s) ((g u).run u)) :
    Agree E Q ((get >>= f).run s) ((get >>= g).run u) := h

lemma agree_node_bind {f : Node → Run β} {g : Node → Run γ}
    (h : Agree E Q ((f (s.node n)).run s) ((g (u.node m)).run u)) :
    Agree E Q ((node n >>= f).run s) ((node m >>= g).run u) := h

/-- What a step reads off a node. -/
lemma agree_read (h : Rest l s u) (name : String) {f : Node → Answer}
    (hf : ∀ a b : Node, a.Alike b → f a = f b) :
    Agree (Rest l) (Same (Rest l)) ((nodeAt name >>= fun n => node n >>= fun a => pure (f a)).run s)
      ((nodeAt name >>= fun n => node n >>= fun a => pure (f a)).run u) := by
  obtain ⟨P, hp, -⟩ := id h
  apply agree_nodeAt_bind hp h name
  intro i _
  exact .ok ⟨hf _ _ (hp.tree.alike (hp.pair_nodeOf i)), h⟩

lemma agree_parent [Pattern.Engine] (h : Rest l s u) (name : String) (as? : Option String) :
    Agree (Rest l) (Same (Rest l)) (((Step.parent name as?).take calls).run s)
      (((Step.parent name as?).take calls).run u) := by
  obtain ⟨P, hp, hl, -, hu⟩ := id h
  apply agree_nodeAt_bind hp h name
  intro i _
  have hparent : Option.Rel P.pair (s.node (s.nodeOf i)).parent? (u.node (u.nodeOf i)).parent? :=
    hp.tree.parent (hp.pair_nodeOf i)
  refine agree_node_bind ?_
  generalize (s.node (s.nodeOf i)).parent? = p?, (u.node (u.nodeOf i)).parent? = q? at hparent
  cases hparent with
  | none => exact .ok ⟨rfl, h⟩
  | some hpq => exact agree_newHandle hp hl hu.tended hpq as?

/-- Two nodes are the same in both sessions or in neither. -/
lemma agree_sameNode [Pattern.Engine] (h : Rest l s u) (name other : String) :
    Agree (Rest l) (Same (Rest l)) (((Step.sameNode name other).take calls).run s)
      (((Step.sameNode name other).take calls).run u) := by
  obtain ⟨P, hp, -⟩ := id h
  refine agree_nodeAt_bind hp h name fun i _ => agree_nodeAt_bind hp h other fun j _ => ?_
  have hiff := hp.tree.eq_iff (hp.pair_nodeOf j) (hp.pair_nodeOf i)
  have heq : (s.nodeOf i == s.nodeOf j) = (u.nodeOf i == u.nodeOf j) := by
    rw [Bool.eq_iff_iff, beq_iff_eq, beq_iff_eq]
    exact hiff
  exact .ok ⟨congrArg Answer.flag heq, h⟩

lemma agree_describeHandle [Pattern.Engine] (h : Rest l s u) (name : String) :
    Agree (Rest l) (Same (Rest l)) (((Step.describeHandle name).take calls).run s)
      (((Step.describeHandle name).take calls).run u) := by
  obtain ⟨P, hp, -⟩ := id h
  apply agree_need_bind name hp.client.handles h
  intro i _
  have hname : (s.node (s.nodeOf i)).fullName = (u.node (u.nodeOf i)).fullName :=
    (hp.tree.alike (hp.pair_nodeOf i)).fullName
  have htext : s.describeHandle i = u.describeHandle i := by
    simp [Session.describeHandle, hname]
  exact .ok ⟨congrArg Answer.text htext, h⟩

/-- What is shown of paired nodes, but for their children. -/
lemma nodeInfo_eq (h : Paired P s u) (hn : P.pair n m) :
    { s.nodeInfo n with children := 0 } = { u.nodeInfo m with children := 0 } := by
  have ha : (s.node n).Alike (u.node m) := h.tree.alike hn
  have hparent : ((s.node n).parent?.map fun p => (s.node p).fullName) =
        ((u.node m).parent?.map fun p => (u.node p).fullName) ∧
      (s.node n).isRoot = (u.node m).isRoot := by
    have hp : Option.Rel P.pair (s.node n).parent? (u.node m).parent? := h.tree.parent hn
    rw [Node.isRoot, Node.isRoot]
    generalize (s.node n).parent? = p?, (u.node m).parent? = q? at hp
    cases hp with
    | none => exact ⟨rfl, rfl⟩
    | some hpq => exact ⟨congrArg some (h.tree.alike hpq).fullName, rfl⟩
  simp only [Session.nodeInfo, Node.hasLiveHandles, ha.name, ha.fullName, ha.level, ha.effective,
    ha.filter, ha.parentFilters, ha.parentSinks, ha.live, hparent, h.toAlike.sinkNames_eq hn]

/-- A flag of a node is set, and read again. -/
lemma agree_setFlag (h : Rest l s u) (name : String) {f : Node → Node} {flag : Node → Bool}
    (hf : Node.Adjusts f) (ha : ∀ a b : Node, a.Alike b → (f a).Alike (f b))
    (hflag : ∀ a b : Node, a.Alike b → flag a = flag b) :
    Agree (Rest l) (Same (Rest l))
      ((nodeAt name >>= fun n => modifyNode n f >>= fun _ => node n >>= fun a =>
        pure (Answer.flag (flag a))).run s)
      ((nodeAt name >>= fun n => modifyNode n f >>= fun _ => node n >>= fun a =>
        pure (Answer.flag (flag a))).run u) := by
  obtain ⟨P, hp, hl, hs, hu⟩ := id h
  apply agree_nodeAt_bind hp h name
  intro i _
  have hn := hp.pair_nodeOf i
  obtain ⟨hp', hs', hu'⟩ := paired_adjust hp hs hu hn hf (ha _ _ (hp.tree.alike hn))
  have hread := hflag _ _ (hp'.tree.alike hn)
  exact .ok ⟨congrArg Answer.flag hread, P, hp', hl, hs', hu'⟩

lemma agree_changeAttachments (h : Rest l s u) (name : String)
    (f : Attachments → String → Except Fault (Option AttachmentValue × Attachments)) :
    Agree (Rest l) (Same (Rest l)) ((nodeAt name >>= fun n => changeAttachments n f).run s)
      ((nodeAt name >>= fun n => changeAttachments n f).run u) := by
  obtain ⟨P, hp, hl, hs, hu⟩ := id h
  apply agree_nodeAt_bind hp h name
  intro i _
  have hn := hp.pair_nodeOf i
  have ha : (s.node (s.nodeOf i)).Alike (u.node (u.nodeOf i)) := hp.tree.alike hn
  show Agree (Rest l) (Same (Rest l))
    ((ofExcept (f (s.node (s.nodeOf i)).attachments (s.node (s.nodeOf i)).fullName) >>= _).run s)
    ((ofExcept (f (u.node (u.nodeOf i)).attachments (u.node (u.nodeOf i)).fullName) >>= _).run u)
  rw [ha.attachments, ha.fullName]
  apply agree_ofExcept_bind _ h
  intro o
  obtain ⟨hp', hs', hu'⟩ := paired_adjust hp hs hu hn
    (Node.adjusts_attachments o.2) { ha with attachments := rfl }
  exact .ok ⟨rfl, P, hp', hl, hs', hu'⟩

/-! ### Filters -/

lemma agree_buildFilter_bind [Pattern.Engine] {spec : FilterSpec} {f : NodeFilter → Run β}
    {g : NodeFilter → Run γ} (h : Paired P s u) (hE : E s u) (hq : spec.isQuiet)
    (hf : ∀ x : NodeFilter, x.Quiet → Agree E Q ((f x).run s) ((g x).run u)) :
    Agree E Q ((buildFilter spec >>= f).run s) ((buildFilter spec >>= g).run u) := by
  have hsame := h.sameNames.buildFilter spec
  rw [buildFilter, bind_assoc, bind_assoc]
  refine agree_get_bind ?_
  rw [← hsame]
  refine agree_ofBuild_bind _ hE fun x hx => hf x ?_
  exact quiet_of_buildFilter h.left.toFiltersQuiet spec hq hx

lemma agree_setFilter [Pattern.Engine] (h : Rest l s u) (name : String) {spec? : Option FilterSpec}
    (hq : spec?.all FilterSpec.isQuiet) :
    Agree (Rest l) (Same (Rest l)) (((Step.setFilter name spec?).take calls).run s)
      (((Step.setFilter name spec?).take calls).run u) := by
  obtain ⟨P, hp, hl, -⟩ := id h
  apply agree_nodeAt_bind hp h name
  intro i _
  have hn := hp.pair_nodeOf i
  cases spec? with
  | none => exact .ok ⟨rfl, rest_setFilter hp hl hn fun f hf => nomatch hf⟩
  | some spec =>
    apply agree_buildFilter_bind hp h hq
    intro x hx
    exact .ok ⟨rfl, rest_setFilter hp hl hn fun f hf => Option.some.inj hf ▸ hx⟩

lemma agree_registerFilter [Pattern.Engine] (h : Rest l s u) (name : String) {spec : FilterSpec}
    (hq : spec.isQuiet) :
    Agree (Rest l) (Same (Rest l)) (((Step.registerFilter name spec).take calls).run s)
      (((Step.registerFilter name spec).take calls).run u) := by
  obtain ⟨P, hp, hl, -⟩ := id h
  apply agree_buildFilter_bind hp h hq
  intro x hx
  have hadd := rest_withFilters hp hl (f := fun d => d.insert name x) fun d hd id y hy => ?_
  · exact .ok ⟨rfl, hadd⟩
  · rw [Dict.get?_insert] at hy
    split_ifs at hy
    · exact Option.some.inj hy ▸ hx
    · exact hd id y hy

lemma agree_unregisterFilter [Pattern.Engine] (h : Rest l s u) (name : String) :
    Agree (Rest l) (Same (Rest l)) (((Step.unregisterFilter name).take calls).run s)
      (((Step.unregisterFilter name).take calls).run u) := by
  obtain ⟨P, hp, hl, -⟩ := id h
  apply agree_theNamespace_bind hp
  intro ns _
  have hdrop := rest_withFilters hp hl (f := fun d => d.erase name) fun d hd id y hy => ?_
  · exact .ok ⟨rfl, hdrop⟩
  · rw [Dict.get?_erase] at hy
    split_ifs at hy
    exact hd id y hy

lemma agree_keepFilter [Pattern.Engine] (h : Rest l s u) (name : String) {spec : FilterSpec}
    (hq : spec.isQuiet) :
    Agree (Rest l) (Same (Rest l)) (((Step.keepFilter name spec).take calls).run s)
      (((Step.keepFilter name spec).take calls).run u) := by
  obtain ⟨P, hp, hl, -⟩ := id h
  apply agree_buildFilter_bind hp h hq
  intro x hx
  have hkeep : Paired P
      { s with client := { s.client with filters := s.client.filters.insert name x } }
      { u with client := { u.client with filters := u.client.filters.insert name x } } := by
    refine hp.withClient ?_ rfl (fun id k hk => hp.sinks k (Or.inr (Or.inl ⟨id, hk⟩))) ?_
    · exact { hp.client with filters := congrArg (Dict.insert · name x) hp.client.filters }
    · intro id y hy
      rw [Dict.get?_insert] at hy
      split_ifs at hy
      · exact Option.some.inj hy ▸ hx
      · exact hp.left.held id y hy
  exact .ok ⟨rfl, rest_settle hkeep hl⟩

/-! ### Sinks -/

lemma agree_bindActions_bind {actions : List (Action String String)} {f : List BoundAction → Run β}
    {g : List BoundAction → Run γ} (h : Paired P s u) (hE : E s u)
    (hq : actions.all Action.isQuiet)
    (hf : ∀ bound : List BoundAction, bound.all Action.isQuiet →
      Agree E Q ((f bound).run s) ((g bound).run u)) :
    Agree E Q ((get >>= fun x => ofBuild (x.bindActions actions) >>= f).run s)
      ((get >>= fun x => ofBuild (x.bindActions actions) >>= g).run u) := by
  have hsame := h.sameNames.bindActions actions
  refine agree_get_bind ?_
  rw [← hsame]
  refine agree_ofBuild_bind _ hE fun bound hb => hf bound ?_
  exact quiet_of_bindActions hq hb

/-- A new sink, and no other, is what the client has under the name from then on. -/
lemma agree_newSink [Pattern.Engine] (h : Rest l s u) (name : String) {sink : Sink String String}
    (hq : sink.allActions.all Action.isQuiet) :
    Agree (Rest l) (Same (Rest l)) (((Step.newSink name sink).take calls).run s)
      (((Step.newSink name sink).take calls).run u) := by
  obtain ⟨P, hp, hl, -⟩ := id h
  obtain ⟨hq, hflush⟩ := Sink.quiet_iff.1 hq
  apply agree_bindActions_bind hp h hq
  intro bound hbound
  apply agree_bindActions_bind hp h hflush
  intro flushBound hflushBound
  let b : BoundSink := {
    name := sink.name
    silent := sink.silent
    bare := sink.bare
    publishFault? := sink.publishFault?
    flushFault? := sink.flushFault?
    actions := bound
    flushActions := flushBound }
  have hpush : Paired P { s with sinks := s.sinks.push b } { u with sinks := u.sinks.push b } :=
    hp.pushSink (Sink.quiet_iff.2 ⟨hbound, hflushBound⟩)
  have hclient : Paired P
      { s with
        sinks := s.sinks.push b
        client := { s.client with sinks := s.client.sinks.insert name s.sinks.next } }
      { u with
        sinks := u.sinks.push b
        client := { u.client with sinks := u.client.sinks.insert name u.sinks.next } } := by
    refine hpush.withClient ?_ rfl (fun id k hk => ?_) hp.left.held
    · rw [hp.nextSink]
      exact { hp.client with sinks := congrArg (Dict.insert · name u.sinks.next) hp.client.sinks }
    · rw [Dict.get?_insert] at hk
      split_ifs at hk
      · cases hk
        show (s.sinks.push b).get? s.sinks.next = (u.sinks.push b).get? s.sinks.next
        rw [Store.get?_push, Store.get?_push, hp.nextSink, if_pos rfl, if_pos rfl]
      · exact hpush.sinks k (Or.inr (Or.inl ⟨id, hk⟩))
  exact .ok ⟨rfl, rest_settle hclient hl⟩

lemma agree_dropSink [Pattern.Engine] (h : Rest l s u) (name : String) :
    Agree (Rest l) (Same (Rest l)) (((Step.dropSink name).take calls).run s)
      (((Step.dropSink name).take calls).run u) := by
  obtain ⟨P, hp, hl, -⟩ := id h
  have hdrop : Paired P
      { s with client := { s.client with sinks := s.client.sinks.erase name } }
      { u with client := { u.client with sinks := u.client.sinks.erase name } } := by
    refine hp.withClient ?_ rfl (fun id k hk => ?_) hp.left.held
    · exact { hp.client with sinks := congrArg (Dict.erase · name) hp.client.sinks }
    · rw [Dict.get?_erase] at hk
      split_ifs at hk
      exact hp.sinks k (Or.inr (Or.inl ⟨id, hk⟩))
  have hheld := congrArg (fun d => Answer.flag (d.contains name)) hp.client.sinks
  exact .ok ⟨hheld, rest_settle hdrop hl⟩

/-- The names of the sinks of a node. -/
lemma sinkNames_eq_of_restAt (h : RestAt l n m s u) :
    s.sinkNames (s.node n).sinks = u.sinkNames (u.node m).sinks := by
  obtain ⟨P, hp, -, -, -, hn⟩ := h
  exact hp.toAlike.sinkNames_eq hn

lemma rest_of_restAt (h : RestAt l n m s u) : Rest l s u := by
  obtain ⟨P, hp, hl, hs, hu, -⟩ := h
  exact ⟨P, hp, hl, hs, hu⟩

/-- To save the array of a node changes nothing that shows, and the client keeps its sinks. -/
lemma agree_saveArray (h : Paired P s u) (hl : s.inUse = l) (hs : s.Settled) (hu : u.Settled)
    {name : String} {i : HandleId} (hi : s.client.handles.get? name = some i)
    (save? : Option String) :
    Agree (Rest l)
      (fun a b x y => a = b ∧ RestAt l (s.nodeOf i) (u.nodeOf i) x y ∧
        x.client.sinks = s.client.sinks)
      ((saveArray save? (s.node (s.nodeOf i)).sinks).run s)
      ((saveArray save? (u.node (u.nodeOf i)).sinks).run u) := by
  have hn := h.pair_nodeOf i
  have hnames := congrArg Answer.texts (h.toAlike.sinkNames_eq hn)
  cases save? with
  | none => exact .ok ⟨hnames, ⟨P, h, hl, hs, hu, hn⟩, rfl⟩
  | some id =>
    let c : Client := {
      s.client with arrays := s.client.arrays.insert id (s.node (s.nodeOf i)).sinks }
    let d : Client := {
      u.client with arrays := u.client.arrays.insert id (u.node (u.nodeOf i)).sinks }
    have hsave : Paired P { s with client := c } { u with client := d } := by
      refine h.withClient { h.client with } rfl (fun id k hk => ?_) h.left.held
      exact h.sinks k (Or.inr (Or.inl ⟨id, hk⟩))
    have hkept : ({ s with client := c } : Session).settle.client.sinks = s.client.sinks := by
      rw [(ends_settle _).keeps.client]
    exact .ok ⟨hnames, restAt_settle hsave hl hi, hkept⟩

lemma agree_sinks [Pattern.Engine] (h : Rest l s u) (name : String) (save? : Option String) :
    Agree (Rest l) (Same (Rest l)) (((Step.sinks name save?).take calls).run s)
      (((Step.sinks name save?).take calls).run u) := by
  obtain ⟨P, hp, hl, hs, hu⟩ := id h
  refine agree_nodeAt_bind hp h name fun i hi => agree_node_bind ?_
  exact (agree_saveArray hp hl hs hu hi save?).mono id fun hab => ⟨hab.1, rest_of_restAt hab.2.1⟩

lemma agree_addSink [Pattern.Engine] (h : Rest l s u) (name sink : String) :
    Agree (Rest l) (Same (Rest l)) (((Step.addSink name sink).take calls).run s)
      (((Step.addSink name sink).take calls).run u) := by
  obtain ⟨P, hp, hl, -⟩ := id h
  apply agree_nodeAt_bind hp h name
  intro i hi
  apply agree_need_bind sink hp.client.sinks h
  intro k hk
  have hn := hp.pair_nodeOf i
  have hold : (s.node (s.nodeOf i)).sinks.sinks = (u.node (u.nodeOf i)).sinks.sinks :=
    (hp.tree.alike hn).sinks
  have hset : Paired P
      (s.modifyNode (s.nodeOf i) fun a =>
        { a with sinks := (s.node (s.nodeOf i)).sinks.add k })
      (u.modifyNode (u.nodeOf i) fun a =>
        { a with sinks := (u.node (u.nodeOf i)).sinks.add k }) := by
    apply paired_setSinks hp hn (congrArg (· ++ [k]) hold)
    intro j hj
    rcases List.mem_append.1 hj with hj | hj
    · exact Or.inr (Or.inr ⟨_, _, hn, hj⟩)
    · obtain rfl := List.mem_singleton.1 hj
      exact Or.inr (Or.inl ⟨sink, hk⟩)
  have hat := restAt_settle hset hl hi
  have hnames := congrArg Answer.texts (sinkNames_eq_of_restAt hat)
  exact .ok ⟨hnames, rest_of_restAt hat⟩

/-- To remove a sink that is not there leaves the array as it is. -/
lemma remove_eq (a : NodeSinks) (k : SinkId) :
    (a.remove k).1 = decide (k ∈ a.sinks) ∧
      (a.remove k).2.sinks = a.sinks.erase k := by
  rw [SinkArray.remove]
  split_ifs with hk
  · have hsame : a.same a = true := by simp [SinkArray.same]
    rw [SinkArray.compareAndSet, if_pos hsame]
    exact ⟨(decide_eq_true hk).symm, rfl⟩
  · exact ⟨(decide_eq_false hk).symm, (List.erase_of_not_mem hk).symm⟩

lemma agree_removeSink [Pattern.Engine] (h : Rest l s u) (name sink : String) :
    Agree (Rest l) (Same (Rest l)) (((Step.removeSink name sink).take calls).run s)
      (((Step.removeSink name sink).take calls).run u) := by
  obtain ⟨P, hp, hl, -⟩ := id h
  apply agree_nodeAt_bind hp h name
  intro i hi
  apply agree_need_bind sink hp.client.sinks h
  intro k _
  have hn := hp.pair_nodeOf i
  have hold : (s.node (s.nodeOf i)).sinks.sinks = (u.node (u.nodeOf i)).sinks.sinks :=
    (hp.tree.alike hn).sinks
  obtain ⟨hdone, hleft⟩ := remove_eq (s.node (s.nodeOf i)).sinks k
  obtain ⟨hdone', hleft'⟩ := remove_eq (u.node (u.nodeOf i)).sinks k
  have hset : Paired P
      (s.modifyNode (s.nodeOf i) fun a =>
        { a with sinks := ((s.node (s.nodeOf i)).sinks.remove k).2 })
      (u.modifyNode (u.nodeOf i) fun a =>
        { a with sinks := ((u.node (u.nodeOf i)).sinks.remove k).2 }) := by
    refine paired_setSinks hp hn ?_ fun j hj => ?_
    · rw [hleft, hleft', hold]
    · rw [hleft] at hj
      exact Or.inr (Or.inr ⟨_, _, hn, List.mem_of_mem_erase hj⟩)
  have hat := restAt_settle hset hl hi
  have hfound : ((s.node (s.nodeOf i)).sinks.remove k).1 =
      ((u.node (u.nodeOf i)).sinks.remove k).1 := by
    rw [hdone, hdone', hold]
  exact .ok ⟨congrArg₂ Answer.changed hfound (sinkNames_eq_of_restAt hat), rest_of_restAt hat⟩

/-- The sinks of a node are replaced, and its former ones may be saved. -/
lemma agree_replaceSinks (h : Paired P s u) (hl : s.inUse = l) (hs : s.Settled) (hu : u.Settled)
    {name : String} {i : HandleId} (hi : s.client.handles.get? name = some i)
    (save? : Option String) {ks : List SinkId}
    (hks : ∀ k ∈ ks, ∃ id, s.client.sinks.get? id = some k) :
    Agree (Rest l) (Same (Rest l))
      ((saveArray save? (s.node (s.nodeOf i)).sinks >>= fun answer =>
        changeSinks (s.nodeOf i) fun a => (answer, a.set ks)).run s)
      ((saveArray save? (u.node (u.nodeOf i)).sinks >>= fun answer =>
        changeSinks (u.nodeOf i) fun a => (answer, a.set ks)).run u) := by
  refine (agree_saveArray h hl hs hu hi save?).bind ?_
  rintro a _ x y ⟨rfl, ⟨P', hp, hl', -, -, hn⟩, hclient⟩
  have hset : Paired P'
      (x.modifyNode (s.nodeOf i) fun b =>
        { b with sinks := (x.node (s.nodeOf i)).sinks.set ks })
      (y.modifyNode (u.nodeOf i) fun b =>
        { b with sinks := (y.node (u.nodeOf i)).sinks.set ks }) := by
    refine paired_setSinks hp hn rfl fun k hk => Or.inr (Or.inl ?_)
    rw [hclient]
    exact hks k hk
  exact .ok ⟨rfl, rest_settle hset hl'⟩

lemma agree_setSinks [Pattern.Engine] (h : Rest l s u) (name : String) (sinks : List String)
    (save? : Option String) :
    Agree (Rest l) (Same (Rest l)) (((Step.setSinks name sinks save?).take calls).run s)
      (((Step.setSinks name sinks save?).take calls).run u) := by
  obtain ⟨P, hp, hl, hs, hu⟩ := id h
  refine agree_nodeAt_bind hp h name fun i hi => agree_needAll_bind hp h sinks fun ks hks => ?_
  refine agree_node_bind ?_
  exact agree_replaceSinks hp hl hs hu hi save? hks

lemma agree_clearSinks [Pattern.Engine] (h : Rest l s u) (name : String) (save? : Option String) :
    Agree (Rest l) (Same (Rest l)) (((Step.clearSinks name save?).take calls).run s)
      (((Step.clearSinks name save?).take calls).run u) := by
  obtain ⟨P, hp, hl, hs, hu⟩ := id h
  refine agree_nodeAt_bind hp h name fun i hi => agree_node_bind ?_
  exact agree_replaceSinks hp hl hs hu hi save? fun k hk => nomatch hk

/-! ### Levels -/

lemma agree_modifyNamespace {f : Namespace → Namespace} {F : Session → Session → Prop}
    (h : F { s with scope? := s.scope?.map f } { u with scope? := u.scope?.map f }) :
    Agree E (Same F) ((modifyNamespace f).run s) ((modifyNamespace f).run u) := .ok ⟨rfl, h⟩

lemma levelAlive_eq (h : Paired P s u) : s.levelAlive = u.levelAlive :=
  congrArg LevelOwners.alive h.client.levels

lemma agree_levelNames (h : Rest l s u) :
    Agree (Rest l) (Same (Rest l)) (levelNames.run s) (levelNames.run u) := by
  obtain ⟨P, hp, -⟩ := id h
  refine agree_theNamespace_bind hp fun ns _ => .ok ⟨?_, h⟩
  exact congrArg (fun alive => Answer.texts (ns.levels.names alive)) (levelAlive_eq hp)

lemma agree_registerLevel [Pattern.Engine] (h : Rest l s u) (level : Level) :
    Agree (Rest l) (Same (Rest l)) (((Step.registerLevel level).take calls).run s)
      (((Step.registerLevel level).take calls).run u) := by
  obtain ⟨P, hp, hl, hs, hu⟩ := id h
  have halive := levelAlive_eq hp
  refine agree_get_bind ?_
  rw [← halive]
  have hregister := rest_withLevels hp hl hs hu (f := fun r => r.register s.levelAlive level)
    fun r hr => hr.register level
  exact (agree_modifyNamespace hregister).bind_same fun _ s u h' => agree_levelNames h'

/-- The client gets an owned level, and the registry refers to it. -/
lemma agree_holdLevel [Pattern.Engine] (h : Rest l s u) (name : String) (level : Level) :
    Agree (Rest l) (Same (Rest l)) (((Step.holdLevel name level).take calls).run s)
      (((Step.holdLevel name level).take calls).run u) := by
  obtain ⟨P, hp, hl, hs, hu⟩ := id h
  apply agree_theNamespace_bind hp
  intro ns _
  have halive := levelAlive_eq hp
  refine agree_get_bind (agree_get_bind ?_)
  rw [← halive, ← hp.client.levels]
  have hregister := rest_withLevels hp hl hs hu
    (f := fun r => r.registerWeak s.levelAlive (s.client.levels.hold name level).1 level)
    fun r hr => hr.registerWeak _ level
  apply (agree_modifyNamespace hregister).bind_same
  intro _ s u h'
  obtain ⟨P', hp', hl', -⟩ := h'
  exact agree_levelNames (rest_modifyClient hp' hl' { hp'.client with levels := rfl } rfl rfl rfl)

lemma agree_releaseLevel [Pattern.Engine] (h : Rest l s u) (name : String) :
    Agree (Rest l) (Same (Rest l)) (((Step.releaseLevel name).take calls).run s)
      (((Step.releaseLevel name).take calls).run u) := by
  obtain ⟨P, hp, hl, -⟩ := id h
  have hcd : ({ s.client with levels := s.client.levels.release name } : Client).Alike
      { u.client with levels := u.client.levels.release name } :=
    { hp.client with levels := congrArg (LevelOwners.release · name) hp.client.levels }
  exact agree_levelNames (rest_modifyClient hp hl hcd rfl rfl rfl)

lemma agree_unregisterLevel [Pattern.Engine] (h : Rest l s u) (name : String) :
    Agree (Rest l) (Same (Rest l)) (((Step.unregisterLevel name).take calls).run s)
      (((Step.unregisterLevel name).take calls).run u) := by
  obtain ⟨P, hp, hl, hs, hu⟩ := id h
  apply agree_theNamespace_bind hp
  intro ns hns
  have hnamed : (ns.levels.unregister name).2.Named := (hp.left.sound.named ns hns).unregister name
  exact .ok ⟨rfl, rest_withLevels hp hl hs hu (f := fun _ => _) fun _ _ => hnamed⟩

lemma agree_levelForName [Pattern.Engine] (h : Rest l s u) (name : String) :
    Agree (Rest l) (Same (Rest l)) (((Step.levelForName name).take calls).run s)
      (((Step.levelForName name).take calls).run u) := by
  obtain ⟨P, hp, -⟩ := id h
  apply agree_theNamespace_bind hp
  intro ns _
  have halive := levelAlive_eq hp
  refine agree_get_bind ?_
  rw [← halive]
  exact agree_ofExcept_bind _ h fun level => .ok ⟨rfl, h⟩

/-! ### The namespace -/

lemma agree_liveNames [Pattern.Engine] (h : Rest l s u) :
    Agree (Rest l) (Same (Rest l)) ((Step.liveNames.take calls).run s)
      ((Step.liveNames.take calls).run u) := by
  obtain ⟨P, hp, -⟩ := id h
  refine agree_theNamespace_bind hp fun ns _ => (agree_reclaim_rest h).bind_same fun _ s u h => ?_
  obtain ⟨P', hp', -⟩ := id h
  have hnames := LiveNames.all_of_fits hp'.tree hp'.left.sound.tree.toWellShaped
    hp'.right.sound.tree.toWellShaped
  exact .ok ⟨congrArg Answer.texts hnames, h⟩

lemma agree_resetMetrics [Pattern.Engine] (h : Rest l s u) :
    Agree (Rest l) (Same (Rest l)) ((Step.resetMetrics.take calls).run s)
      ((Step.resetMetrics.take calls).run u) := by
  obtain ⟨P, hp, -⟩ := id h
  have haside : Aside s u { s with metrics := {} } { u with metrics := {} } :=
    ⟨s.journal, {}, {}, rfl, by rw [hp.journal], rfl⟩
  exact .ok ⟨rfl, rest_of_aside h haside⟩

/-- What is done with the namespace if it is there. -/
lemma agree_scope_bind {f : Namespace → Run β} {g : Namespace → Run γ} {e : Stop}
    (h : Paired P s u)
    (hf : ∀ ns, s.scope? = some ns → Agree E Q ((f ns).run s) ((g ns).run u)) :
    Agree E Q
      ((get >>= fun x : Session => match x.scope? with
        | none => stop e
        | some ns => f ns).run s)
      ((get >>= fun x : Session => match x.scope? with
        | none => stop e
        | some ns => g ns).run u) := by
  obtain ⟨ns, hns⟩ := Option.isSome_iff_exists.1 h.left.present
  refine agree_get_bind ?_
  rw [← h.scope, hns]
  exact hf ns hns

lemma agree_addHook [Pattern.Engine] (h : Rest l s u) {actions : List (Action String String)}
    (hq : actions.all Action.isQuiet) :
    Agree (Rest l) (Same (Rest l)) (((Step.addHook actions).take calls).run s)
      (((Step.addHook actions).take calls).run u) := by
  obtain ⟨P, hp, hl, hs, hu⟩ := id h
  refine agree_bindActions_bind hp h hq fun bound hb =>
    Agree.bind_same ?_ fun _ _ _ h' => .ok ⟨rfl, h'⟩
  apply agree_scope_bind hp
  intro ns hns
  have hadd := rest_withHooks hp hl hs hu
    (f := fun ns => { ns with
      hooks := ns.hooks ++ [⟨ns.nextHook, bound⟩], nextHook := ns.nextHook + 1 })
    (fun _ => ⟨rfl, rfl⟩) fun ns hns k hk => ?_
  · have htold := (echoes_emit (.hookAccepted ns.nextHook)).agree hadd
    cases ns.closed with
    | true => exact .error h
    | false => exact htold
  · rcases List.mem_append.1 hk with hk | hk
    · exact hp.left.hook ns hns k hk
    · obtain rfl := List.mem_singleton.1 hk
      exact hb

lemma agree_reset_root (h : Rest l s u) :
    Agree (Rest l) (Same (Rest l)) ((reset Tree.root).run s) ((reset Tree.root).run u) := by
  obtain ⟨P, hp, hl, -⟩ := h
  exact .ok ⟨rfl, rest_settle (hp.reset hp.tree.root) hl⟩

/-- When the namespace is closed, its hooks run alike, and the same is reset. -/
theorem agree_close (hcalls : CallsDetached calls) (h : Rest l s u) :
    Agree (Rest l) (Same (Rest l)) ((close calls).run s) ((close calls).run u) := by
  obtain ⟨P, hp, hl, hs, hu⟩ := id h
  apply agree_scope_bind hp
  intro ns hns
  have hquiet := hp.left.hook ns hns
  have hclosed := rest_withHooks hp hl hs hu
    (f := fun ns => { ns with closed := true, hooks := [] }) (fun _ => ⟨rfl, rfl⟩)
    fun ns _ k hk => nomatch hk
  apply (agree_modifyNamespace hclosed).bind_same
  intro _ s u h
  obtain ⟨_, -, -, hs, hu⟩ := id h
  apply ((echoes_runHooks hcalls hs hu ns.hooks hquiet).agree h).bind_same
  intro _ s u h
  apply (agree_reset_root h).bind_same
  intro _ s u h
  exact (agree_reclaim_rest h).bind_same fun _ s u h => agree_pure h

end Run

open Run

variable {calls : Calls} {s u : Session} {l : List Ref}

/-- A blind step that does not ask for counts is answered the same in both sessions. -/
theorem Step.agree_take [Pattern.Engine] (hcalls : CallsDetached calls) (h : Rest l s u)
    (step : Step) (hb : step.isBlind) (hm : step ≠ .metrics)
    (hi : ∀ place, step ≠ .nodeInfo place) :
    Agree (Rest l) (Same (Rest l)) ((step.take calls).run s) ((step.take calls).run u) := by
  obtain ⟨P, hp, hl, hs, hu⟩ := id h
  cases step with
  | loggerIfExists | keepNode | createNode | findNode | dropNode | describeNode => cases hb
  | compareAndSetSinks | startNames | nextName | dropNames | settings => cases hb
  | describeNamespace | dropNamespace => cases hb
  | metrics => exact absurd rfl hm
  | nodeInfo place => exact absurd rfl (hi place)
  | logger name as? => exact agree_theNamespace_bind hp fun _ _ => agree_logger h name as?
  | root as? =>
    exact agree_theNamespace_bind hp fun _ _ => agree_newHandle hp hl hu.tended hp.tree.root as?
  | parent name as? => exact agree_parent h name as?
  | clone name as? =>
    apply agree_need_bind name hp.client.handles h
    intro i _
    exact agree_keepHandle hp hl h id as? i
  | dropHandle name =>
    have hcd : ({ s.client with handles := s.client.handles.erase name } : Client).Alike
        { u.client with handles := u.client.handles.erase name } :=
      { hp.client with handles := congrArg (Dict.erase · name) hp.client.handles }
    have hheld := congrArg (fun d => Answer.flag (d.contains name)) hp.client.handles
    exact .ok ⟨hheld, rest_modifyClient hp hl hcd rfl rfl rfl⟩
  | sameNode name other => exact agree_sameNode h name other
  | describeHandle name => exact agree_describeHandle h name
  | setLevel name level? =>
    apply agree_nodeAt_bind hp h name
    intro i _
    exact .ok ⟨rfl, rest_setLevel hp hl hs hu (hp.pair_nodeOf i) level?⟩
  | setNodeLevel place level? =>
    cases place with
    | node => cases hb
    | handle name =>
      apply agree_nodeAt_bind hp h name
      intro i _
      exact .ok ⟨rfl, rest_setLevel hp hl hs hu (hp.pair_nodeOf i) level?⟩
  | level name => exact agree_read h name fun a b hab => congrArg Answer.level? hab.level
  | effective name =>
    exact agree_read h name fun a b hab => congrArg Answer.number hab.effective
  | isEnabled name level =>
    apply agree_read h name
    intro a b hab
    simp [Node.isEnabled, hab.effective]
  | filter name =>
    exact agree_read h name fun a b hab =>
      congrArg (fun f? : Option NodeFilter => Answer.text? (f?.map Filter.describe)) hab.filter
  | setFilter name spec? => exact agree_setFilter h name hb
  | setUseParentFilters name value =>
    exact agree_setFlag h name (Node.adjusts_parentFilters value)
      (fun a b hab => { hab with parentFilters := rfl }) fun a b hab => hab.parentFilters
  | setUseParentSinks name value =>
    exact agree_setFlag h name (Node.adjusts_parentSinks value)
      (fun a b hab => { hab with parentSinks := rfl }) fun a b hab => hab.parentSinks
  | reset name =>
    apply agree_nodeAt_bind hp h name
    intro i _
    exact .ok ⟨rfl, rest_settle (hp.reset (hp.pair_nodeOf i)) hl⟩
  | resetNode place =>
    cases place with
    | node => cases hb
    | handle name =>
      apply agree_nodeAt_bind hp h name
      intro i _
      exact .ok ⟨rfl, rest_settle (hp.reset (hp.pair_nodeOf i)) hl⟩
  | newSink name sink => exact agree_newSink h name hb
  | dropSink name => exact agree_dropSink h name
  | addSink name sink => exact agree_addSink h name sink
  | removeSink name sink => exact agree_removeSink h name sink
  | setSinks name sinks save? => exact agree_setSinks h name sinks save?
  | clearSinks name save? => exact agree_clearSinks h name save?
  | sinks name save? => exact agree_sinks h name save?
  | newKey key name =>
    have hcd : ({ s.client with
          keys := s.client.keys.insert key ⟨s.client.keyCount, name⟩
          keyCount := s.client.keyCount + 1 } : Client).Alike
        { u.client with
          keys := u.client.keys.insert key ⟨u.client.keyCount, name⟩
          keyCount := u.client.keyCount + 1 } := by
      rw [hp.client.keys, hp.client.keyCount]
      exact { hp.client with keys := rfl, keyCount := rfl }
    exact .ok ⟨rfl, rest_modifyClient hp hl hcd rfl rfl rfl⟩
  | describeKey key => exact agree_need_bind key hp.client.keys h fun _ _ => .ok ⟨rfl, h⟩
  | attach name key value =>
    exact agree_need_bind key hp.client.keys h fun _ _ => agree_changeAttachments h name _
  | attachIfAbsent name key value =>
    exact agree_need_bind key hp.client.keys h fun _ _ => agree_changeAttachments h name _
  | detach name key =>
    exact agree_need_bind key hp.client.keys h fun _ _ => agree_changeAttachments h name _
  | attachment name key =>
    apply agree_need_bind key hp.client.keys h
    intro k _
    exact agree_read h name fun a b hab =>
      congrArg (fun att : Attachments => Answer.value? (att.get? k)) hab.attachments
  | log name level message =>
    refine agree_need_bind name hp.client.handles h fun i _ => Agree.bind_same ?_ fun _ _ _ h =>
      .ok ⟨rfl, h⟩
    exact (echoes_log hcalls hp hs hu i level message).agree h
  | logLazily name level message =>
    refine agree_need_bind name hp.client.handles h fun i _ => Agree.bind_same ?_ fun _ _ _ h =>
      .ok ⟨rfl, h⟩
    exact (echoes_logLazily hcalls hp hs hu i level _).agree h
  | logRecord name r =>
    refine agree_need_bind name hp.client.handles h fun i _ => Agree.bind_same ?_ fun _ _ _ h =>
      .ok ⟨rfl, h⟩
    exact (echoes_logRecord hcalls hp hs hu i r).agree h
  | publish name r =>
    refine agree_nodeAt_bind hp h name fun i _ => Agree.bind_same ?_ fun _ _ _ h => .ok ⟨rfl, h⟩
    exact (echoes_publish hcalls hp hs hu (hp.pair_nodeOf i) r).agree h
  | isLoggable name r =>
    refine agree_nodeAt_bind hp h name fun i _ => Agree.bind_same ?_ fun _ _ _ h => .ok ⟨rfl, h⟩
    exact (echoes_isLoggable hcalls hp hs hu (hp.pair_nodeOf i) r).agree h
  | flush name =>
    refine agree_nodeAt_bind hp h name fun i _ => Agree.bind_same ?_ fun _ _ _ h => .ok ⟨rfl, h⟩
    exact (echoes_flush hcalls hp hs hu (hp.pair_nodeOf i)).agree h
  | registerLevel level => exact agree_registerLevel h level
  | holdLevel name level => exact agree_holdLevel h name level
  | releaseLevel name => exact agree_releaseLevel h name
  | unregisterLevel name => exact agree_unregisterLevel h name
  | levelForName name => exact agree_levelForName h name
  | levelNames => exact agree_levelNames h
  | registerFilter name spec => exact agree_registerFilter h name hb
  | unregisterFilter name => exact agree_unregisterFilter h name
  | namedFilter name => exact agree_theNamespace_bind hp fun _ _ => .ok ⟨rfl, h⟩
  | keepFilter name spec => exact agree_keepFilter h name hb
  | evaluateFilter name r =>
    refine agree_need_bind name hp.client.filters h fun f hf => Agree.bind_same ?_ fun _ _ _ h =>
      .ok ⟨rfl, h⟩
    exact (detached_evaluate hcalls f (hp.left.held name f hf) r).echoes.agree h
  | liveNames => exact agree_liveNames h
  | reclaim =>
    refine agree_theNamespace_bind hp fun _ _ => (agree_reclaim_rest h).bind_same fun _ _ _ h => ?_
    exact agree_pure h
  | resetMetrics => exact agree_resetMetrics h
  | addHook actions => exact agree_addHook h hb
  | close =>
    apply (agree_close hcalls h).bind_same
    intro _ s u h
    obtain ⟨P', hp', -⟩ := id h
    have hflag := congrArg (fun scope? : Option Namespace => Answer.flag (scope?.any (·.closed)))
      hp'.scope
    exact .ok ⟨hflag, h⟩
  | isClosed => exact agree_theNamespace_bind hp fun _ _ => .ok ⟨rfl, h⟩

/-- The answers to a blind step differ in these counts at most. -/
theorem Step.agree_shown [Pattern.Engine] (hcalls : CallsDetached calls) (h : Rest l s u)
    (step : Step) (hb : step.isBlind) :
    Agree (Rest l) (fun a b s u => a.withoutCounts = b.withoutCounts ∧ Rest l s u)
      ((step.take calls).run s) ((step.take calls).run u) := by
  obtain ⟨P, hp, -⟩ := id h
  by_cases hm : step = .metrics
  · subst hm
    exact .ok ⟨congrArg Answer.metrics hp.metrics, h⟩
  by_cases hi : ∃ name, step = .nodeInfo (.handle name)
  · obtain ⟨name, rfl⟩ := hi
    apply agree_nodeAt_bind hp h name
    intro i _
    exact .ok ⟨congrArg Answer.node (nodeInfo_eq hp (hp.pair_nodeOf i)), h⟩
  refine (step.agree_take hcalls h hb hm fun place hplace => ?_).mono id fun hab =>
    ⟨congrArg Answer.withoutCounts hab.1, hab.2⟩
  cases place with
  | handle name => exact hi ⟨name, hplace⟩
  | node name =>
    subst hplace
    cases hb

namespace Session

/-! ### Steps in two sessions -/

/-- What comes of a blind step is the same, and so is what comes of the steps after it. -/
theorem step_agree [Pattern.Engine] (hcalls : CallsDetached calls) (h : Rest l s u) (step : Step)
    (hb : step.isBlind) :
    (s.step calls step).1.withoutCounts = (u.step calls step).1.withoutCounts ∧
      Rest l (s.step calls step).2 (u.step calls step).2 := by
  have hclear : ∀ {x y}, Rest l x y → Rest l { x with journal := [] } { y with journal := [] } := by
    intro x y hxy
    obtain ⟨P, hp, -⟩ := id hxy
    exact rest_of_aside hxy ⟨[], x.metrics, y.metrics, rfl, rfl, hp.metrics⟩
  have htake := step.agree_shown hcalls (hclear h) hb
  rw [Session.step, Session.step]
  generalize (step.take calls).run { s with journal := [] } = p,
    (step.take calls).run { u with journal := [] } = q at htake
  have hjournal : ∀ {x y}, Rest l x y → x.journal = y.journal := by
    rintro x y ⟨P, hp, -⟩
    exact hp.journal
  cases htake with
  | ok hab =>
    refine ⟨?_, hclear hab.2⟩
    exact congrArg₂ Report.mk (congrArg Except.ok hab.1) (hjournal hab.2)
  | error he =>
    refine ⟨?_, hclear he⟩
    exact congrArg (Report.mk _) (hjournal he)

theorem steps_agree [Pattern.Engine] (hcalls : CallsDetached calls) (h : Rest l s u)
    (steps : List Step) (hb : steps.all Step.isBlind) :
    (s.steps calls steps).1.map Report.withoutCounts =
      (u.steps calls steps).1.map Report.withoutCounts := by
  induction steps generalizing s u with
  | nil => rfl
  | cons step steps ih =>
    rw [List.all_cons, Bool.and_eq_true] at hb
    obtain ⟨hstep, hrest⟩ := step_agree hcalls h step hb.1
    exact congrArg₂ List.cons hstep (ih hrest hb.2)

/-! ### New sessions -/

variable {baseline : Level} {levels : List Level} {filters : List (String × NodeFilter)}

lemma tame_new (strong : Bool) (hf : ∀ f ∈ filters, f.2.Quiet) :
    (new strong baseline levels filters).Tame where
  named ns id f hns hid := by
    cases hns
    exact hf (id, f) (Dict.mem_of_get?_ofList hid)
  held id f hid := nomatch hid
  sound := sound_new strong baseline levels filters
  present := rfl
  node n f hn := by
    have hnone : ((Tree.new baseline.severity strong).node n).filter? = none :=
      Tree.field_new Node.filter? _ strong n rfl
    cases hnone.symm.trans hn
  sink k b hk := nomatch hk
  hook ns hns k hk := by
    cases hns
    cases hk

lemma rest_new (hf : ∀ f ∈ filters, f.2.Quiet) :
    Rest [] (new false baseline levels filters) (new true baseline levels filters) := by
  refine ⟨.roots, ?_, rfl, settled_new false baseline levels filters,
    settled_new true baseline levels filters⟩
  exact
    { tree := Pairing.fits_new baseline.severity false true
      handles := fun _ => .none
      nextHandle := rfl
      nextSink := rfl
      sinks := fun _ _ => rfl
      notices := .nil
      metrics := rfl
      scope := rfl
      client := ⟨rfl, rfl, rfl, rfl, rfl, rfl, rfl, rfl⟩
      inUse := rfl
      journal := rfl
      left := tame_new false hf
      right := tame_new true hf
      strong := rfl }

/-- Whether nodes are kept for good or only while they are needed makes no difference to a client
that does not ask which nodes there are, however long it goes on and in whatever order it takes its
steps. What filters, sinks and hooks do must not use the tree. -/
theorem steps_retention [Pattern.Engine] (depth : Nat) (baseline : Level) (levels : List Level)
    (filters : List (String × NodeFilter)) (hf : ∀ f ∈ filters, f.2.Quiet) (steps : List Step)
    (hb : steps.all Step.isBlind) :
    ((new false baseline levels filters).steps (Calls.within depth) steps).1.map
        Report.withoutCounts =
      ((new true baseline levels filters).steps (Calls.within depth) steps).1.map
        Report.withoutCounts := by
  have hcalls : CallsDetached (Calls.within depth) := callsDetached_within depth
  have hstart : Rest [] (new false baseline levels filters) (new true baseline levels filters) :=
    rest_new hf
  exact steps_agree hcalls hstart steps hb

open scoped Pattern.Searching in
/-- A logger that was pruned in one of the namespaces, and is looked up again in part. -/
theorem steps_retention_dropped :
    (∀ f ∈ ([("quiet", .levelChange .info)] : List (String × NodeFilter)), f.2.Quiet) ∧
      [Step.logger "a.b" (some "h"), .dropHandle "h", .reclaim, .logger "a" (some "k"),
        .nodeInfo (.handle "k"), .metrics].all Step.isBlind ∧
      ((new false .info [] [("quiet", .levelChange .info)]).steps (Calls.within 1)
          [.logger "a.b" (some "h"), .dropHandle "h", .reclaim, .logger "a" (some "k"),
            .nodeInfo (.handle "k"), .metrics]).1.map Report.withoutCounts =
        ((new true .info [] [("quiet", .levelChange .info)]).steps (Calls.within 1)
          [.logger "a.b" (some "h"), .dropHandle "h", .reclaim, .logger "a" (some "k"),
            .nodeInfo (.handle "k"), .metrics]).1.map Report.withoutCounts := by
  have hf : ∀ f ∈ ([("quiet", .levelChange .info)] : List (String × NodeFilter)), f.2.Quiet := by
    intro f hf
    obtain rfl := List.mem_singleton.1 hf
    exact Filter.quiet_of_predicates_eq_nil rfl
  exact ⟨hf, rfl, steps_retention 1 .info [] _ hf _ rfl⟩

open scoped Pattern.Searching in
example :
    ((new false .info [] []).steps (Calls.within 1)
      [.logger "a.b" (some "h"), .dropHandle "h", .reclaim]).2.metrics.nodesPruned = 2 ∧
    ((new true .info [] []).steps (Calls.within 1)
      [.logger "a.b" (some "h"), .dropHandle "h", .reclaim]).2.metrics.nodesPruned = 0 := by
  decide +kernel

end Session

end Logging
