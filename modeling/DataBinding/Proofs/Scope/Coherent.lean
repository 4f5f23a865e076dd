import DataBinding.Proofs.Scope.Run
import Mathlib

/-!
# The index is kept by every call

A tree is coherent when its arena is sound, its index is right and every target is there. That is
so of a new tree, and no call of any kind changes it.

* `Coherent.remove`, `Coherent.change`: one change.
* `Run.coherent`: a run.
* `Run.indexExact`: what the observers and the contexts say of each other after a run.
-/

namespace DataBinding.Scope

variable {t u : Tree}

/-- The arena is sound, the index is right and every target is there. -/
structure Coherent (t : Tree) : Prop where
  sound : t.nodes.Sound
  indexed : Indexed t
  backed : Backed t

theorem coherent_new (globalId : String) (value : Value) (registry : Registry) :
    Coherent (Tree.new globalId value registry) :=
  ⟨Arena.sound_empty, indexed_new .., backed_new globalId value registry⟩

namespace Coherent

/-- No observer waits in the list of a context that is not there. -/
theorem listeners_of_gone (h : Coherent t) {T : Target} (hT : t.slot? T = none) :
    t.listeners T = [] := by
  refine List.eq_nil_iff_forall_not_mem.mpr fun id hid => ?_
  obtain ⟨w, hw, -, hwT⟩ := Tree.mem_listeners.mp hid
  have := h.backed w hw T hwT
  rw [hT] at this
  cases this

/-- A change of the nodes keeps coherence if it keeps every slot and its list, and if the slots that
are new have an empty one. -/
theorem of_slots (h : Coherent t) (hs : u.nodes.Sound) (hid : u.globalId = t.globalId)
    (hws : u.watches = t.watches) (hreg : u.registered = t.registered)
    (hold : ∀ {T}, T.Proper t.globalId → (t.slot? T).isSome = true → (u.slot? T).isSome = true)
    (hnew : ∀ {T s}, T.Proper t.globalId → u.slot? T = some s →
      (∃ s', t.slot? T = some s' ∧ s.observers = s'.observers) ∨
        t.slot? T = none ∧ s.observers = []) : Coherent u where
  sound := hs
  indexed := by
    refine h.indexed.of_sublist (hws ▸ List.Sublist.refl _) hreg hid fun {T s} hT hs => ?_
    have hlist : u.listeners T = t.listeners T := by
      unfold Tree.listeners
      rw [hws]
    rw [hlist]
    obtain ⟨s', hs', he⟩ | ⟨hgone, he⟩ := hnew hT hs
    · rw [he, h.indexed.observers hT hs']
    · rw [he, h.listeners_of_gone hgone]
  backed w hw T hT := by
    rw [hws] at hw
    exact hold (h.indexed.proper w hw T hT) (h.backed w hw T hT)

/-- A change of the nodes that no slot sees. -/
theorem of_slot?_eq (h : Coherent t) (hs : u.nodes.Sound) (hid : u.globalId = t.globalId)
    (hws : u.watches = t.watches) (hreg : u.registered = t.registered)
    (hslot : ∀ T, u.slot? T = t.slot? T) : Coherent u :=
  h.of_slots hs hid hws hreg (fun {T} _ hT => by rw [hslot T]; exact hT)
    fun {T s} _ hT => Or.inl ⟨s, by rw [← hslot T]; exact hT, rfl⟩

end Coherent

/-! ## Slots after a change of nodes -/

namespace Tree

theorem slot?_modifyNode {f : Node → Node} (hf : ∀ n, (f n).contexts = n.contexts) (t : Tree)
    (x : NodeId) (T : Target) : (t.modifyNode x f).slot? T = t.slot? T := by
  obtain ⟨owner, c⟩ := T
  cases owner with
  | global => rfl
  | node y =>
    have hget : (t.modifyNode x f).node? y =
      if y = x then (t.node? x).map f else t.node? y := Arena.get?_modify _ _ _ _
    simp only [slot?, hget]
    by_cases hy : y = x
    · subst hy
      rw [if_pos rfl]
      cases t.node? y with
      | none => rfl
      | some n => simp only [Option.map_some, Option.bind_some, hf]
    · rw [if_neg hy]

theorem node?_addNode (hs : t.nodes.Sound) {parent : Option NodeId}
    (hlt : (t.addNode parent).nodes.cells.length < UInt32.size) (x : NodeId) :
    (t.addNode parent).node? x =
      if x = t.nodes.nextId then some { parent } else t.node? x :=
  Arena.get?_alloc hs { parent } (Nat.le_of_lt hlt) x

theorem node?_nextId (hs : t.nodes.Sound) (hlt : t.nodes.cells.length < UInt32.size) :
    t.node? t.nodes.nextId = none :=
  Arena.get?_nextId hs hlt

theorem slot?_addNode (hs : t.nodes.Sound) {parent : Option NodeId}
    (hlt : (t.addNode parent).nodes.cells.length < UInt32.size) (T : Target) :
    (t.addNode parent).slot? T = t.slot? T := by
  obtain ⟨owner, c⟩ := T
  cases owner with
  | global => rfl
  | node x =>
    have hold := (grows_addNode t parent).cells_lt hlt
    simp only [slot?, node?_addNode hs hlt]
    by_cases hx : x = t.nodes.nextId
    · rw [if_pos hx, hx, node?_nextId hs hold]
      rfl
    · rw [if_neg hx]

theorem slot?_addLeaf (hs : t.nodes.Sound) {p : NodeId}
    (hlt : (t.addLeaf p).nodes.cells.length < UInt32.size) (T : Target) :
    (t.addLeaf p).slot? T = t.slot? T :=
  have hf : ∀ n : Node, ({ n with children := n.children ++ [t.nodes.nextId] } : Node).contexts =
      n.contexts := fun _ => rfl
  (slot?_modifyNode hf (t.addNode (some p)) p T).trans
    (slot?_addNode hs ((grows_addLeaf t p).cells_lt hlt) T)

theorem slot?_addScope (hs : t.nodes.Sound) {m : NodeId} {parent : Option NodeId}
    (hlt : (t.addScope m parent).nodes.cells.length < UInt32.size) (T : Target) :
    (t.addScope m parent).slot? T = t.slot? T :=
  have hf : ∀ n : Node, ({ n with implicit := some t.nodes.nextId } : Node).contexts =
      n.contexts := fun _ => rfl
  (slot?_modifyNode hf (t.addNode parent) m T).trans
    (slot?_addNode hs ((grows_addScope t m parent).cells_lt hlt) T)

theorem slot?_dropScope (t : Tree) (m : NodeId) (T : Target) :
    (t.dropScope m).slot? T = t.slot? T :=
  have hf : ∀ n : Node, ({ n with implicit := none } : Node).contexts = n.contexts := fun _ => rfl
  slot?_modifyNode hf t m T

theorem slot?_unlink (t : Tree) (x : NodeId) (T : Target) : (t.unlink x).slot? T = t.slot? T := by
  obtain ⟨-, h⟩ | ⟨p, -, h⟩ := t.unlink_cases x <;> rw [h]
  have hf : ∀ n : Node, ({ n with children := n.children.filter (· != x) } : Node).contexts =
      n.contexts := fun _ => rfl
  exact slot?_modifyNode hf t p T

theorem sound_unlink (h : t.nodes.Sound) (x : NodeId) : (t.unlink x).nodes.Sound := by
  obtain ⟨-, hu⟩ | ⟨p, -, hu⟩ := t.unlink_cases x <;> rw [hu]
  · exact h
  · exact h.modify ..

/-- A context goes away exactly when its node does. -/
theorem slot?_cut (t : Tree) (x : NodeId) (T : Target) :
    (t.cut x).slot? T = if ∃ y ∈ t.removed x, T.owner = .node y then none else t.slot? T := by
  rw [← t.slot?_unlink x T]
  obtain ⟨owner, c⟩ := T
  cases owner with
  | global => simp [slot?, cut]
  | node y =>
    have hget : (t.cut x).node? y = if y ∈ t.removed x then none else (t.unlink x).node? y :=
      get?_dismantle ..
    have hex : (∃ z ∈ t.removed x, Owner.node y = .node z) ↔ y ∈ t.removed x := by simp
    simp only [slot?, hget, hex]
    split <;> rfl

theorem slot?_addContext (t : Tree) (x : NodeId) (c : String) (value : Value) (T : Target) :
    (t.addContext x c value).slot? T =
      if T = ⟨.node x, c⟩ ∧ t.contains x = true then some ⟨value, []⟩ else t.slot? T := by
  obtain ⟨owner, d⟩ := T
  cases owner with
  | global => simp [slot?, addContext, modifyNode]
  | node y =>
    have hget : (t.addContext x c value).node? y = if y = x
        then (t.node? x).map fun n => { n with contexts := n.contexts.insert c ⟨value, []⟩ }
        else t.node? y := Arena.get?_modify _ _ _ _
    simp only [slot?, hget, contains]
    by_cases hy : y = x
    · subst hy
      rw [if_pos rfl]
      cases t.node? y with
      | none => simp
      | some n =>
        by_cases hd : d = c
        · simp [hd]
        · simp [hd, Entries.get?_insert_of_ne]
    · simp [hy]

theorem slot?_write {T T' : Target} (hT : T.Proper t.globalId) (hT' : T'.Proper t.globalId)
    (f : Value → Value) :
    (t.write T f).slot? T' =
      if T' = T then (t.slot? T').map fun s => { s with value := f s.value } else t.slot? T' :=
  slot?_modifySlot hT hT' _

end Tree

/-! ## One change -/

namespace Coherent

theorem modifyNode (h : Coherent t) (x : NodeId) {f : Node → Node}
    (hf : ∀ n, (f n).contexts = n.contexts) : Coherent (t.modifyNode x f) :=
  h.of_slot?_eq (h.sound.modify ..) rfl rfl rfl (Tree.slot?_modifyNode hf t x)

theorem dropScope (h : Coherent t) (m : NodeId) : Coherent (t.dropScope m) :=
  have hf : ∀ n : Node, ({ n with implicit := none } : Node).contexts = n.contexts := fun _ => rfl
  h.modifyNode m hf

theorem addNode (h : Coherent t) {parent : Option NodeId}
    (hlt : (t.addNode parent).nodes.cells.length < UInt32.size) : Coherent (t.addNode parent) :=
  h.of_slot?_eq (h.sound.alloc _ (Nat.le_of_lt hlt)) rfl rfl rfl (Tree.slot?_addNode h.sound hlt)

theorem write (h : Coherent t) {T : Target} (hT : T.Proper t.globalId) (f : Value → Value) :
    Coherent (t.write T f) := by
  refine h.of_slots ?_ (Tree.globalId_modifySlot ..) (Tree.watches_modifySlot ..)
    (Tree.registered_modifySlot ..) (fun {T'} hT' hlive => ?_) fun {T' s} hT' hs => Or.inl ?_
  · unfold Tree.write Tree.modifySlot
    split
    · exact h.sound
    · exact h.sound.modify ..
  · rw [Tree.slot?_write hT hT']
    split
    · rwa [Option.isSome_map]
    · exact hlive
  · rw [Tree.slot?_write hT hT'] at hs
    split at hs
    · obtain ⟨s', hs', rfl⟩ := Option.map_eq_some_iff.mp hs
      exact ⟨s', hs', rfl⟩
    · exact ⟨s, hs, rfl⟩

theorem addContext (h : Coherent t) {x : NodeId} {c : String} (hgone : t.slot? ⟨.node x, c⟩ = none)
    (value : Value) : Coherent (t.addContext x c value) := by
  refine h.of_slots (h.sound.modify ..) rfl rfl rfl (fun {T} _ hlive => ?_) fun {T s} _ hs => ?_
  · rw [Tree.slot?_addContext]
    split
    · rfl
    · exact hlive
  · rw [Tree.slot?_addContext] at hs
    split at hs
    · rename_i hT
      obtain rfl := Option.some.inj hs
      rw [hT.1]
      exact Or.inr ⟨hgone, rfl⟩
    · exact Or.inl ⟨s, hs, rfl⟩

theorem rebindWhere (h : Coherent t) (affected : Watch → Bool) :
    Coherent (t.rebindWhere affected).1 where
  sound := (alike_rebindWhere t affected).sound h.sound
  indexed := h.indexed.rebindWhere affected
  backed := backed_rebindWhere h.indexed fun w hw _ => h.backed w hw

theorem register (h : Coherent t) (x : NodeId) {cs : List String} (hcs : cs.Nodup)
    (subject : Subject) : Coherent (t.register x cs subject) where
  sound := (alike_register t x cs subject).sound h.sound
  indexed := h.indexed.register x hcs subject
  backed w hw T hT := by
    rw [(alike_register t x cs subject).slot?_isSome]
    rw [t.watches_register, List.mem_append, List.mem_singleton] at hw
    rcases hw with hw | rfl
    · exact h.backed w hw T hT
    · exact Tree.slot?_of_owner? (Tree.mem_resolve.mp hT).2

theorem unsubscribe (h : Coherent t) (id : ObserverId) : Coherent (t.unsubscribe id) where
  sound := (alike_unsubscribe t id).sound h.sound
  indexed := h.indexed.unsubscribe id
  backed w hw T hT := by
    rw [(alike_unsubscribe t id).slot?_isSome]
    rw [t.watches_unsubscribe] at hw
    exact h.backed w (List.mem_of_mem_filter hw) T hT

end Coherent

/-! ## Removal -/

namespace Tree

theorem targetsAny_iff {removed : List NodeId} {w : Watch} :
    targetsAny removed w = true ↔ ∃ T ∈ w.targets, ∃ y ∈ removed, T.owner = .node y := by
  unfold targetsAny
  rw [List.any_eq_true]
  refine exists_congr fun T => and_congr_right fun _ => ?_
  cases hT : T.owner with
  | global => simp
  | node y => simp

@[simp] theorem watches_unlink (t : Tree) (x : NodeId) : (t.unlink x).watches = t.watches := by
  obtain ⟨-, h⟩ | ⟨p, -, h⟩ := t.unlink_cases x <;> rw [h]
  rfl

@[simp] theorem registered_unlink (t : Tree) (x : NodeId) :
    (t.unlink x).registered = t.registered := by
  obtain ⟨-, h⟩ | ⟨p, -, h⟩ := t.unlink_cases x <;> rw [h]
  rfl

theorem watches_without (t : Tree) (x : NodeId) :
    (t.without x).watches = t.watches.filter (·.subscriber ∉ t.removed x) :=
  congrArg (List.filter _) (t.watches_unlink x)

theorem isSome_slot?_without (t : Tree) (x : NodeId) (T : Target) :
    ((t.without x).slot? T).isSome = true ↔
      (¬ ∃ y ∈ t.removed x, T.owner = .node y) ∧ (t.slot? T).isSome = true := by
  unfold without
  rw [(alike_dropWatches _ _).slot?_isSome, slot?_cut]
  split
  · rename_i hgone
    simp [hgone]
  · rename_i hstay
    simp [hstay]

end Tree

namespace Coherent

theorem sound_without (h : Coherent t) (x : NodeId) : (t.without x).nodes.Sound :=
  (alike_dropWatches (t.cut x) _).sound
    ((releases_dismantle (t.unlink x).nodes [x]).sound (Tree.sound_unlink h.sound x))

theorem indexed_without (h : Coherent t) (x : NodeId) : Indexed (t.without x) := by
  have hcut : Indexed (t.cut x) := by
    refine h.indexed.of_sublist ?_ (t.registered_unlink x) (t.globalId_unlink x)
      fun {T s} hT hs => ?_
    · exact (t.watches_unlink x) ▸ List.Sublist.refl _
    · rw [Tree.slot?_cut] at hs
      simp only [Tree.listeners, Tree.cut, Tree.watches_unlink]
      split at hs
      · cases hs
      · exact h.indexed.observers hT hs
  exact hcut.dropWatches _

theorem remove (h : Coherent t) (x : NodeId) : Coherent (t.remove x).tree := by
  obtain hr | ⟨-, -, hr⟩ := t.remove_cases x <;> rw [hr]
  · exact h
  · refine ⟨(alike_rebindWhere _ _).sound (h.sound_without x), (h.indexed_without x).rebindWhere _,
      backed_rebindWhere (h.indexed_without x) fun w hw ha T hT => ?_⟩
    rw [t.watches_without] at hw
    refine (t.isSome_slot?_without x T).mpr ⟨?_, h.backed w (List.mem_of_mem_filter hw) T hT⟩
    exact fun hy => ha (Tree.targetsAny_iff.mpr ⟨T, hT, hy⟩)

theorem addScope (h : Coherent t) (m : NodeId) {parent : Option NodeId}
    (hlt : (t.addScope m parent).nodes.cells.length < UInt32.size) :
    Coherent (t.addScope m parent) :=
  (h.addNode ((grows_addScope ..).cells_lt hlt)).modifyNode m fun _ => rfl

/-- **Every change keeps the index.** -/
theorem change (h : Coherent t) {spared : Prop} (hc : Change spared t u)
    (hlt : u.nodes.cells.length < UInt32.size) : Coherent u := by
  cases hc with
  | addRoot => exact h.addNode hlt
  | addLeaf _ =>
    exact (h.addNode ((grows_addLeaf ..).cells_lt hlt)).modifyNode _ fun _ => rfl
  | addScope _ _ => exact h.addScope _ hlt
  | write f hT _ => exact h.write hT f
  | addContext value _ _ hgone => exact (h.addContext hgone value).rebindWhere _
  | remove _ _ => exact h.remove _
  | clearScope _ _ => exact (h.dropScope _).remove _
  | dropScope _ => exact h.dropScope _
  | register x subject _ hcs => exact h.register x hcs subject
  | unsubscribe id => exact h.unsubscribe id

theorem call (h : Coherent t) (c : Call)
    (hlt : (t.call c).tree.nodes.cells.length < UInt32.size) : Coherent (t.call c).tree :=
  Tree.call_induction h hlt fun hc hlt h => h.change hc hlt

end Coherent

/-- **The index is right after every run.** -/
theorem Run.coherent {allowed : Tree → Call → Prop} {log : List Exchange} {globalId : String}
    {value : Value} {registry : Registry} (h : Run allowed (.new globalId value registry) log t)
    (hlt : t.nodes.cells.length < UInt32.size) : Coherent t :=
  h.keeps_tree hlt (coherent_new globalId value registry) fun _ hc hlt h => h.change hc hlt

/-! ## What observers and contexts say of each other -/

/-- The context is there: the global one under its name, or one that a node holds. -/
def Tree.Has (t : Tree) (target : Target) : Prop :=
  match target.owner with
  | .global => target.context = t.globalId
  | .node x => t.contains x = true ∧ t.holds target.context x = true

theorem Tree.has_iff {T : Target} :
    t.Has T ↔ T.Proper t.globalId ∧ (t.slot? T).isSome = true := by
  obtain ⟨owner, c⟩ := T
  cases owner with
  | global => exact ⟨fun h => ⟨fun _ => h, rfl⟩, fun h => h.1 rfl⟩
  | node x =>
    simp only [Has, slot?, holds_eq, contains]
    cases t.node? x with
    | none => simp
    | some n => exact ⟨fun h => ⟨Target.proper_node, h.2⟩, fun h => ⟨rfl, h.2⟩⟩

/-- Observers target what is there, a context lists exactly the observers that target it, in the
order of their registration, and no observer watches or targets a context twice. -/
structure IndexExact (t : Tree) : Prop where
  targets : ∀ w ∈ t.watches, ∀ T ∈ w.targets, t.Has T
  observers : ∀ T, t.Has T → ∃ s, t.slot? T = some s ∧ s.observers.Pairwise (· < ·) ∧
    ∀ id, id ∈ s.observers ↔ ∃ w, t.watch? id = some w ∧ T ∈ w.targets
  distinct : ∀ w ∈ t.watches, w.contexts.Nodup ∧ w.targets.Nodup

theorem Coherent.toIndexExact (h : Coherent t) : IndexExact t where
  targets w hw T hT := Tree.has_iff.mpr ⟨h.indexed.proper w hw T hT, h.backed w hw T hT⟩
  observers T hT := by
    obtain ⟨hp, hs⟩ := Tree.has_iff.mp hT
    obtain ⟨s, hs⟩ := Option.isSome_iff_exists.mp hs
    refine ⟨s, hs, ?_, fun id => ?_⟩
    · rw [h.indexed.observers hp hs]
      exact h.indexed.pairwise_listeners T
    · rw [h.indexed.observers hp hs, Tree.mem_listeners]
      simp only [h.indexed.watch?_eq_some_iff, and_assoc]
  distinct w hw := ⟨h.indexed.distinct w hw, h.indexed.nodup_targets hw⟩

/-- **The index of observers is exact** after every run, one that removed implicit scopes by their
identities included. -/
theorem Run.indexExact {log : List Exchange} {globalId : String} {value : Value}
    {registry : Registry} (h : Run AnyCall (.new globalId value registry) log t)
    (hlt : t.nodes.cells.length < UInt32.size) : IndexExact t :=
  (h.coherent hlt).toIndexExact

/-- For instance where an observer watches a context whose implicit scope was removed. -/
theorem Run.indexExact_of_removed_scope :
    let t := ((Tree.new "global" .null .empty).calls
      [.addRoot, .addChild ⟨0, 0⟩, .set ⟨0, 0⟩ "a" .null, .setImplicit ⟨1, 0⟩ "b" .null,
        .observe ⟨1, 0⟩ (.single (.call "sum" [.binding ⟨"a", []⟩, .binding ⟨"b", []⟩])),
        .remove ⟨2, 0⟩]).2
    t.nodes.cells.length < UInt32.size ∧ IndexExact t := by
  refine ⟨by cbv, ?_⟩
  exact Run.indexExact (Run.of_calls fun _ _ _ => trivial) (by cbv)

end DataBinding.Scope
