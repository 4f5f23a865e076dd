import DataBinding.Proofs.Scope.Subscriptions
import DataBinding.Proofs.Scope.Links

/-!
# Targets are fresh

Observers look again only when a context appears that they watch or a node goes where they had a
target. That is enough: whatever else is done to a tree leaves what they find as it was, as long as
implicit scopes go away through their nodes only.

* `owner?_addRoot`, `owner?_addLeaf`, `owner?_addScope`, `owner?_write`, `owner?_addContext`,
  `owner?_cut`: lookups after a change.
* `Fresh.change`: every change keeps targets fresh.
* `Run.targets_eq`: the targets of an observer after a run.
-/

namespace DataBinding.Scope

variable {t u : Tree}

/-! ## Lookups after a change -/

/-- Lookups from nodes that are there depend only on their links and on which of them hold the
context. -/
theorem Tidy.owner?_of_live (h : Tidy t) (hid : u.globalId = t.globalId) {c : String}
    (hlive : ∀ x, t.nodes.contains x = true → u.nodes.contains x = true)
    (hparent : ∀ x, t.nodes.contains x = true → parentOf u.nodes x = parentOf t.nodes x)
    (hscope : ∀ x, t.nodes.contains x = true → scopeOf u.nodes x = scopeOf t.nodes x)
    (hholds : ∀ x, t.nodes.contains x = true → u.holds c x = t.holds c x) {x : NodeId}
    (hx : t.nodes.contains x = true) : u.owner? x c = t.owner? x c :=
  Tree.owner?_of_agree (P := fun x => t.nodes.contains x = true) h.forest hid
    (fun x hx => ⟨hx, hlive x hx⟩) (fun x hx => ⟨hparent x hx, fun _ hp => h.forest.parent_live hp⟩)
    (fun x hx => ⟨hscope x hx, fun y hy => h.intact x y hy⟩) hholds hx

theorem holds_eq_isSome_slot? (t : Tree) (c : String) (x : NodeId) :
    t.holds c x = (t.slot? ⟨.node x, c⟩).isSome := by
  simp only [Tree.holds_eq, Tree.slot?]
  cases t.node? x <;> rfl

theorem holds_of_slot?_eq (h : ∀ T, u.slot? T = t.slot? T) (c : String) (x : NodeId) :
    u.holds c x = t.holds c x := by
  rw [holds_eq_isSome_slot?, holds_eq_isSome_slot?, h]

theorem parentOf_addNode_of_live (hs : t.nodes.Sound) {parent : Option NodeId}
    (hlt : (t.addNode parent).nodes.cells.length < UInt32.size) {x : NodeId}
    (hx : t.nodes.contains x = true) :
    parentOf (t.addNode parent).nodes x = parentOf t.nodes x := by
  refine (parentOf_alloc hs (Nat.le_of_lt hlt) x).trans (if_neg ?_)
  rintro rfl
  rw [Arena.contains, Arena.get?_nextId hs
    ((grows_addNode t parent).cells_lt hlt)] at hx
  cases hx

section Add

variable {x : NodeId} {c : String}

theorem Tidy.unnamed (h : Tidy t) (hlt : t.nodes.cells.length < UInt32.size) : Unnamed t.nodes :=
  h.intact.unnamed h.sound hlt

/-- A new root changes no lookup. -/
theorem owner?_addRoot (h : Tidy t) (hlt : (t.addNode none).nodes.cells.length < UInt32.size)
    (hx : t.nodes.contains x = true) : (t.addNode none).owner? x c = t.owner? x c := by
  exact h.owner?_of_live (u := t.addNode none) rfl
    (fun y hy => (contains_addNode h.sound hlt).mpr (Or.inr hy))
    (fun y hy => parentOf_addNode_of_live h.sound hlt hy)
    (fun y _ => scopeOf_addNode h.sound hlt y)
    (fun y _ => holds_of_slot?_eq (Tree.slot?_addNode h.sound hlt) c y) hx

/-- Nor does a new child. -/
theorem owner?_addLeaf (h : Tidy t) {p : NodeId}
    (hlt : (t.addLeaf p).nodes.cells.length < UInt32.size) (hx : t.nodes.contains x = true) :
    (t.addLeaf p).owner? x c = t.owner? x c := by
  have hlt' := (grows_addLeaf t p).cells_lt hlt
  refine h.owner?_of_live (u := t.addLeaf p) rfl
    (fun y hy => (contains_addLeaf h.sound hlt).mpr (Or.inr hy)) (fun y hy => ?_)
    (fun y _ => scopeOf_addLeaf h.sound hlt y)
    (fun y _ => holds_of_slot?_eq (Tree.slot?_addLeaf h.sound hlt) c y) hx
  exact (parentOf_modify (f := fun n => { n with children := n.children ++ [t.nodes.nextId] }) _ _
    (fun _ => rfl) y).trans (parentOf_addNode_of_live h.sound hlt' hy)

/-- A new implicit scope that its node lets go of again changes no lookup. -/
theorem owner?_dropScope_addScope (h : Tidy t) {m : NodeId} (hm : t.nodes.contains m = true)
    (hnone : ∀ i, scopeOf t.nodes m = some i → ¬ t.nodes.contains i = true)
    (hlt : (t.addScope m (parentOf t.nodes m)).nodes.cells.length < UInt32.size)
    (hx : t.nodes.contains x = true) :
    ((t.addScope m (parentOf t.nodes m)).dropScope m).owner? x c = t.owner? x c := by
  have hlt' := (grows_addScope ..).cells_lt hlt
  have hscope := scopeOf_addScope h.sound hm hlt
  refine h.owner?_of_live (u := (t.addScope m (parentOf t.nodes m)).dropScope m) rfl (fun y hy => ?_)
    (fun y hy => ?_) (fun y hy => ?_) (fun y _ => ?_) hx
  · rw [contains_dropScope]
    exact (contains_addScope h.sound hlt).mpr (Or.inr hy)
  · exact (parentOf_modify (f := fun n => { n with implicit := none }) _ _
      (fun _ => rfl) y).trans <|
      (parentOf_modify (f := fun n => { n with implicit := some t.nodes.nextId }) _ _
        (fun _ => rfl) y).trans (parentOf_addNode_of_live h.sound hlt' hy)
  · refine Option.ext fun i => scopeOf_dropScope.trans ?_
    rw [hscope]
    by_cases hym : y = m
    · rw [hym]
      exact ⟨fun hi => absurd rfl hi.1, fun hi => absurd (h.intact m i hi) (hnone i hi)⟩
    · rw [if_neg hym]
      exact and_iff_right hym
  · exact (Tree.holds_dropScope ..).trans
      (holds_of_slot?_eq (Tree.slot?_addScope h.sound hlt) c y)

/-- A new implicit scope holds nothing yet, so a lookup passes it. -/
theorem owner?_addScope (h : Tidy t) {m : NodeId} (hm : t.nodes.contains m = true)
    (hnone : ∀ i, scopeOf t.nodes m = some i → ¬ t.nodes.contains i = true)
    (hlt : (t.addScope m (parentOf t.nodes m)).nodes.cells.length < UInt32.size)
    (hx : t.nodes.contains x = true) :
    (t.addScope m (parentOf t.nodes m)).owner? x c = t.owner? x c := by
  have hold := (grows_addNode t _).cells_lt ((grows_addScope ..).cells_lt hlt)
  have hforest := forest_addScope h.forest h.sound (h.unnamed hold) hm hnone hlt
  have hscope := scopeOf_addScope h.sound hm hlt
  have hgone : t.nodes.get? t.nodes.nextId = none := Arena.get?_nextId h.sound hold
  have hne : t.nodes.nextId ≠ m := by
    intro he
    rw [← he, Arena.contains, hgone] at hm
    cases hm
  have hlast : scopeOf (t.addScope m (parentOf t.nodes m)).nodes t.nodes.nextId = none := by
    rw [hscope, if_neg hne, scopeOf, hgone, Option.bind_none]
  have hsevered : ¬ Severed (t.addScope m (parentOf t.nodes m)).nodes m := by
    rw [severed_iff_of_scope ((hscope m).trans (if_pos rfl))
      ((contains_addScope h.sound hlt).mpr (Or.inl rfl))]
    exact not_severed_of_no_scope hlast
  -- the lookup differs from the one without the link only if the scope holds something
  rcases Tree.owner?_dropScope hforest hsevered x c with he | ⟨i, j, hi, -, hij, ho⟩
  · exact he.symm.trans (owner?_dropScope_addScope h hm hnone hlt hx)
  · rw [hscope, if_pos rfl] at hi
    obtain rfl := Option.some.inj hi
    rw [(nested_iff_of_no_scope (by simp [hlast])).mp hij] at ho
    have hheld := (Tree.holds_of_owner? ho).2
    rw [holds_eq_isSome_slot?, Tree.slot?_addScope h.sound hlt, Tree.slot?] at hheld
    simp [Tree.node?, hgone] at hheld

end Add

/-- Letting go of a scope that is gone changes no lookup. -/
theorem owner?_dropScope_of_gone (h : Tidy t) {m : NodeId}
    (hold : ∀ i, scopeOf t.nodes m = some i → ¬ t.nodes.contains i = true) (x : NodeId)
    (c : String) : (t.dropScope m).owner? x c = t.owner? x c := by
  refine (Tree.owner?_dropScope h.forest (not_severed h.intact m) x c).resolve_right ?_
  rintro ⟨i, -, hi, hlive, -⟩
  exact hold i hi hlive

section Set

variable {x : NodeId} {c : String}

/-- Writing a value changes no lookup. -/
theorem owner?_write {T : Target} (hT : T.Proper t.globalId) (f : Value → Value) (x : NodeId)
    (c : String) : (t.write T f).owner? x c = t.owner? x c := by
  refine Tree.owner?_of_sameLinks (sameLinks_write t T f) (Tree.globalId_modifySlot ..)
    (fun y => ?_) x
  have hy : Target.Proper t.globalId ⟨.node y, c⟩ := Target.proper_node
  rw [holds_eq_isSome_slot?, holds_eq_isSome_slot?, Tree.slot?_write hT hy]
  split
  · rw [Option.isSome_map]
  · rfl

/-- A new context changes no lookup of another one. -/
theorem owner?_addContext {d : String} (hc : c ≠ d) (y : NodeId) (value : Value) (x : NodeId) :
    (t.addContext y d value).owner? x c = t.owner? x c := by
  refine Tree.owner?_of_sameLinks (sameLinks_addContext t y d value) rfl (fun z => ?_) x
  rw [holds_eq_isSome_slot?, holds_eq_isSome_slot?, Tree.slot?_addContext, if_neg]
  rintro ⟨he, -⟩
  injection he with _ he
  exact hc he

/-- A new context is found where it is, or not at all. -/
theorem owner?_addContext_self (hc : c ≠ t.globalId) {y : NodeId} (hy : t.contains y = true)
    (value : Value) (x : NodeId) :
    (t.addContext y c value).owner? x c = some (.node y) ∨
      (t.addContext y c value).owner? x c = t.owner? x c := by
  have hself : (t.addContext y c value).holds c y = true := by
    rw [holds_eq_isSome_slot?, Tree.slot?_addContext, if_pos ⟨rfl, hy⟩]
    rfl
  have hother : ∀ z, z ≠ y → (t.addContext y c value).holds c z = t.holds c z := by
    intro z hz
    rw [holds_eq_isSome_slot?, holds_eq_isSome_slot?, Tree.slot?_addContext, if_neg]
    rintro ⟨he, -⟩
    injection he with he _
    exact hz (Owner.node.inj he)
  have hid : (t.addContext y c value).globalId = t.globalId := rfl
  have hcells : (t.addContext y c value).nodes.cells.length = t.nodes.cells.length :=
    Arena.length_cells_modify ..
  have hpass : ∀ z, z ≠ y → (t.addContext y c value).pass c z = t.pass c z := fun z hz =>
    Tree.pass_of_sameLinks (sameLinks_addContext t y c value) (hother z hz)
  rw [Tree.owner?, Tree.owner?, Tree.lookup, Tree.lookup, hid, if_neg hc, if_neg hc, hcells]
  rcases Tree.follow_eq_or_found hself hpass hother (t.nodes.cells.length + 1) x with h | h
  · exact Or.inl (congrArg Lookup.owner? h)
  · exact Or.inr (congrArg Lookup.owner? h)

end Set

section Remove

variable {x y : NodeId} {c : String}

/-- What is left when a node goes sees what it saw, if the node was no implicit scope: whatever a
lookup passes on the way from there stays. -/
theorem owner?_cut (h : ForestBut t.nodes (· = x)) (hi : Intact t.nodes)
    (hspare : ∀ m, scopeOf t.nodes m ≠ some x) (hy : y ∉ t.removed x)
    (hlive : t.nodes.contains y = true) : (t.cut x).owner? y c = t.owner? y c := by
  obtain ⟨hbut, hchild⟩ := forestBut_unlink h
  have hcontains : ∀ z, (t.cut x).nodes.contains z = true ↔
      z ∉ t.removed x ∧ t.nodes.contains z = true := fun z =>
    contains_dismantle_iff.trans (by rw [contains_unlink]; exact Iff.rfl)
  have hparent : ∀ z, z ∉ t.removed x → parentOf (t.cut x).nodes z = parentOf t.nodes z := by
    refine fun z hz => Option.ext fun p => parentOf_dismantle.trans ?_
    rw [parentOf_unlink]
    exact and_iff_right hz
  have hscope : ∀ z, z ∉ t.removed x → scopeOf (t.cut x).nodes z = scopeOf t.nodes z := by
    refine fun z hz => Option.ext fun i => scopeOf_dismantle.trans ?_
    rw [scopeOf_unlink]
    exact and_iff_right hz
  refine Tree.owner?_of_agree (u := t.cut x)
    (P := fun z => z ∉ t.removed x ∧ t.nodes.contains z = true) h
    (t.globalId_unlink x) (fun z hz => ⟨hz.2, (hcontains z).mpr hz⟩)
    (fun z hz => ⟨hparent z hz.1, fun p hp => ⟨parent_stays_removed h hz.1 hp, h.parent_live hp⟩⟩)
    (fun z hz => ⟨hscope z hz.1, fun i hs =>
      ⟨scope_stays_removed h (fun he => hspare z (he ▸ hs)) hz.1 hs, hi z i hs⟩⟩)
    (fun z hz => ?_) ⟨hy, hlive⟩
  rw [holds_eq_isSome_slot?, holds_eq_isSome_slot?, Tree.slot?_cut, if_neg]
  rintro ⟨w, hw, he⟩
  injection he with he
  exact hz.1 (he ▸ hw)

/-- The implicit scopes of an implicit scope go with it. -/
theorem mem_removed_of_nested (h : Forest t.nodes) {m i j : NodeId}
    (hi : scopeOf t.nodes m = some i) (hlive : t.nodes.contains i = true)
    (hij : Nested t.nodes i j) : j ∈ (t.dropScope m).removed i := by
  obtain ⟨depth, level, hr⟩ := h.ranked
  have key : j ∈ (t.dropScope m).removed i ∧ level m < level j := by
    induction hij with
    | refl =>
      refine ⟨mem_dismantle_of_mem (List.mem_singleton_self i) ?_, (hr.scope hi hlive).2⟩
      rw [contains_unlink, contains_dropScope]
      exact hlive
    | @tail k l _ hkl ih =>
      have hkm : k ≠ m := fun he => Nat.lt_irrefl _ (he ▸ ih.2)
      refine ⟨mem_dismantle_of_below ih.1 (Or.inr ?_) ?_,
        Nat.lt_trans ih.2 (hr.scope hkl.1 hkl.2).2⟩
      · rw [scopeOf_unlink]
        exact scopeOf_dropScope.mpr ⟨hkm, hkl.1⟩
      · rw [contains_unlink, contains_dropScope]
        exact hkl.2
  exact key.1

/-- When a node loses its implicit scope, a lookup finds what it found before, unless that goes. -/
theorem owner?_clearScope (h : Tidy t) {m i : NodeId} (hi : scopeOf t.nodes m = some i)
    (hlive : t.nodes.contains i = true) (hy : y ∉ (t.dropScope m).removed i)
    (hylive : t.nodes.contains y = true) :
    ((t.dropScope m).cut i).owner? y c = t.owner? y c ∨
      ∃ j ∈ (t.dropScope m).removed i, t.owner? y c = some (.node j) := by
  have hspare : ∀ k, scopeOf (t.dropScope m).nodes k ≠ some i := fun k hk => by
    obtain ⟨hkm, hk⟩ := scopeOf_dropScope.mp hk
    exact hkm (h.forest.scope_owner hk hi hlive)
  rw [owner?_cut (forestBut_dropScope h.forest hi) (intact_dropScope h.intact m) hspare hy
    ((contains_dropScope t m y).trans hylive)]
  refine (Tree.owner?_dropScope h.forest (not_severed h.intact m) y c).imp_right ?_
  rintro ⟨i', j, hi', -, hij, ho⟩
  obtain rfl := Option.some.inj (hi.symm.trans hi')
  exact ⟨j, mem_removed_of_nested h.forest hi hlive hij, ho⟩

end Remove

/-! ## Targets -/

/-- Every observer looks from a node that is there, and its targets are what it finds. -/
structure Fresh (t : Tree) : Prop where
  seated : ∀ w ∈ t.watches, t.nodes.contains w.subscriber = true
  targets : ∀ w ∈ t.watches, w.targets = t.resolve w.subscriber w.contexts

theorem resolve_congr {x : NodeId} {cs : List String}
    (h : ∀ c ∈ cs, u.owner? x c = t.owner? x c) : u.resolve x cs = t.resolve x cs := by
  unfold Tree.resolve
  exact List.filterMap_congr fun c hc => by rw [h c hc]

theorem fresh_new (globalId : String) (value : Value) (registry : Registry) :
    Fresh (Tree.new globalId value registry) :=
  ⟨nofun, nofun⟩

namespace Fresh

/-- A change that no lookup of an observer sees. -/
theorem of_owner?_eq (h : Fresh t) (hws : u.watches.Sublist t.watches)
    (hlive : ∀ x, t.nodes.contains x = true → u.nodes.contains x = true)
    (howner : ∀ x c, t.nodes.contains x = true → u.owner? x c = t.owner? x c) : Fresh u where
  seated w hw := hlive _ (h.seated w (hws.subset hw))
  targets w hw := by
    have hw := hws.subset hw
    rw [h.targets w hw]
    exact (resolve_congr fun c _ => howner _ c (h.seated w hw)).symm

theorem of_alike (h : Fresh t) (hlike : Alike t u) (hws : u.watches.Sublist t.watches) : Fresh u :=
  h.of_owner?_eq hws (fun x hx => (hlike.contains x).trans hx) fun x c _ => hlike.owner? x c

/-- Observers that need not look again are fresh already. -/
theorem rebindWhere (hi : Indexed t) {affected : Watch → Bool}
    (hseat : ∀ w ∈ t.watches, t.nodes.contains w.subscriber = true)
    (hrest : ∀ w ∈ t.watches, ¬ affected w = true →
      w.targets = t.resolve w.subscriber w.contexts) : Fresh (t.rebindWhere affected).1 := by
  have hlike := alike_rebindWhere t affected
  have hws := hi.watches_rebindWhere affected
  refine ⟨fun w hw => ?_, fun w hw => ?_⟩
  · rw [hws, List.mem_map] at hw
    obtain ⟨v, hv, rfl⟩ := hw
    refine (hlike.contains _).trans ?_
    split
    · exact hseat v hv
    · exact hseat v hv
  · rw [hws, List.mem_map] at hw
    obtain ⟨v, hv, rfl⟩ := hw
    rw [hlike.resolve]
    split
    · rfl
    · rename_i ha
      exact hrest v hv ha

theorem register (h : Fresh t) {x : NodeId} (hx : t.nodes.contains x = true) (cs : List String)
    (subject : Subject) : Fresh (t.register x cs subject) := by
  have hlike := alike_register t x cs subject
  refine ⟨fun w hw => (hlike.contains _).trans ?_, fun w hw => ?_⟩ <;>
    rw [t.watches_register, List.mem_append, List.mem_singleton] at hw
  · rcases hw with hw | rfl
    · exact h.seated w hw
    · exact hx
  · rw [hlike.resolve]
    rcases hw with hw | rfl
    · exact h.targets w hw
    · rfl

theorem addContext (h : Fresh t) (ht : Tidy t) {x : NodeId} {c : String} (value : Value)
    (hgone : t.slot? ⟨.node x, c⟩ = none) :
    Fresh ((t.addContext x c value).rebindWhere fun w => c ∈ w.contexts).1 := by
  have hi := (ht.toCoherent.addContext hgone value).indexed
  refine rebindWhere hi (fun w hw => ?_) fun w hw ha => ?_
  · exact ((sameLinks_addContext t x c value).contains _).trans (h.seated w hw)
  · refine (h.targets w hw).trans (resolve_congr fun d hd => ?_).symm
    refine owner?_addContext (fun he => ha ?_) x value w.subscriber
    exact decide_eq_true (he ▸ hd)

/-- When nodes go, the observers that had no target there find what they found. -/
theorem remove (hc : Coherent t) (hseat : ∀ w ∈ t.watches, t.nodes.contains w.subscriber = true)
    {x : NodeId} (hx : t.contains x = true)
    (hrest : ∀ w ∈ t.watches, w.subscriber ∉ t.removed x →
      ¬ Tree.targetsAny (t.removed x) w = true →
      w.targets = (t.cut x).resolve w.subscriber w.contexts) : Fresh (t.remove x).tree := by
  have hlike : Alike (t.cut x) (t.without x) := alike_dropWatches ..
  rw [Tree.remove_of_contains hx]
  refine rebindWhere (hc.indexed_without x) (fun w hw => ?_) fun w hw ha => ?_ <;>
    rw [t.watches_without, List.mem_filter, decide_eq_true_eq] at hw
  · refine (hlike.contains _).trans (contains_dismantle_iff.mpr ⟨hw.2, ?_⟩)
    rw [contains_unlink]
    exact hseat w hw.1
  · rw [hlike.resolve]
    exact hrest w hw.1 hw.2 ha

/-- **Every change keeps targets fresh**, if scopes are spared. -/
theorem change (h : Fresh t) (ht : Tidy t) {spared : Prop} (hspared : spared)
    (hc : Change spared t u) (hlt : u.nodes.cells.length < UInt32.size) : Fresh u := by
  cases hc with
  | addRoot =>
    exact h.of_owner?_eq (List.Sublist.refl _)
      (fun x hx => (contains_addNode ht.sound hlt).mpr (Or.inr hx)) fun x c hx =>
        owner?_addRoot ht hlt hx
  | addLeaf hp =>
    exact h.of_owner?_eq (List.Sublist.refl _)
      (fun x hx => (contains_addLeaf ht.sound hlt).mpr (Or.inr hx)) fun x c hx =>
        owner?_addLeaf ht hlt hx
  | addScope hm hold =>
    exact h.of_owner?_eq (List.Sublist.refl _)
      (fun x hx => (contains_addScope ht.sound hlt).mpr (Or.inr hx)) fun x c hx =>
        owner?_addScope ht hm hold hlt hx
  | @write T f hT _ =>
    refine h.of_owner?_eq ?_ (fun x hx => ((sameLinks_write t T f).contains x).trans hx)
      fun x c _ => owner?_write hT f x c
    exact Tree.watches_modifySlot t T _ ▸ List.Sublist.refl _
  | addContext value _ _ hgone => exact h.addContext ht value hgone
  | @remove x hx hspare =>
    refine remove ht.toCoherent h.seated hx fun w hw hs _ => ?_
    exact (h.targets w hw).trans (resolve_congr fun c _ =>
      owner?_cut (ht.forest.mono nofun) ht.intact (hspare hspared) hs (h.seated w hw)).symm
  | @clearScope m i hi hlive =>
    refine remove (ht.toCoherent.dropScope m)
      (fun w hw => (contains_dropScope t m _).trans (h.seated w hw))
      ((contains_dropScope t m i).trans hlive) fun w hw hs ha => ?_
    refine (h.targets w hw).trans (resolve_congr fun c hc => ?_).symm
    refine (owner?_clearScope ht hi hlive hs (h.seated w hw)).resolve_right ?_
    rintro ⟨j, hj, ho⟩
    refine ha (Tree.targetsAny_iff.mpr ⟨⟨.node j, c⟩, ?_, j, hj, rfl⟩)
    rw [h.targets w hw]
    exact Tree.mem_resolve.mpr ⟨hc, ho⟩
  | @dropScope m hold =>
    exact h.of_owner?_eq (List.Sublist.refl _) (fun x hx => (contains_dropScope t m x).trans hx)
      fun x c _ => owner?_dropScope_of_gone ht hold x c
  | register x subject hx _ => exact h.register hx _ subject
  | unsubscribe id =>
    exact h.of_alike (alike_unsubscribe t id) (t.watches_unsubscribe id ▸ List.filter_sublist)

end Fresh

/-! ## Runs -/

/-- The node from which a call lets an observer look, and what that watches. -/
def Call.subscription : Call → Option (NodeId × List String)
  | .observe x e => some (x, contextsOf e)
  | .observeContext x c => some (x, [c])
  | _ => none

namespace Run

variable {log : List Exchange} {globalId : String} {value : Value} {registry : Registry}

theorem tidy_fresh (h : Run SparesScopes (.new globalId value registry) log t)
    (hlt : t.nodes.cells.length < UInt32.size) : Tidy t ∧ Fresh t :=
  h.keeps_tree (P := fun t => Tidy t ∧ Fresh t) hlt ⟨tidy_new .., fresh_new ..⟩
    fun ha hc hlt ⟨ht, hf⟩ => ⟨ht.change ha hc hlt, hf.change ht ha hc hlt⟩

/-- **The targets of an observer are always fresh**: after any run that spares implicit scopes they
are the contexts that it watches, in order, without those that are not visible from its node, each
with its owner. -/
theorem targets_eq (h : Run SparesScopes (.new globalId value registry) log t)
    (hlt : t.nodes.cells.length < UInt32.size) {id : ObserverId}
    (hlive : (t.watch? id).isSome = true) :
    ∃ (n : NodeId) (cs : List String), cs.Nodup ∧ (∃ x ∈ log, x.result = .ok (.observer id)) ∧
      (∀ x ∈ log, x.result = .ok (.observer id) → x.call.subscription = some (n, cs)) ∧
      t.targets id = cs.filterMap fun c => (t.owner? n c).map (⟨·, c⟩) := by
  obtain ⟨ht, hf⟩ := h.tidy_fresh hlt
  have hb := h.booked hlt
  obtain ⟨w, hw⟩ := Option.isSome_iff_exists.mp hlive
  have htargets : t.targets id = w.targets := by
    rw [Tree.targets, hw, Option.map_some, Option.getD_some]
  obtain ⟨hmem, rfl⟩ := ht.indexed.watch?_eq_some_iff.mp hw
  refine ⟨w.subscriber, w.contexts, ht.indexed.distinct w hmem, hb.maker w hmem, fun x hx hr => ?_,
    htargets.trans (hf.targets w hmem)⟩
  have hm := hb.made x hx w hmem hr
  cases hc : x.call with
  | observe n e =>
    rw [hc] at hm
    rw [hm.1, hm.2.1]
    rfl
  | observeContext n c =>
    rw [hc] at hm
    rw [hm.1, hm.2.1]
    rfl
  | _ =>
    rw [hc] at hm
    exact hm.elim

/-- A child sees the context of the root until its implicit scope holds one of the same name. -/
theorem targets_eq_of_shadowed :
    let r := (Tree.new "global" .null .empty).calls
      [.addRoot, .addChild ⟨0, 0⟩, .set ⟨0, 0⟩ "a" .null,
        .observe ⟨1, 0⟩ (.single (.binding ⟨"a", []⟩)), .setImplicit ⟨1, 0⟩ "a" (.bool true)]
    r.2.nodes.cells.length < UInt32.size ∧ (r.2.watch? 1).isSome = true ∧
      r.2.targets 1 = [⟨.node ⟨2, 0⟩, "a"⟩] ∧
      ∃ (n : NodeId) (cs : List String), cs.Nodup ∧ (∃ x ∈ r.1, x.result = .ok (.observer 1)) ∧
        (∀ x ∈ r.1, x.result = .ok (.observer 1) → x.call.subscription = some (n, cs)) ∧
        r.2.targets 1 = cs.filterMap fun c => (r.2.owner? n c).map (⟨·, c⟩) := by
  refine ⟨by decide, by decide, by decide, Run.targets_eq (Run.of_calls fun t c hc x hx => ?_)
    (by decide) (by decide)⟩
  subst hx
  simp at hc

end Run

end DataBinding.Scope
