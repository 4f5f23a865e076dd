import DataBinding.Proofs.Scope.Coherent
import DataBinding.Proofs.Scope.Lookup

/-!
# Links after a change

The nodes form a forest after every change, if no implicit scope that is gone comes back: the
identity that the arena gives out next must not be one that a node still names. There are two
reasons for that. In any run, a scope that is named is there or its cell was vacated since
(`Dated`). In a run that spares implicit scopes, every scope that is named is there (`Intact`).

* `sameLinks_set`: setting a context changes no link.
* `forest_remove`, `forest_change`: the forest after a change.
* `Run.forest`: after a run.
* `Tidy`: what a run keeps that spares implicit scopes.
-/

namespace DataBinding.Scope

variable {t u : Tree} {a b : Arena Node}

/-! ## Setting contexts changes no link -/

theorem sameLinks_write (t : Tree) (T : Target) (f : Value → Value) :
    SameLinks t.nodes (t.write T f).nodes := by
  unfold Tree.write Tree.modifySlot
  split
  · exact .refl _
  · exact sameLinks_modify _ _ fun _ => ⟨rfl, rfl, rfl⟩

theorem sameLinks_addContext (t : Tree) (x : NodeId) (c : String) (value : Value) :
    SameLinks t.nodes (t.addContext x c value).nodes :=
  sameLinks_modify _ _ fun _ => ⟨rfl, rfl, rfl⟩

theorem sameLinks_set (t : Tree) (x : NodeId) (c : String) (value : Value) :
    SameLinks t.nodes (t.set x c value).tree.nodes := by
  obtain hs | ⟨T, -, -, -, -, hs⟩ | ⟨-, -, -, hs⟩ := t.set_cases x c value <;> rw [hs]
  · exact .refl _
  · exact sameLinks_write t T fun _ => value
  · exact (sameLinks_addContext t x c value).trans (alike_rebindWhere _ _).sameLinks

/-! ## Scopes that are named -/

/-- Every implicit scope that a node names is there. -/
def Intact (nodes : Arena Node) : Prop :=
  ∀ m i, scopeOf nodes m = some i → nodes.contains i = true

/-- Every implicit scope that a node names is there, or its cell was vacated since. -/
def Dated (nodes : Arena Node) : Prop :=
  ∀ m i, scopeOf nodes m = some i → nodes.contains i = true ∨ nodes.Stale i

/-- The identity that is given out next is not one that a node names as its implicit scope. -/
def Unnamed (nodes : Arena Node) : Prop :=
  ∀ m, scopeOf nodes m ≠ some nodes.nextId

theorem Intact.unnamed (h : Intact a) (hs : a.Sound) (hlt : a.cells.length < UInt32.size) :
    Unnamed a := fun m hm => by
  have := h m _ hm
  rw [Arena.contains, Arena.get?_nextId hs hlt] at this
  cases this

theorem Dated.unnamed (h : Dated a) (hl : a.Lasting) (hs : a.Sound)
    (hlt : a.cells.length < UInt32.size) : Unnamed a := fun m hm => by
  rcases h m _ hm with hlive | hstale
  · rw [Arena.contains, Arena.get?_nextId hs hlt] at hlive
    cases hlive
  · exact Arena.not_stale_nextId hl hs hlt hstale

theorem Intact.congr (h : Intact a) (hs : SameLinks a b) : Intact b := fun m i hm => by
  rw [hs.scope] at hm
  rw [hs.contains]
  exact h m i hm

/-- Scopes stay dated when those that go leave a vacated cell and those newly named are there. -/
theorem Dated.of_grows (h : Dated a) (hg : a.Grows b)
    (hscope : ∀ m i, scopeOf b m = some i → scopeOf a m = some i ∨ b.contains i = true)
    (hlive : ∀ i, a.contains i = true → b.contains i = true ∨ b.Stale i) : Dated b :=
  fun m i hm => by
    rcases hscope m i hm with hm | hi
    · rcases h m i hm with hi | hi
      · exact hlive i hi
      · exact Or.inr (hg.stale hi)
    · exact Or.inl hi

/-! ## Trees with one node more -/

section Add

variable {parent : Option NodeId}

theorem contains_addNode (hs : t.nodes.Sound)
    (hlt : (t.addNode parent).nodes.cells.length < UInt32.size) {x : NodeId} :
    (t.addNode parent).nodes.contains x = true ↔
      x = t.nodes.nextId ∨ t.nodes.contains x = true :=
  contains_alloc hs (Nat.le_of_lt hlt)

theorem scopeOf_addNode (hs : t.nodes.Sound)
    (hlt : (t.addNode parent).nodes.cells.length < UInt32.size) (x : NodeId) :
    scopeOf (t.addNode parent).nodes x = scopeOf t.nodes x :=
  have hold := (grows_addNode t parent).cells_lt hlt
  scopeOf_alloc hs (Nat.le_of_lt hlt) (Arena.get?_nextId hs hold) rfl x

theorem forestBut_addNode (h : Forest t.nodes) (hs : t.nodes.Sound) (hn : Unnamed t.nodes)
    (hlt : (t.addNode parent).nodes.cells.length < UInt32.size)
    (hp : ∀ p, parent = some p → t.nodes.contains p = true) :
    ForestBut (t.addNode parent).nodes fun x => False ∨ x = t.nodes.nextId :=
  have hold := (grows_addNode t parent).cells_lt hlt
  h.alloc hs (Nat.le_of_lt hlt) (Arena.get?_nextId hs hold) hn hp rfl rfl

theorem forest_addRoot (h : Forest t.nodes) (hs : t.nodes.Sound) (hn : Unnamed t.nodes)
    (hlt : (t.addNode none).nodes.cells.length < UInt32.size) : Forest (t.addNode none).nodes := by
  refine (forestBut_addNode h hs hn hlt nofun).settle fun {x p} hx hp => ?_
  have hnone : parentOf (t.addNode none).nodes x = none := by
    rw [hx.resolve_left id]
    exact (parentOf_alloc hs (Nat.le_of_lt hlt) _).trans (if_pos rfl)
  rw [hnone] at hp
  cases hp

theorem forest_addLeaf (h : Forest t.nodes) (hs : t.nodes.Sound) (hn : Unnamed t.nodes)
    {p : NodeId} (hlt : (t.addNode (some p)).nodes.cells.length < UInt32.size)
    (hp : t.nodes.contains p = true) : Forest (t.addLeaf p).nodes := by
  refine (forestBut_addNode h hs hn hlt fun q hq => ?_).adopt ?_ fun m => ?_
  · rwa [← Option.some.inj hq]
  · exact (parentOf_alloc hs (Nat.le_of_lt hlt) _).trans (if_pos rfl)
  · rw [scopeOf_addNode hs hlt]
    exact hn m

theorem contains_addLeaf (hs : t.nodes.Sound) {p : NodeId}
    (hlt : (t.addLeaf p).nodes.cells.length < UInt32.size) {x : NodeId} :
    (t.addLeaf p).nodes.contains x = true ↔ x = t.nodes.nextId ∨ t.nodes.contains x = true := by
  unfold Tree.addLeaf Tree.modifyNode
  rw [contains_modify]
  exact contains_addNode hs ((grows_addLeaf ..).cells_lt hlt)

theorem scopeOf_addLeaf (hs : t.nodes.Sound) {p : NodeId}
    (hlt : (t.addLeaf p).nodes.cells.length < UInt32.size) (m : NodeId) :
    scopeOf (t.addLeaf p).nodes m = scopeOf t.nodes m :=
  (scopeOf_modify (f := fun n => { n with children := n.children ++ [t.nodes.nextId] }) _ _
    (fun _ => rfl) m).trans
      (scopeOf_addNode hs ((grows_addLeaf ..).cells_lt hlt) m)

theorem contains_addScope (hs : t.nodes.Sound) {m : NodeId}
    (hlt : (t.addScope m parent).nodes.cells.length < UInt32.size) {x : NodeId} :
    (t.addScope m parent).nodes.contains x = true ↔
      x = t.nodes.nextId ∨ t.nodes.contains x = true := by
  unfold Tree.addScope Tree.modifyNode
  rw [contains_modify]
  exact contains_addNode hs ((grows_addScope ..).cells_lt hlt)

theorem scopeOf_addScope (hs : t.nodes.Sound) {m : NodeId} (hm : t.nodes.contains m = true)
    (hlt : (t.addScope m parent).nodes.cells.length < UInt32.size) (k : NodeId) :
    scopeOf (t.addScope m parent).nodes k =
      if k = m then some t.nodes.nextId else scopeOf t.nodes k := by
  have hlt' := (grows_addScope ..).cells_lt hlt
  unfold Tree.addScope Tree.modifyNode
  rw [scopeOf_link ((contains_addNode hs hlt').mpr (Or.inr hm)), scopeOf_addNode hs hlt']

theorem forest_addScope (h : Forest t.nodes) (hs : t.nodes.Sound) (hn : Unnamed t.nodes)
    {m : NodeId} (hm : t.nodes.contains m = true)
    (hold : ∀ i, scopeOf t.nodes m = some i → ¬ t.nodes.contains i = true)
    (hlt : (t.addScope m (parentOf t.nodes m)).nodes.cells.length < UInt32.size) :
    Forest (t.addScope m (parentOf t.nodes m)).nodes := by
  have hlt' := (grows_addScope ..).cells_lt hlt
  have hsmall := (grows_addNode t _).cells_lt hlt'
  have hgone : t.nodes.get? t.nodes.nextId = none := Arena.get?_nextId hs hsmall
  have hnew : ∀ x, t.nodes.contains x = true → x ≠ t.nodes.nextId := by
    rintro x hx rfl
    rw [Arena.contains, hgone] at hx
    cases hx
  have hpar := parentOf_alloc (n := { parent := parentOf t.nodes m }) hs (Nat.le_of_lt hlt')
  have hchi := childrenOf_alloc (n := { parent := parentOf t.nodes m }) hs (Nat.le_of_lt hlt') hgone
    rfl
  refine (forestBut_addNode h hs hn hlt' fun p hp => h.parent_live hp).link
    ((contains_addNode hs hlt').mpr (Or.inr hm)) (hnew m hm).symm (fun i hi hlive => ?_) ?_
    (fun q hq => ?_) (fun k => ?_) (fun k hk => ?_) ?_
  · rw [scopeOf_addNode hs hlt'] at hi
    rcases (contains_addNode hs hlt').mp hlive with rfl | hlive
    · exact hn m hi
    · exact hold i hi hlive
  · exact (hpar _).trans ((if_pos rfl).trans ((hpar m).trans (if_neg (hnew m hm))).symm)
  · have := h.parent_of_child ((hchi q).symm ▸ hq)
    exact hnew _ (contains_of_parentOf this) rfl
  · rw [scopeOf_addNode hs hlt']
    exact hn k
  · have hk' := (hpar k).symm.trans hk
    split at hk'
    · exact hnew _ (h.parent_live hk') rfl
    · exact hnew _ (h.parent_live hk') rfl
  · rw [scopeOf_addNode hs hlt', scopeOf, hgone, Option.bind_none]

end Add

/-! ## Removal -/

theorem contains_unlink (t : Tree) (x y : NodeId) :
    (t.unlink x).nodes.contains y = t.nodes.contains y := by
  obtain ⟨-, h⟩ | ⟨p, -, h⟩ := t.unlink_cases x <;> rw [h]
  exact contains_modify ..

theorem parentOf_unlink (t : Tree) (x y : NodeId) :
    parentOf (t.unlink x).nodes y = parentOf t.nodes y := by
  obtain ⟨-, h⟩ | ⟨p, -, h⟩ := t.unlink_cases x <;> rw [h]
  exact parentOf_modify (f := fun n => { n with children := n.children.filter (· != x) }) _ _
    (fun _ => rfl) y

theorem scopeOf_unlink (t : Tree) (x y : NodeId) :
    scopeOf (t.unlink x).nodes y = scopeOf t.nodes y := by
  obtain ⟨-, h⟩ | ⟨p, -, h⟩ := t.unlink_cases x <;> rw [h]
  exact scopeOf_modify (f := fun n => { n with children := n.children.filter (· != x) }) _ _
    (fun _ => rfl) y

/-- A node that hangs loose or not is nobody's child once it is unlinked. -/
theorem forestBut_unlink {x : NodeId} (h : ForestBut t.nodes (· = x)) :
    ForestBut (t.unlink x).nodes (· = x) ∧ ∀ p, x ∉ childrenOf (t.unlink x).nodes p := by
  unfold Tree.unlink
  cases hp : t.parent? x with
  | none =>
    refine ⟨h, fun q hq => ?_⟩
    have : parentOf t.nodes x = none := hp
    rw [h.parent_of_child hq] at this
    cases this
  | some p =>
    refine ⟨(h.unlist (p := p) (y := x)).mono fun y hy => hy.elim id id, fun q hq => ?_⟩
    have hlist : ∀ q, x ∈ childrenOf (t.nodes.modify p fun n =>
        { n with children := n.children.filter (· != x) }) q →
          q ≠ p ∧ x ∈ childrenOf t.nodes q := by
      intro q hq
      rw [childrenOf, Arena.get?_modify] at hq
      by_cases hqp : q = p
      · rw [if_pos hqp] at hq
        cases hn : t.nodes.get? p <;> simp [hn] at hq
      · rw [if_neg hqp] at hq
        exact ⟨hqp, hq⟩
    obtain ⟨hqp, hq⟩ := hlist q hq
    exact hqp (Option.some.inj ((h.parent_of_child hq).symm.trans hp))

section Remove

variable {x : NodeId}

/-- **Exactly the nodes removed are gone.** -/
theorem contains_remove (hx : t.contains x = true) {y : NodeId} :
    (t.remove x).tree.nodes.contains y = true ↔
      y ∉ t.removed x ∧ t.nodes.contains y = true := by
  rw [(alike_remove hx).sameLinks.contains, ← contains_unlink t x y]
  exact contains_dismantle_iff

theorem scopeOf_remove (hx : t.contains x = true) {m i : NodeId} :
    scopeOf (t.remove x).tree.nodes m = some i ↔
      m ∉ t.removed x ∧ scopeOf t.nodes m = some i := by
  rw [(alike_remove hx).sameLinks.scope, ← scopeOf_unlink t x m]
  exact scopeOf_dismantle

theorem contains_of_mem_removed {y : NodeId} (hy : y ∈ t.removed x) : t.nodes.contains y = true :=
  contains_unlink t x y ▸ contains_of_mem_dismantle hy

theorem mem_removed_iff (hx : t.contains x = true) {y : NodeId} :
    y ∈ t.removed x ↔ t.nodes.contains y = true ∧ ¬ (t.remove x).tree.nodes.contains y = true := by
  rw [contains_remove hx, not_and, not_imp_not]
  exact ⟨fun hy => ⟨contains_of_mem_removed hy, fun _ => hy⟩, fun h => h.2 h.1⟩

/-- An implicit scope stays with its node, unless it is itself the node removed. -/
theorem scope_stays_removed (h : ForestBut t.nodes (· = x)) {m i : NodeId} (hi : i ≠ x)
    (hm : m ∉ t.removed x) (hs : scopeOf t.nodes m = some i) : i ∉ t.removed x :=
  (forestBut_unlink h).1.scope_stays hi hm ((scopeOf_unlink t x m).trans hs)

/-- The parent of a node that stays, stays. -/
theorem parent_stays_removed (h : ForestBut t.nodes (· = x)) {y p : NodeId}
    (hy : y ∉ t.removed x) (hp : parentOf t.nodes y = some p) : p ∉ t.removed x :=
  (forestBut_unlink h).1.parent_stays hy ((parentOf_unlink t x y).trans hp)

/-- **Removing a node leaves a forest.** -/
theorem forest_remove (h : ForestBut t.nodes (· = x)) (hx : t.contains x = true) :
    Forest (t.remove x).tree.nodes :=
  have ⟨hbut, hchild⟩ := forestBut_unlink h
  (hbut.dismantle hchild).congr (alike_remove hx).sameLinks

theorem live_or_stale_remove (x : NodeId) {y : NodeId} (hy : t.nodes.contains y = true) :
    (t.remove x).tree.nodes.contains y = true ∨ (t.remove x).tree.nodes.Stale y := by
  obtain hr | ⟨hx, -⟩ := t.remove_cases x
  · rw [hr]
    exact Or.inl hy
  · by_cases hyR : y ∈ t.removed x
    · exact Or.inr ((alike_remove hx).grows.stale ((releases_dismantle ..).stale hyR))
    · exact Or.inl ((contains_remove hx).mpr ⟨hyR, hy⟩)

theorem intact_remove (h : ForestBut t.nodes (· = x)) (hi : Intact t.nodes)
    (hspare : ∀ m, scopeOf t.nodes m ≠ some x) (hx : t.contains x = true) :
    Intact (t.remove x).tree.nodes := fun m i hm => by
  obtain ⟨hmR, hm⟩ := (scopeOf_remove hx).mp hm
  refine (contains_remove hx).mpr ⟨scope_stays_removed h ?_ hmR hm, hi m i hm⟩
  exact fun he => hspare m (he ▸ hm)

end Remove

/-! ## Letting go of an implicit scope -/

section Drop

variable {m : NodeId}

theorem contains_dropScope (t : Tree) (m x : NodeId) :
    (t.dropScope m).nodes.contains x = t.nodes.contains x :=
  contains_modify ..

theorem forestBut_dropScope (h : Forest t.nodes) {i : NodeId} (hi : scopeOf t.nodes m = some i) :
    ForestBut (t.dropScope m).nodes (· = i) := by
  refine (ForestBut.dropScope (m := m) h).mono fun x hx => ?_
  rw [hi] at hx
  exact (Option.some.inj (hx.resolve_left id)).symm

/-- A scope that is gone already is not missed. -/
theorem forest_dropScope (h : Forest t.nodes)
    (hold : ∀ i, scopeOf t.nodes m = some i → ¬ t.nodes.contains i = true) :
    Forest (t.dropScope m).nodes := by
  refine (ForestBut.dropScope (m := m) h).settle fun {x p} hx hp => ?_
  have hlive := contains_of_parentOf hp
  rw [contains_modify] at hlive
  exact absurd hlive (hold x (hx.resolve_left id))

theorem intact_dropScope (h : Intact t.nodes) (m : NodeId) : Intact (t.dropScope m).nodes :=
  fun k i hk => (contains_dropScope t m i).trans (h k i (scopeOf_dropScope.mp hk).2)

end Drop

/-! ## One change -/

/-- **Every change leaves a forest**, if no scope that is gone comes back. -/
theorem forest_change (h : Forest t.nodes) (hs : t.nodes.Sound) (hn : Unnamed t.nodes)
    {spared : Prop} (hc : Change spared t u) (hlt : u.nodes.cells.length < UInt32.size) :
    Forest u.nodes := by
  cases hc with
  | addRoot => exact forest_addRoot h hs hn hlt
  | addLeaf hp =>
    exact forest_addLeaf h hs hn ((grows_addLeaf ..).cells_lt hlt) hp
  | addScope hm hold => exact forest_addScope h hs hn hm hold hlt
  | write f _ _ => exact h.congr (sameLinks_write ..)
  | addContext value _ _ _ =>
    exact h.congr ((sameLinks_addContext ..).trans (alike_rebindWhere _ _).sameLinks)
  | remove hx _ => exact forest_remove (h.mono nofun) hx
  | clearScope hi hlive =>
    exact forest_remove (forestBut_dropScope h hi) ((contains_dropScope ..).trans hlive)
  | dropScope hold => exact forest_dropScope h hold
  | register x subject _ _ => exact h.congr (alike_register ..).sameLinks
  | unsubscribe id => exact h.congr (alike_unsubscribe ..).sameLinks

/-- A node that was there is there or its cell was vacated since, whatever is done. -/
theorem Change.live_or_stale {spared : Prop} (hc : Change spared t u) (hs : t.nodes.Sound)
    (hlt : u.nodes.cells.length < UInt32.size) {x : NodeId} (hx : t.nodes.contains x = true) :
    u.nodes.contains x = true ∨ u.nodes.Stale x := by
  cases hc with
  | addRoot => exact Or.inl ((contains_addNode hs hlt).mpr (Or.inr hx))
  | addLeaf _ => exact Or.inl ((contains_addLeaf hs hlt).mpr (Or.inr hx))
  | addScope _ _ => exact Or.inl ((contains_addScope hs hlt).mpr (Or.inr hx))
  | write f _ _ => exact Or.inl (((sameLinks_write ..).contains x).trans hx)
  | addContext value _ _ _ =>
    exact Or.inl ((((sameLinks_addContext ..).trans
      (alike_rebindWhere _ _).sameLinks).contains x).trans hx)
  | remove _ _ => exact live_or_stale_remove _ hx
  | @clearScope m i _ _ =>
    exact live_or_stale_remove (t := t.dropScope m) i ((contains_dropScope t m x).trans hx)
  | @dropScope m _ => exact Or.inl ((contains_dropScope t m x).trans hx)
  | register _ _ _ _ => exact Or.inl (((alike_register ..).sameLinks.contains x).trans hx)
  | unsubscribe id => exact Or.inl (((alike_unsubscribe ..).sameLinks.contains x).trans hx)

/-- A scope that is named is there or its cell was vacated since, whatever is done. -/
theorem dated_change (h : Dated t.nodes) (hs : t.nodes.Sound) {spared : Prop}
    (hc : Change spared t u) (hlt : u.nodes.cells.length < UInt32.size) : Dated u.nodes := by
  refine h.of_grows hc.grows (fun k i hk => ?_) fun _ hi => hc.live_or_stale hs hlt hi
  cases hc with
  | addRoot => exact Or.inl ((scopeOf_addNode hs hlt k).symm.trans hk)
  | addLeaf _ => exact Or.inl ((scopeOf_addLeaf hs hlt k).symm.trans hk)
  | addScope hm _ =>
    rw [scopeOf_addScope hs hm hlt] at hk
    split at hk
    · exact Or.inr ((contains_addScope hs hlt).mpr (Or.inl (Option.some.inj hk).symm))
    · exact Or.inl hk
  | write f _ _ => exact Or.inl (((sameLinks_write ..).scope k).symm.trans hk)
  | addContext value _ _ _ =>
    exact Or.inl ((((sameLinks_addContext ..).trans
      (alike_rebindWhere _ _).sameLinks).scope k).symm.trans hk)
  | remove hx _ => exact Or.inl ((scopeOf_remove hx).mp hk).2
  | @clearScope m i _ hlive =>
    have hx : (t.dropScope m).contains i = true := (contains_dropScope t m i).trans hlive
    exact Or.inl (scopeOf_dropScope.mp ((scopeOf_remove hx).mp hk).2).2
  | dropScope _ => exact Or.inl (scopeOf_dropScope.mp hk).2
  | register _ _ _ _ => exact Or.inl (((alike_register ..).sameLinks.scope k).symm.trans hk)
  | unsubscribe id => exact Or.inl (((alike_unsubscribe ..).sameLinks.scope k).symm.trans hk)

/-- A scope that is named is there, if scopes are spared. -/
theorem intact_change (h : Intact t.nodes) (hf : Forest t.nodes) (hs : t.nodes.Sound)
    {spared : Prop} (hspared : spared) (hc : Change spared t u)
    (hlt : u.nodes.cells.length < UInt32.size) : Intact u.nodes := by
  cases hc with
  | addRoot =>
    exact fun m i hm => (contains_addNode hs hlt).mpr
      (Or.inr (h m i ((scopeOf_addNode hs hlt m).symm.trans hm)))
  | addLeaf _ =>
    exact fun m i hm => (contains_addLeaf hs hlt).mpr
      (Or.inr (h m i ((scopeOf_addLeaf hs hlt m).symm.trans hm)))
  | addScope hm _ =>
    intro k i hk
    rw [scopeOf_addScope hs hm hlt] at hk
    split at hk
    · exact (contains_addScope hs hlt).mpr (Or.inl (Option.some.inj hk).symm)
    · exact (contains_addScope hs hlt).mpr (Or.inr (h k i hk))
  | write f _ _ => exact h.congr (sameLinks_write ..)
  | addContext value _ _ _ =>
    exact h.congr ((sameLinks_addContext ..).trans (alike_rebindWhere _ _).sameLinks)
  | remove hx hspare => exact intact_remove (hf.mono nofun) h (hspare hspared) hx
  | @clearScope m i hi hlive =>
    refine intact_remove (forestBut_dropScope hf hi) (intact_dropScope h m) (fun k hk => ?_)
      ((contains_dropScope ..).trans hlive)
    obtain ⟨hkm, hk⟩ := scopeOf_dropScope.mp hk
    exact hkm (hf.scope_owner hk hi hlive)
  | dropScope _ => exact intact_dropScope h _
  | register x subject _ _ => exact h.congr (alike_register ..).sameLinks
  | unsubscribe id => exact h.congr (alike_unsubscribe ..).sameLinks

/-! ## Runs -/

namespace Run

variable {log : List Exchange} {globalId : String} {value : Value} {registry : Registry}

/-- **The nodes form a forest after every run** in which no cell is vacated so often that its
generations begin again. -/
theorem forest {allowed : Tree → Call → Prop}
    (h : Run allowed (.new globalId value registry) log t)
    (hlt : t.nodes.cells.length < UInt32.size) (hl : t.nodes.Lasting) :
    Forest t.nodes ∧ Dated t.nodes := by
  have key : Coherent t ∧ (t.nodes.Lasting → Forest t.nodes ∧ Dated t.nodes) := by
    refine h.keeps_tree (P := fun t => Coherent t ∧ (t.nodes.Lasting → Forest t.nodes ∧
      Dated t.nodes)) hlt ⟨coherent_new .., fun _ => ⟨forest_empty, nofun⟩⟩ ?_
    intro _ _ s u _ hc hlt ⟨hs, hf⟩
    refine ⟨hs.change hc hlt, fun hl => ?_⟩
    have hslt := hc.grows.cells_lt hlt
    have hsl : s.nodes.Lasting := hc.grows.lasting (Nat.le_of_lt hslt) hl
    obtain ⟨hforest, hdated⟩ := hf hsl
    exact ⟨forest_change hforest hs.sound (hdated.unnamed hsl hs.sound hslt) hc hlt,
      dated_change hdated hs.sound hc hlt⟩
  exact key.2 hl

end Run

/-- The links agree and lead to nodes that are there, and the index is right. -/
structure Tidy (t : Tree) : Prop extends Coherent t where
  forest : Forest t.nodes
  intact : Intact t.nodes

theorem tidy_new (globalId : String) (value : Value) (registry : Registry) :
    Tidy (Tree.new globalId value registry) :=
  ⟨coherent_new .., forest_empty, nofun⟩

/-- **Changes that spare scopes keep a tree tidy.** -/
theorem Tidy.change (h : Tidy t) {spared : Prop} (hspared : spared) (hc : Change spared t u)
    (hlt : u.nodes.cells.length < UInt32.size) : Tidy u :=
  have hold := hc.grows.cells_lt hlt
  ⟨h.toCoherent.change hc hlt,
    forest_change h.forest h.sound (h.intact.unnamed h.sound hold) hc hlt,
    intact_change h.intact h.forest h.sound hspared hc hlt⟩

end DataBinding.Scope
