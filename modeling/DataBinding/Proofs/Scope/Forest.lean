import DataBinding.Proofs.Arena
import DataBinding.Scope.Nodes

/-!
# The nodes form a forest

A node has a parent, children and at most one implicit scope. The links agree: a child names the
node as its parent, an implicit scope has the parent of its node and is listed as nobody's child,
and every node with a parent is a child or an implicit scope. Only the link to an implicit scope may
lead to a node that is gone.

* `Forest`: the agreement of the links; `ForestBut`: the same while some nodes hang loose.
* `ForestBut.alloc`, `ForestBut.adopt`, `ForestBut.link`: a new node, and hanging it in.
* `ForestBut.fewer`: links that are taken away; `ForestBut.dropScope`, `ForestBut.unlist`: taking a
  node out of its place.
-/

namespace DataBinding.Scope

variable {a b nodes : Arena Node} {loose : NodeId → Prop}

/-! ## Links -/

/-- The parent of a node. -/
def parentOf (nodes : Arena Node) (x : NodeId) : Option NodeId :=
  (nodes.get? x).bind (·.parent)

/-- The implicit scope that a node names, whether it is there or not. -/
def scopeOf (nodes : Arena Node) (x : NodeId) : Option NodeId :=
  (nodes.get? x).bind (·.implicit)

/-- The children of a node. -/
def childrenOf (nodes : Arena Node) (x : NodeId) : List NodeId :=
  ((nodes.get? x).map (·.children)).getD []

theorem contains_of_parentOf {x p : NodeId} (h : parentOf nodes x = some p) :
    nodes.contains x = true := by
  obtain ⟨n, hn, -⟩ := Option.bind_eq_some_iff.mp h
  exact Arena.contains_of_get? hn

theorem contains_of_scopeOf {x i : NodeId} (h : scopeOf nodes x = some i) :
    nodes.contains x = true := by
  obtain ⟨n, hn, -⟩ := Option.bind_eq_some_iff.mp h
  exact Arena.contains_of_get? hn

theorem contains_of_mem_childrenOf {x y : NodeId} (h : y ∈ childrenOf nodes x) :
    nodes.contains x = true := by
  cases hx : nodes.get? x with
  | none =>
    rw [childrenOf, hx] at h
    cases h
  | some n => exact Arena.contains_of_get? hx

theorem parentOf_of_get? {x : NodeId} {n : Node} (h : nodes.get? x = some n) :
    parentOf nodes x = n.parent := by
  rw [parentOf, h, Option.bind_some]

theorem scopeOf_of_get? {x : NodeId} {n : Node} (h : nodes.get? x = some n) :
    scopeOf nodes x = n.implicit := by
  rw [scopeOf, h, Option.bind_some]

theorem childrenOf_of_get? {x : NodeId} {n : Node} (h : nodes.get? x = some n) :
    childrenOf nodes x = n.children := by
  rw [childrenOf, h, Option.map_some, Option.getD_some]

/-- Two arenas with the same nodes, linked in the same way. -/
structure SameLinks (a b : Arena Node) : Prop where
  contains : ∀ x, b.contains x = a.contains x
  parent : ∀ x, parentOf b x = parentOf a x
  scope : ∀ x, scopeOf b x = scopeOf a x
  children : ∀ x, childrenOf b x = childrenOf a x

theorem SameLinks.refl (a : Arena Node) : SameLinks a a :=
  ⟨fun _ => rfl, fun _ => rfl, fun _ => rfl, fun _ => rfl⟩

theorem SameLinks.trans {c : Arena Node} (h : SameLinks a b) (h' : SameLinks b c) :
    SameLinks a c :=
  ⟨fun x => (h'.contains x).trans (h.contains x), fun x => (h'.parent x).trans (h.parent x),
    fun x => (h'.scope x).trans (h.scope x), fun x => (h'.children x).trans (h.children x)⟩

/-- A change that `g` does not see is not seen in what `g` reads of a node. -/
theorem get?_modify_unseen {β : Type} (a : Arena Node) (id : NodeId) {f : Node → Node}
    {g : Option Node → β} (hf : ∀ n, g (some (f n)) = g (some n)) (x : NodeId) :
    g ((a.modify id f).get? x) = g (a.get? x) := by
  rw [Arena.get?_modify]
  split
  · rename_i hx
    rw [hx]
    cases a.get? id with
    | none => rfl
    | some n => exact hf n
  · rfl

theorem contains_modify (a : Arena Node) (id : NodeId) (f : Node → Node) (x : NodeId) :
    (a.modify id f).contains x = a.contains x :=
  get?_modify_unseen (f := f) (g := Option.isSome) a id (fun _ => rfl) x

theorem parentOf_modify (a : Arena Node) (id : NodeId) {f : Node → Node}
    (hf : ∀ n, (f n).parent = n.parent) (x : NodeId) :
    parentOf (a.modify id f) x = parentOf a x :=
  get?_modify_unseen (g := (Option.bind · Node.parent)) a id hf x

theorem scopeOf_modify (a : Arena Node) (id : NodeId) {f : Node → Node}
    (hf : ∀ n, (f n).implicit = n.implicit) (x : NodeId) :
    scopeOf (a.modify id f) x = scopeOf a x :=
  get?_modify_unseen (g := (Option.bind · Node.implicit)) a id hf x

theorem childrenOf_modify (a : Arena Node) (id : NodeId) {f : Node → Node}
    (hf : ∀ n, (f n).children = n.children) (x : NodeId) :
    childrenOf (a.modify id f) x = childrenOf a x :=
  get?_modify_unseen (g := fun n => (n.map Node.children).getD []) a id hf x

theorem sameLinks_modify (a : Arena Node) (id : NodeId) {f : Node → Node}
    (hf : ∀ n, (f n).parent = n.parent ∧ (f n).implicit = n.implicit ∧
      (f n).children = n.children) : SameLinks a (a.modify id f) :=
  ⟨contains_modify a id f, parentOf_modify a id fun n => (hf n).1,
    scopeOf_modify a id fun n => (hf n).2.1, childrenOf_modify a id fun n => (hf n).2.2⟩

theorem sameLinks_map (a : Arena Node) {f : Node → Node}
    (hf : ∀ n, (f n).parent = n.parent ∧ (f n).implicit = n.implicit ∧
      (f n).children = n.children) : SameLinks a (a.map f) where
  contains x := by
    rw [Arena.contains, Arena.contains, Arena.get?_map, Option.isSome_map]
  parent x := by
    rw [parentOf, parentOf, Arena.get?_map]
    cases a.get? x with
    | none => rfl
    | some n => exact (hf n).1
  scope x := by
    rw [scopeOf, scopeOf, Arena.get?_map]
    cases a.get? x with
    | none => rfl
    | some n => exact (hf n).2.1
  children x := by
    rw [childrenOf, childrenOf, Arena.get?_map]
    cases a.get? x with
    | none => rfl
    | some n => exact (hf n).2.2

/-! ## The forest -/

/-- Numbers for the nodes that show that links never come back: going to the parent lowers the
depth, going to an implicit scope keeps it and raises the level. -/
structure Ranked (nodes : Arena Node) (depth level : NodeId → Nat) : Prop where
  parent : ∀ {x p}, parentOf nodes x = some p → depth p < depth x
  scope : ∀ {m i}, scopeOf nodes m = some i → nodes.contains i = true →
    depth i = depth m ∧ level m < level i

/-- The links agree, except that the nodes in `loose` need not be anyone's child or scope. -/
structure ForestBut (nodes : Arena Node) (loose : NodeId → Prop) : Prop where
  parent_live : ∀ {x p}, parentOf nodes x = some p → nodes.contains p = true
  parent_of_child : ∀ {p x}, x ∈ childrenOf nodes p → parentOf nodes x = some p
  hangs : ∀ {x p}, parentOf nodes x = some p → ¬ loose x →
    x ∈ childrenOf nodes p ∨ ∃ m, scopeOf nodes m = some x
  scope_parent : ∀ {m i}, scopeOf nodes m = some i → nodes.contains i = true →
    parentOf nodes i = parentOf nodes m
  scope_owner : ∀ {m m' i}, scopeOf nodes m = some i → scopeOf nodes m' = some i →
    nodes.contains i = true → m = m'
  scope_not_child : ∀ {m i p}, scopeOf nodes m = some i → i ∉ childrenOf nodes p
  ranked : ∃ depth level, Ranked nodes depth level

/-- The links agree. -/
abbrev Forest (nodes : Arena Node) : Prop :=
  ForestBut nodes fun _ => False

theorem get?_empty (x : NodeId) : ({} : Arena Node).get? x = none := by
  simp [Arena.get?]

theorem forest_empty : Forest {} where
  parent_live h := by simp [parentOf, get?_empty] at h
  parent_of_child h := by simp [childrenOf, get?_empty] at h
  hangs h := by simp [parentOf, get?_empty] at h
  scope_parent h := by simp [scopeOf, get?_empty] at h
  scope_owner h := by simp [scopeOf, get?_empty] at h
  scope_not_child h := by simp [scopeOf, get?_empty] at h
  ranked := ⟨fun _ => 0, fun _ => 0, fun h => by simp [parentOf, get?_empty] at h,
    fun h => by simp [scopeOf, get?_empty] at h⟩

/-- Links that are taken away leave the others in agreement, if what hung by them is loose then. -/
theorem ForestBut.fewer {loose' : NodeId → Prop} (h : ForestBut a loose)
    (hcon : ∀ x, b.contains x = a.contains x) (hpar : ∀ x, parentOf b x = parentOf a x)
    (hchi : ∀ {p x}, x ∈ childrenOf b p → x ∈ childrenOf a p)
    (hsco : ∀ {m i}, scopeOf b m = some i → scopeOf a m = some i)
    (hangs : ∀ {x p}, parentOf a x = some p → ¬ loose' x →
      x ∈ childrenOf b p ∨ ∃ m, scopeOf b m = some x) : ForestBut b loose' where
  parent_live hp := by
    rw [hpar] at hp
    rw [hcon]
    exact h.parent_live hp
  parent_of_child hx := by
    rw [hpar]
    exact h.parent_of_child (hchi hx)
  hangs hp hx := by
    rw [hpar] at hp
    exact hangs hp hx
  scope_parent hm hi := by
    rw [hcon] at hi
    rw [hpar, hpar]
    exact h.scope_parent (hsco hm) hi
  scope_owner hm hm' hi := by
    rw [hcon] at hi
    exact h.scope_owner (hsco hm) (hsco hm') hi
  scope_not_child hm hx := h.scope_not_child (hsco hm) (hchi hx)
  ranked := by
    obtain ⟨depth, level, hr⟩ := h.ranked
    refine ⟨depth, level, fun hp => ?_, fun hm hi => ?_⟩
    · rw [hpar] at hp
      exact hr.parent hp
    · rw [hcon] at hi
      exact hr.scope (hsco hm) hi

theorem ForestBut.mono {loose' : NodeId → Prop} (h : ForestBut nodes loose)
    (hl : ∀ x, loose x → loose' x) : ForestBut nodes loose' :=
  h.fewer (fun _ => rfl) (fun _ => rfl) id id fun hp hn => h.hangs hp fun hx => hn (hl _ hx)

/-- Loose nodes that hang somewhere after all are not loose. -/
theorem ForestBut.settle (h : ForestBut nodes loose)
    (hl : ∀ {x p}, loose x → parentOf nodes x = some p →
      x ∈ childrenOf nodes p ∨ ∃ m, scopeOf nodes m = some x) : Forest nodes := by
  refine h.fewer (fun _ => rfl) (fun _ => rfl) id id fun {x p} hp _ => ?_
  by_cases hx : loose x
  · exact hl hx hp
  · exact h.hangs hp hx

theorem ForestBut.congr (h : ForestBut a loose) (hs : SameLinks a b) : ForestBut b loose := by
  refine h.fewer hs.contains hs.parent (fun hx => ?_) (fun hm => ?_) fun hp hx => ?_
  · rwa [hs.children] at hx
  · rwa [hs.scope] at hm
  · simp only [hs.children, hs.scope]
    exact h.hangs hp hx

/-! ## A new node -/

section Alloc

variable {n : Node}

theorem contains_alloc (hs : a.Sound) (hlt : (a.alloc n).2.cells.length ≤ UInt32.size)
    {x : NodeId} : (a.alloc n).2.contains x = true ↔ x = a.nextId ∨ a.contains x = true := by
  rw [Arena.contains, Arena.get?_alloc hs n hlt]
  by_cases hx : x = a.nextId
  · simp [hx]
  · simp [hx, Arena.contains]

theorem parentOf_alloc (hs : a.Sound) (hlt : (a.alloc n).2.cells.length ≤ UInt32.size)
    (x : NodeId) :
    parentOf (a.alloc n).2 x = if x = a.nextId then n.parent else parentOf a x := by
  rw [parentOf, Arena.get?_alloc hs n hlt]
  split
  · rw [Option.bind_some]
  · rfl

theorem scopeOf_alloc (hs : a.Sound) (hlt : (a.alloc n).2.cells.length ≤ UInt32.size)
    (hnew : a.get? a.nextId = none) (hi : n.implicit = none) (x : NodeId) :
    scopeOf (a.alloc n).2 x = scopeOf a x := by
  rw [scopeOf, Arena.get?_alloc hs n hlt]
  split
  · rename_i hx
    rw [Option.bind_some, hi, hx, scopeOf, hnew, Option.bind_none]
  · rfl

theorem childrenOf_alloc (hs : a.Sound) (hlt : (a.alloc n).2.cells.length ≤ UInt32.size)
    (hnew : a.get? a.nextId = none) (hc : n.children = []) (x : NodeId) :
    childrenOf (a.alloc n).2 x = childrenOf a x := by
  rw [childrenOf, Arena.get?_alloc hs n hlt]
  split
  · rename_i hx
    rw [Option.map_some, hc, hx, childrenOf, hnew, Option.map_none]
    rfl
  · rfl

/-- A new node without links of its own but to a parent hangs loose. -/
theorem ForestBut.alloc (h : ForestBut a loose) (hs : a.Sound)
    (hlt : (a.alloc n).2.cells.length ≤ UInt32.size) (hnew : a.get? a.nextId = none)
    (hfree : ∀ m, scopeOf a m ≠ some a.nextId) (hp : ∀ p, n.parent = some p → a.contains p = true)
    (hi : n.implicit = none) (hc : n.children = []) :
    ForestBut (a.alloc n).2 fun x => loose x ∨ x = a.nextId := by
  have hlive : ∀ x, a.contains x = true → x ≠ a.nextId := by
    rintro x hx rfl
    rw [Arena.contains, hnew] at hx
    cases hx
  have hcon := fun x => contains_alloc (n := n) hs hlt (x := x)
  have hpar := parentOf_alloc (n := n) hs hlt
  have hsco := scopeOf_alloc hs hlt hnew hi
  have hchi := childrenOf_alloc hs hlt hnew hc
  constructor
  case parent_live =>
    intro x p hx
    rw [hpar] at hx
    split at hx
    · exact (hcon p).mpr (Or.inr (hp p hx))
    · exact (hcon p).mpr (Or.inr (h.parent_live hx))
  case parent_of_child =>
    intro p x hx
    rw [hchi] at hx
    have hxp := h.parent_of_child hx
    rw [hpar, if_neg (hlive x (contains_of_parentOf hxp))]
    exact hxp
  case hangs =>
    intro x p hx hl
    rw [not_or] at hl
    rw [hpar, if_neg hl.2] at hx
    simp only [hchi, hsco]
    exact h.hangs hx hl.1
  case scope_parent =>
    intro m i hm hi'
    rw [hsco] at hm
    have him : i ≠ a.nextId := fun he => hfree m (he ▸ hm)
    have hii := ((hcon i).mp hi').resolve_left him
    rw [hpar, hpar, if_neg him, if_neg (hlive m (contains_of_scopeOf hm))]
    exact h.scope_parent hm hii
  case scope_owner =>
    intro m m' i hm hm' hi'
    rw [hsco] at hm hm'
    have him : i ≠ a.nextId := fun he => hfree m (he ▸ hm)
    exact h.scope_owner hm hm' (((hcon i).mp hi').resolve_left him)
  case scope_not_child =>
    intro m i p hm
    rw [hsco] at hm
    rw [hchi]
    exact h.scope_not_child hm
  case ranked =>
    obtain ⟨depth, level, hr⟩ := h.ranked
    refine ⟨fun x => if x = a.nextId then (n.parent.elim 0 fun p => depth p + 1) else depth x,
      level, fun {x p} hx => ?_, fun {m i} hm hi' => ?_⟩
    · rw [hpar] at hx
      split at hx
      · rename_i he
        rw [if_pos he, if_neg (hlive p (hp p hx)), hx]
        exact Nat.lt_succ_self _
      · rename_i he
        rw [if_neg he, if_neg (hlive p (h.parent_live hx))]
        exact hr.parent hx
    · rw [hsco] at hm
      have him : i ≠ a.nextId := fun he => hfree m (he ▸ hm)
      rw [if_neg him, if_neg (hlive m (contains_of_scopeOf hm))]
      exact hr.scope hm (((hcon i).mp hi').resolve_left him)

end Alloc

/-! ## Hanging a node in -/

/-- A loose node becomes a child of its parent. -/
theorem ForestBut.adopt {p y : NodeId} (h : ForestBut a fun x => loose x ∨ x = y)
    (hy : parentOf a y = some p) (hsc : ∀ m, scopeOf a m ≠ some y) :
    ForestBut (a.modify p fun n => { n with children := n.children ++ [y] }) loose := by
  have hpar := parentOf_modify a p (f := fun n => { n with children := n.children ++ [y] })
    fun _ => rfl
  have hsco := scopeOf_modify a p (f := fun n => { n with children := n.children ++ [y] })
    fun _ => rfl
  have hcon := contains_modify a p fun n => { n with children := n.children ++ [y] }
  have hchi : ∀ x q, x ∈ childrenOf (a.modify p fun n => { n with children := n.children ++ [y] }) q
      ↔ x ∈ childrenOf a q ∨ q = p ∧ x = y := by
    intro x q
    rw [childrenOf, Arena.get?_modify]
    by_cases hq : q = p
    · obtain ⟨n, hn⟩ := Arena.contains_iff.mp (h.parent_live hy)
      rw [if_pos hq, hn, hq, childrenOf_of_get? hn]
      simp
    · rw [if_neg hq]
      simp [hq, childrenOf]
  constructor
  case parent_live =>
    intro x q hx
    rw [hpar] at hx
    rw [hcon]
    exact h.parent_live hx
  case parent_of_child =>
    intro q x hx
    rw [hpar]
    rcases (hchi x q).mp hx with hx | ⟨rfl, rfl⟩
    · exact h.parent_of_child hx
    · exact hy
  case hangs =>
    intro x q hx hl
    rw [hpar] at hx
    simp only [hchi, hsco]
    by_cases hxy : x = y
    · subst hxy
      rw [hy] at hx
      exact Or.inl (Or.inr ⟨(Option.some.inj hx).symm, rfl⟩)
    · rcases h.hangs hx (not_or.mpr ⟨hl, hxy⟩) with hc | hs
      · exact Or.inl (Or.inl hc)
      · exact Or.inr hs
  case scope_parent =>
    intro m i hm hi
    rw [hsco] at hm
    rw [hcon] at hi
    rw [hpar, hpar]
    exact h.scope_parent hm hi
  case scope_owner =>
    intro m m' i hm hm' hi
    rw [hsco] at hm hm'
    rw [hcon] at hi
    exact h.scope_owner hm hm' hi
  case scope_not_child =>
    intro m i q hm hi
    rw [hsco] at hm
    rcases (hchi i q).mp hi with hi | ⟨-, rfl⟩
    · exact h.scope_not_child hm hi
    · exact hsc m hm
  case ranked =>
    obtain ⟨depth, level, hr⟩ := h.ranked
    refine ⟨depth, level, fun hx => ?_, fun hm hi => ?_⟩
    · rw [hpar] at hx
      exact hr.parent hx
    · rw [hsco] at hm
      rw [hcon] at hi
      exact hr.scope hm hi

theorem scopeOf_link {m : NodeId} (hm : a.contains m = true) (y k : NodeId) :
    scopeOf (a.modify m fun n => { n with implicit := some y }) k =
      if k = m then some y else scopeOf a k := by
  obtain ⟨n, hn⟩ := Arena.contains_iff.mp hm
  rw [scopeOf, Arena.get?_modify, hn]
  split <;> rfl

/-- A loose node that nothing hangs from becomes the implicit scope of a node without one. -/
theorem ForestBut.link {m y : NodeId} (h : ForestBut a fun x => loose x ∨ x = y)
    (hm : a.contains m = true) (hne : y ≠ m)
    (hold : ∀ i, scopeOf a m = some i → ¬ a.contains i = true) (hpy : parentOf a y = parentOf a m)
    (hch : ∀ q, y ∉ childrenOf a q) (hsc : ∀ k, scopeOf a k ≠ some y)
    (hpa : ∀ k, parentOf a k ≠ some y) (hyy : scopeOf a y = none) :
    ForestBut (a.modify m fun n => { n with implicit := some y }) loose := by
  have hpar := parentOf_modify a m (f := fun n => { n with implicit := some y }) fun _ => rfl
  have hchi := childrenOf_modify a m (f := fun n => { n with implicit := some y }) fun _ => rfl
  have hcon := contains_modify a m fun n => { n with implicit := some y }
  have hsco := scopeOf_link hm y
  constructor
  case parent_live =>
    intro x q hx
    rw [hpar] at hx
    rw [hcon]
    exact h.parent_live hx
  case parent_of_child =>
    intro q x hx
    rw [hchi] at hx
    rw [hpar]
    exact h.parent_of_child hx
  case hangs =>
    intro x q hx hl
    rw [hpar] at hx
    simp only [hchi, hsco]
    by_cases hxy : x = y
    · exact Or.inr ⟨m, by rw [if_pos rfl, hxy]⟩
    · rcases h.hangs hx (not_or.mpr ⟨hl, hxy⟩) with hc | ⟨k, hk⟩
      · exact Or.inl hc
      · have hkm : k ≠ m := fun he => hold x (he ▸ hk) (contains_of_parentOf hx)
        exact Or.inr ⟨k, by rw [if_neg hkm, hk]⟩
  case scope_parent =>
    intro k i hk hi
    rw [hsco] at hk
    rw [hcon] at hi
    rw [hpar, hpar]
    split at hk
    · rename_i hkm
      obtain rfl := Option.some.inj hk
      rw [hkm, hpy]
    · exact h.scope_parent hk hi
  case scope_owner =>
    intro k k' i hk hk' hi
    rw [hsco] at hk hk'
    rw [hcon] at hi
    split at hk <;> split at hk'
    · rename_i he he'
      rw [he, he']
    · exact absurd (Option.some.inj hk ▸ hk') (hsc k')
    · exact absurd (Option.some.inj hk' ▸ hk) (hsc k)
    · exact h.scope_owner hk hk' hi
  case scope_not_child =>
    intro k i q hk
    rw [hsco] at hk
    rw [hchi]
    split at hk
    · exact Option.some.inj hk ▸ hch q
    · exact h.scope_not_child hk
  case ranked =>
    obtain ⟨depth, level, hr⟩ := h.ranked
    refine ⟨fun x => if x = y then depth m else depth x,
      fun x => if x = y then level m + 1 else level x, fun {x p} hx => ?_, fun {k i} hk hi => ?_⟩
    · rw [hpar] at hx
      have hp : p ≠ y := fun he => hpa x (he ▸ hx)
      rw [if_neg hp]
      split
      · rename_i he
        exact hr.parent (hpy ▸ he ▸ hx)
      · exact hr.parent hx
    · rw [hsco] at hk
      rw [hcon] at hi
      split at hk
      · rename_i he
        rw [he, if_pos (Option.some.inj hk).symm, if_pos (Option.some.inj hk).symm,
          if_neg hne.symm, if_neg hne.symm]
        exact ⟨rfl, Nat.lt_succ_self _⟩
      · have hiy : i ≠ y := fun he => hsc k (he ▸ hk)
        have hky : k ≠ y := fun he => by
          rw [he, hyy] at hk
          cases hk
        rw [if_neg hiy, if_neg hiy, if_neg hky, if_neg hky]
        exact hr.scope hk hi

/-! ## Taking a node out of its place -/

theorem scopeOf_dropScope {m k i : NodeId} :
    scopeOf (a.modify m fun n => { n with implicit := none }) k = some i ↔
      k ≠ m ∧ scopeOf a k = some i := by
  rw [scopeOf, Arena.get?_modify]
  by_cases hk : k = m
  · rw [if_pos hk]
    cases a.get? m <;> simp [hk]
  · simp [hk, scopeOf]

/-- A node lets go of its implicit scope, which hangs loose then. -/
theorem ForestBut.dropScope {m : NodeId} (h : ForestBut a loose) :
    ForestBut (a.modify m fun n => { n with implicit := none })
      fun x => loose x ∨ scopeOf a m = some x := by
  have hchi := childrenOf_modify a m (f := fun n => { n with implicit := none }) fun _ => rfl
  refine h.fewer (contains_modify a m _) (parentOf_modify a m fun _ => rfl) (fun {p x} hx => ?_)
    (fun hk => (scopeOf_dropScope.mp hk).2) fun {x p} hp hx => ?_
  · rwa [hchi] at hx
  · rw [not_or] at hx
    rw [hchi]
    rcases h.hangs hp hx.1 with hc | ⟨k, hk⟩
    · exact Or.inl hc
    · exact Or.inr ⟨k, scopeOf_dropScope.mpr ⟨fun he => hx.2 (he ▸ hk), hk⟩⟩

/-- A child is struck off the list of its parent, and hangs loose then. -/
theorem ForestBut.unlist {p y : NodeId} (h : ForestBut a loose) :
    ForestBut (a.modify p fun n => { n with children := n.children.filter (· != y) })
      fun x => loose x ∨ x = y := by
  have hsco := scopeOf_modify a p
    (f := fun n => { n with children := n.children.filter (· != y) }) fun _ => rfl
  have hchi : ∀ x q,
      x ∈ childrenOf (a.modify p fun n => { n with children := n.children.filter (· != y) }) q ↔
        x ∈ childrenOf a q ∧ (q = p → x ≠ y) := by
    intro x q
    rw [childrenOf, Arena.get?_modify]
    by_cases hq : q = p
    · rw [if_pos hq, hq, childrenOf]
      cases a.get? p <;> simp
    · rw [if_neg hq]
      simp [hq, childrenOf]
  refine h.fewer (contains_modify a p _) (parentOf_modify a p fun _ => rfl)
    (fun hx => ((hchi _ _).mp hx).1) (fun {m i} hm => ?_) fun {x q} hp hx => ?_
  · rwa [hsco] at hm
  · rw [not_or] at hx
    simp only [hchi, hsco]
    rcases h.hangs hp hx.1 with hc | hs
    · exact Or.inl ⟨hc, fun _ => hx.2⟩
    · exact Or.inr hs

end DataBinding.Scope
