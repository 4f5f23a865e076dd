import DataBinding.Proofs.Scope.FanOut
import DataBinding.Proofs.Scope.Fresh
import DataBinding.Proofs.Expr.Reads

/-!
# Observers know what they see

The observer of an expression was last told the value that the expression has now. Every call tells
it of the change that it made or leaves all values as they are that the expression refers to: an
observer that a call does not tell has no target among the contexts that were written or went away,
before or after.

* `quiet_set`, `quiet_remove`, `quiet_clearScope`: what an observer sees that is not told.
* `Current`: every observer was last told what it sees; `Current.call`: a call keeps it so.
* `Run.lastTold_eq`: so it is after every run.
-/

namespace DataBinding.Scope

variable {t u : Tree} {x : NodeId} {c : String}

/-! ## Values that stay -/

theorem value?_congr (ho : u.owner? x c = t.owner? x c)
    (hs : ∀ o, t.owner? x c = some o →
      (u.slot? ⟨o, c⟩).map (·.value) = (t.slot? ⟨o, c⟩).map (·.value)) :
    u.value? x c = t.value? x c := by
  rw [Tree.value?, Tree.value?, ho]
  cases h : t.owner? x c with
  | none => rfl
  | some o => exact hs o h

theorem value?_congr_slot (ho : u.owner? x c = t.owner? x c)
    (hs : ∀ T, u.slot? T = t.slot? T) : u.value? x c = t.value? x c :=
  value?_congr ho fun o _ => by rw [hs]

theorem eval_congr (hr : u.registry = t.registry) {e : Expr}
    (h : ∀ c ∈ contextsOf e, u.value? x c = t.value? x c) : u.eval x e = t.eval x e := by
  have hr' : (Env.mk (u.value? x) u.registry).registry =
    (Env.mk (t.value? x) t.registry).registry := hr
  refine Expr.eval_congr hr' fun b hb => ?_
  exact h b.context (mem_distinct.mpr (List.mem_map_of_mem hb))

/-! ## Observers that are not told -/

section Set

variable {w : Watch}

theorem mem_targets_of_owner? (hf : Fresh u) (hw : w ∈ u.watches) (hc : c ∈ w.contexts) {o : Owner}
    (ho : u.owner? w.subscriber c = some o) : (⟨o, c⟩ : Target) ∈ w.targets := by
  rw [hf.targets w hw]
  exact Tree.mem_resolve.mpr ⟨hc, ho⟩

theorem not_mem_targets_of_quiet (hu : Coherent u) {T : Target} (hT : T.Proper u.globalId)
    (hs : (u.slot? T).isSome = true) (hw : w ∈ u.watches)
    (hquiet : w.id ∉ (u.notify T).deliveries.map (·.observer)) : T ∉ w.targets := by
  obtain ⟨s, hs⟩ := Option.isSome_iff_exists.mp hs
  rw [(tells_notify hu.indexed hT hs).observers, Tree.mem_listeners] at hquiet
  exact fun hm => hquiet ⟨w, hw, rfl, hm⟩

/-- Who is not told of a write does not see the context that was written. -/
theorem quiet_write (ht : Coherent t) {T : Target} (hT : T.Proper t.globalId)
    (hs : (t.slot? T).isSome = true) (f : Value → Value) (hf : Fresh (t.write T f))
    (hw : w ∈ (t.write T f).watches)
    (hquiet : w.id ∉ ((t.write T f).notify T).deliveries.map (·.observer)) (hc : c ∈ w.contexts) :
    (t.write T f).value? w.subscriber c = t.value? w.subscriber c := by
  have howner : (t.write T f).owner? w.subscriber c = t.owner? w.subscriber c :=
    owner?_write hT f w.subscriber c
  have hnot := not_mem_targets_of_quiet (ht.write hT f)
    ((Tree.globalId_modifySlot t T _).symm ▸ hT) (isSome_slot?_write hT hs f) hw hquiet
  refine value?_congr howner fun o ho => ?_
  rw [Tree.slot?_write hT (Tree.proper_of_owner? ho), if_neg]
  rintro rfl
  exact hnot (mem_targets_of_owner? hf hw hc (howner.trans ho))

/-- Nor does who is not told of a new context see that. -/
theorem quiet_addContext (ht : Coherent t) {y : NodeId} {d : String} (value : Value)
    (hd : d ≠ t.globalId) (hy : t.nodes.contains y = true) (hgone : t.slot? ⟨.node y, d⟩ = none)
    (hf : Fresh ((t.addContext y d value).rebindWhere fun w => d ∈ w.contexts).1)
    (hw : w ∈ ((t.addContext y d value).rebindWhere fun w => d ∈ w.contexts).1.watches)
    (hquiet : w.id ∉ (((t.addContext y d value).rebindWhere fun w => d ∈ w.contexts).1.notify
      ⟨.node y, d⟩).deliveries.map (·.observer)) (hc : c ∈ w.contexts) :
    ((t.addContext y d value).rebindWhere fun w => d ∈ w.contexts).1.value? w.subscriber c =
      t.value? w.subscriber c := by
  have hlike := alike_rebindWhere (t.addContext y d value) fun w => d ∈ w.contexts
  have hnot : (⟨.node y, d⟩ : Target) ∉ w.targets := by
    refine not_mem_targets_of_quiet ((ht.addContext hgone value).rebindWhere _)
      Target.proper_node ?_ hw hquiet
    rw [hlike.slot?_isSome, Tree.slot?_addContext, if_pos ⟨rfl, hy⟩]
    rfl
  have howner : (t.addContext y d value).owner? w.subscriber c = t.owner? w.subscriber c := by
    by_cases hcd : c = d
    · subst hcd
      refine (owner?_addContext_self hd hy value w.subscriber).resolve_left fun ho => ?_
      exact hnot (mem_targets_of_owner? hf hw hc ((hlike.owner? ..).trans ho))
    · exact owner?_addContext hcd y value w.subscriber
  rw [hlike.value?]
  refine value?_congr howner fun o ho => ?_
  rw [Tree.slot?_addContext, if_neg]
  rintro ⟨he, -⟩
  have := Tree.slot?_of_owner? ho
  rw [he, hgone] at this
  cases this

/-- Who is not told when a context is set sees what it saw. -/
theorem quiet_set (ht : Coherent t) (y : NodeId) (d : String) (value : Value)
    (hf : Fresh (t.set y d value).tree) (hw : w ∈ (t.set y d value).tree.watches)
    (hquiet : w.id ∉ (t.set y d value).trace.deliveries.map (·.observer)) (hc : c ∈ w.contexts) :
    (t.set y d value).tree.value? w.subscriber c = t.value? w.subscriber c := by
  obtain hs | ⟨T, -, hT, hlive, -, hs⟩ | ⟨hd, hy, hgone, hs⟩ := t.set_cases y d value <;>
    rw [hs] at hf hw hquiet ⊢
  · rfl
  · exact quiet_write ht hT hlive _ hf hw hquiet hc
  · exact quiet_addContext ht value hd hy hgone hf hw hquiet hc

end Set

section Remove

variable {y : NodeId}

theorem value?_cut (hslot : ∀ T, u.slot? T = t.slot? T)
    (howner : (u.cut x).owner? y c = t.owner? y c) : (u.cut x).value? y c = t.value? y c := by
  refine value?_congr howner fun o ho => ?_
  have hlive := Tree.slot?_of_owner? (howner.trans ho)
  rw [Tree.slot?_cut] at hlive ⊢
  split
  · rename_i hgone
    rw [if_pos hgone] at hlive
    cases hlive
  · rw [hslot]

/-- Removal that spares scopes leaves what the others see. -/
theorem quiet_remove (ht : Tidy t) (hx : t.contains x = true)
    (hspare : ∀ m, scopeOf t.nodes m ≠ some x)
    (hlive : (t.remove x).tree.nodes.contains y = true) :
    (t.remove x).tree.value? y c = t.value? y c := by
  obtain ⟨hy, hylive⟩ := (contains_remove hx).mp hlive
  rw [(alike_remove hx).value?]
  exact value?_cut (fun _ => rfl) (owner?_cut (ht.forest.mono nofun) ht.intact hspare hy hylive)

/-- Who is not told when an implicit scope goes had no target there. -/
theorem quiet_clearScope (ht : Tidy t) (hft : Fresh t) {m i : NodeId}
    (hi : scopeOf t.nodes m = some i) (hlive : t.nodes.contains i = true) {v w : Watch}
    (hv : v ∈ t.watches) (hw : w ∈ ((t.dropScope m).remove i).tree.watches) (hsame : SameWatch v w)
    (hf : Fresh ((t.dropScope m).remove i).tree)
    (hquiet : w.id ∉ ((t.dropScope m).remove i).trace.deliveries.map (·.observer))
    (hc : c ∈ w.contexts) :
    ((t.dropScope m).remove i).tree.value? w.subscriber c = t.value? w.subscriber c := by
  have hx : (t.dropScope m).contains i = true := (contains_dropScope t m i).trans hlive
  have hcoh := ht.toCoherent.dropScope m
  obtain ⟨hy, hylive⟩ := (contains_remove hx).mp (hf.seated w hw)
  rw [contains_dropScope] at hylive
  rw [(alike_remove hx).value?]
  have howner := (owner?_clearScope (c := c) ht hi hlive hy hylive).resolve_right ?_
  · exact value?_cut (Tree.slot?_dropScope t m) howner
  · rintro ⟨j, hj, ho⟩
    obtain ⟨ids, htells, -, hids⟩ := tells_remove hcoh hx
    rw [htells.observers, hids] at hquiet
    refine hquiet ⟨(hcoh.remove i).indexed.isSome_watch?_iff.mpr ⟨w, hw, rfl⟩, ⟨.node j, c⟩,
      hcoh.indexed.mem_targets.mpr ⟨v, hv, hsame.id.symm, ?_⟩, j, rfl, (mem_removed_iff hx).mp hj⟩
    rw [hft.targets v hv, Tree.mem_resolve, ← hsame.contexts, ← hsame.subscriber]
    exact ⟨hc, ho⟩

end Remove

/-- **Who is not told of a call sees what it saw.** -/
theorem quiet_call (ht : Tidy t) (hft : Fresh t) {a : Call} (hs : SparesScopes t a)
    (hlt : (t.call a).tree.nodes.cells.length < UInt32.size) (hfu : Fresh (t.call a).tree)
    {v w : Watch} (hv : v ∈ t.watches) (hw : w ∈ (t.call a).tree.watches) (hsame : SameWatch v w)
    (hquiet : w.id ∉ (t.call a).trace.deliveries.map (·.observer)) (hc : c ∈ w.contexts) :
    (t.call a).tree.value? w.subscriber c = t.value? w.subscriber c := by
  have hlive : t.nodes.contains w.subscriber = true := hsame.subscriber ▸ hft.seated v hv
  cases a with
  | addRoot =>
    exact value?_congr_slot (owner?_addRoot ht hlt hlive) (Tree.slot?_addNode ht.sound hlt)
  | addChild p =>
    obtain ha | ⟨hp, ha⟩ := t.addChild_cases p <;> simp only [Tree.call, ha, Outcome.map] at hlt ⊢
    · rfl
    · exact value?_congr_slot (owner?_addLeaf ht hlt hlive) (Tree.slot?_addLeaf ht.sound hlt)
  | remove y =>
    obtain hr | ⟨hy, -⟩ := t.remove_cases y
    · rw [Tree.call, hr]
      rfl
    · exact quiet_remove ht hy (fun m hm => hs y rfl m hm hy) (hfu.seated w hw)
  | set y d value => exact quiet_set ht.toCoherent y d value hfu hw hquiet hc
  | setAt y d path value =>
    obtain ⟨-, hr, -⟩ | ⟨owner, ho, -, hr, hd⟩ := t.setAt_cases y d path value
    · simp only [Tree.call, hr, Outcome.map]
    · simp only [Tree.call, hr, hd, Outcome.map] at hfu hw hquiet ⊢
      exact quiet_write ht.toCoherent (Tree.proper_of_owner? ho) (Tree.slot?_of_owner? ho) _ hfu hw
        hquiet hc
  | setImplicit m d value =>
    obtain hr | ⟨i, -, -, hr⟩ | ⟨hm, hold, hr⟩ := t.setImplicit_cases m d value <;>
      simp only [Tree.call, hr, Outcome.map] at hlt hfu hw hquiet ⊢
    · rfl
    · exact quiet_set ht.toCoherent i d value hfu hw hquiet hc
    · have hlt' := (grows_set (t.addScope m (parentOf t.nodes m)) ..).cells_lt hlt
      refine (quiet_set (ht.toCoherent.addScope m hlt') t.nodes.nextId d value hfu hw hquiet
        hc).trans ?_
      exact value?_congr_slot (owner?_addScope ht hm hold hlt' hlive)
        (Tree.slot?_addScope ht.sound hlt')
  | clearImplicit m =>
    obtain hr | ⟨i, hi, hilive, hr⟩ | ⟨-, hold, hr⟩ := t.clearImplicit_cases m <;>
      simp only [Tree.call, hr, Outcome.map] at hfu hw hquiet ⊢
    · rfl
    · exact quiet_clearScope ht hft hi hilive hv hw hsame hfu hquiet hc
    · exact value?_congr_slot (owner?_dropScope_of_gone ht hold _ c) (Tree.slot?_dropScope t m)
  | observe y e =>
    obtain ho | ⟨-, -, ho, -⟩ := t.observe_cases y e <;> simp only [Tree.call, ho, Outcome.map]
    · rfl
    · exact (alike_register ..).value? ..
  | observeContext y d =>
    obtain ⟨e, ends, ho⟩ | ⟨-, -, ho⟩ := t.observeContext_cases y d <;>
      simp only [Tree.call, ho, Outcome.map]
    exact (alike_register ..).value? ..
  | unsubscribe id => exact (alike_unsubscribe t id).value? ..

/-! ## What observers were told last -/

/-- The value that an observer was told last. -/
def lastTold (log : List Exchange) (id : ObserverId) : Option Value :=
  ((log.flatMap (·.deliveries)).filter (·.observer == id)).getLast?.map (·.value)

theorem filter_flatMap_append (log : List Exchange) (x : Exchange) (id : ObserverId) :
    ((log ++ [x]).flatMap (·.deliveries)).filter (·.observer == id) =
      (log.flatMap (·.deliveries)).filter (·.observer == id) ++
        x.deliveries.filter (·.observer == id) := by
  rw [List.flatMap_append, List.filter_append, List.flatMap_singleton]

/-- An exchange that does not tell the observer. -/
theorem lastTold_of_quiet {log : List Exchange} {x : Exchange} {id : ObserverId}
    (h : id ∉ x.deliveries.map (·.observer)) : lastTold (log ++ [x]) id = lastTold log id := by
  have hnil : x.deliveries.filter (·.observer == id) = [] :=
    List.filter_eq_nil_iff.mpr fun d hd he => h (List.mem_map.mpr ⟨d, hd, beq_iff_eq.mp he⟩)
  rw [lastTold, filter_flatMap_append, hnil, List.append_nil]
  rfl

/-- An exchange that does. -/
theorem lastTold_of_told {log : List Exchange} {x : Exchange} {id : ObserverId}
    (h : id ∈ x.deliveries.map (·.observer)) :
    ∃ d ∈ x.deliveries, d.observer = id ∧ lastTold (log ++ [x]) id = some d.value := by
  obtain ⟨d₀, hd₀, rfl⟩ := List.mem_map.mp h
  have hne : x.deliveries.filter (·.observer == d₀.observer) ≠ [] :=
    List.ne_nil_of_mem (List.mem_filter.mpr ⟨hd₀, beq_self_eq_true _⟩)
  have hlast := List.mem_filter.mp (List.getLast_mem hne)
  refine ⟨_, hlast.1, beq_iff_eq.mp hlast.2, ?_⟩
  rw [lastTold, filter_flatMap_append, List.getLast?_append_of_ne_nil _ hne,
    List.getLast?_eq_getLast_of_ne_nil hne, Option.map_some]

/-- The observer of every expression was last told the value that the expression has. -/
def Current (log : List Exchange) (t : Tree) : Prop :=
  ∀ w ∈ t.watches, ∀ e, w.subject = .expression e →
    lastTold log w.id = some (t.eval w.subscriber e).value

/-- **A call keeps everyone informed**: it tells an observer, or changes nothing that it sees. -/
theorem Current.call {log : List Exchange} (h : Current log t) (hb : Booked log t) (ht : Tidy t)
    (hft : Fresh t) {a : Call} (hs : SparesScopes t a) (hfu : Fresh (t.call a).tree)
    (hspread : Spread t a) (hlt : (t.call a).tree.nodes.cells.length < UInt32.size) :
    Current (log ++ [t.exchange a]) (t.call a).tree := by
  intro w hw e he
  have hu : Coherent (t.call a).tree :=
    Tree.call_induction ht.toCoherent hlt fun hc hlt h => h.change hc hlt
  by_cases htold : w.id ∈ (t.call a).trace.deliveries.map (·.observer)
  · obtain ⟨d, hd, hid, hlast⟩ := @lastTold_of_told log (t.exchange a) w.id htold
    obtain ⟨w', hw', hval⟩ := hspread.news d hd
    obtain ⟨hmem, hid'⟩ := hu.indexed.watch?_eq_some_iff.mp hw'
    obtain rfl := hu.indexed.eq_of_id_eq hmem hw (hid'.trans hid)
    rw [he] at hval
    exact hlast.trans (congrArg some hval)
  · -- the observer of a new expression is told, so this one was there before
    have hold : ∃ v ∈ t.watches, SameWatch v w := by
      rcases Tree.watches_call ht.toCoherent a hlt with ⟨-, -, hws⟩ | ⟨hr, -, w₀, hws, hid, hm⟩
      · exact hws w hw
      · rw [hws, List.mem_append, List.mem_singleton] at hw
        rcases hw with hw | rfl
        · exact ⟨w, hw, .refl w⟩
        · cases a with
          | observe n e' => exact absurd ((hspread.told _).mpr ⟨_, hr, by rw [hid]; rfl⟩) htold
          | observeContext n c =>
            rw [hm.2.2] at he
            cases he
          | _ => exact hm.elim
    obtain ⟨v, hv, hsame⟩ := hold
    have hsub : v.subject = .expression e := hsame.subject.symm.trans he
    have hctx : w.contexts = contextsOf e := hsame.contexts.trans (hb.contexts hv hsub)
    have heval : (t.call a).tree.eval w.subscriber e = t.eval w.subscriber e :=
      eval_congr (t.registry_call a) fun c hc =>
        quiet_call ht hft hs hlt hfu hv hw hsame htold (hctx ▸ hc)
    rw [lastTold_of_quiet (x := t.exchange a) htold, heval, hsame.id, hsame.subscriber]
    exact h v hv e hsub

/-! ## Runs -/

namespace Run

variable {log : List Exchange} {globalId : String} {value : Value} {registry : Registry}

theorem current (h : Run SparesScopes (.new globalId value registry) log t)
    (hlt : t.nodes.cells.length < UInt32.size) : Current log t := by
  refine h.keeps hlt nofun fun {log t} a hr ha hlt hcur => ?_
  have hold := (t.grows_call a).cells_lt hlt
  have hnext := Run.call a hr ha
  obtain ⟨ht, hft⟩ := hr.tidy_fresh hold
  have hspread := ht.toCoherent.spread_call a (hnext.coherent hlt) hlt fun w hw =>
    (hnext.booked hlt).single hw
  exact hcur.call (hr.booked hold) ht hft ha (hnext.tidy_fresh hlt).2 hspread hlt

/-- **Reactive consistency**: after every call of a run that spares implicit scopes, the last value
that a live observer of an expression was told is the one that the expression has now. -/
theorem lastTold_eq (h : Run SparesScopes (.new globalId value registry) log t)
    (hlt : t.nodes.cells.length < UInt32.size) {x : Exchange} (hx : x ∈ log) {n : NodeId} {e : Expr}
    (hcall : x.call = .observe n e) {id : ObserverId} (hr : x.result = .ok (.observer id))
    (hlive : (t.watch? id).isSome = true) : lastTold log id = some (t.eval n e).value := by
  obtain ⟨w, hw⟩ := Option.isSome_iff_exists.mp hlive
  obtain ⟨hmem, rfl⟩ := (h.coherent hlt).indexed.watch?_eq_some_iff.mp hw
  have hm := (h.booked hlt).made x hx w hmem hr
  rw [hcall] at hm
  rw [← hm.1]
  exact h.current hlt w hmem e hm.2.2

/-- The observer of a context that its node comes to shadow was told the nearer value. -/
theorem lastTold_eq_of_shadowed :
    let r := (Tree.new "global" .null .empty).calls
      [.addRoot, .addChild ⟨0, 0⟩, .set ⟨0, 0⟩ "a" .null,
        .observe ⟨1, 0⟩ (.single (.binding ⟨"a", []⟩)), .setImplicit ⟨1, 0⟩ "a" (.bool true)]
    r.2.nodes.cells.length < UInt32.size ∧ (r.2.watch? 1).isSome = true ∧
      lastTold r.1 1 = some (r.2.eval ⟨1, 0⟩ (.single (.binding ⟨"a", []⟩))).value := by
  refine ⟨by decide, by decide, ?_⟩
  refine Run.lastTold_eq (Run.of_calls fun t c hc x hx => ?_) (by decide)
    (.tail _ (.tail _ (.tail _ (.head _)))) rfl rfl (by decide)
  subst hx
  simp at hc

end Run

end DataBinding.Scope
