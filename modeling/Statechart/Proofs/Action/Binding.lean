import Statechart.Action.Binding
import Statechart.Proofs.Tree.Check
import Statechart.Proofs.Tree.Walk

/-!
# What is bound, and what is reported

A node declares at most one action of each kind (`Node.action?`), and a walk lists no path
twice. So the declarations of a tree are what its nodes declare (`Tree.mem_declarations`), and
no two of them are for the same step (`Tree.nodup_steps_declarations`): in the table of what
is to run, none stands in the way of another.

A name that is not registered is reported where it is declared, for every node on its own
(`Registry.unknownActions_eq`). If there are such names nothing is bound, and otherwise
everything is (`Registry.bind_isExact`). It comes to the same if table and reports are made
side by side, one declaration after the other (`Registry.bind_eq_pass`).
-/

namespace Statechart

/-- Both kinds of steps, in the order in which a node declares actions for them. -/
def Step.Kind.all : List Step.Kind := [.entry, .exit]

theorem Step.Kind.mem_all : ∀ kind : Step.Kind, kind ∈ all
  | .entry => List.mem_cons_self
  | .exit => List.mem_cons_of_mem _ List.mem_cons_self

/-! ## Declarations -/

namespace Node

variable {path : Path} {node : Node} {step : Step} {name : String}

/-- The name of the action that a node declares for a kind of step. -/
def action? (node : Node) : Step.Kind → Option String
  | .entry => node.entry
  | .exit => node.exit

theorem declarations_eq (path : Path) (node : Node) :
    node.declarations path = Step.Kind.all.filterMap fun kind =>
      (node.action? kind).map fun name => (⟨kind, path⟩, name) := by
  unfold declarations Step.Kind.all
  rw [List.filterMap_eq_flatMap_toList, List.flatMap_cons, List.flatMap_singleton]
  rfl

theorem mem_declarations :
    (step, name) ∈ node.declarations path
      ↔ step.node = path ∧ node.action? step.kind = some name := by
  rw [declarations_eq, List.mem_filterMap]
  constructor
  · rintro ⟨kind, -, h⟩
    obtain ⟨_, hname, heq⟩ := Option.map_eq_some_iff.mp h
    obtain ⟨rfl, rfl⟩ := Prod.mk.inj heq
    exact ⟨rfl, hname⟩
  · rintro ⟨rfl, hname⟩
    exact ⟨step.kind, Step.Kind.mem_all _, Option.map_eq_some_iff.mpr ⟨name, hname, rfl⟩⟩

theorem nodup_steps_declarations (path : Path) (node : Node) :
    ((node.declarations path).map Prod.fst).Nodup := by
  unfold declarations
  cases node.entry <;> cases node.exit <;> simp

end Node

namespace Tree

variable {tree : Tree} {path : Path} {kind : Step.Kind} {name : String}

/-- **The declarations of a tree** are what its nodes declare. -/
theorem mem_declarations : (⟨kind, path⟩, name) ∈ tree.declarations
    ↔ ∃ node, tree.get? path = some node ∧ node.action? kind = some name := by
  unfold declarations
  rw [List.mem_flatMap]
  constructor
  · rintro ⟨⟨path', node⟩, hvisit, hdeclared⟩
    obtain ⟨rfl, hname⟩ := Node.mem_declarations.mp hdeclared
    exact ⟨node, mem_walk.mp hvisit, hname⟩
  · rintro ⟨node, hnode, hname⟩
    exact ⟨(path, node), mem_walk.mpr hnode, Node.mem_declarations.mpr ⟨rfl, hname⟩⟩

/-- **No two declarations are for the same step.** -/
theorem nodup_steps_declarations (tree : Tree) : (tree.declarations.map Prod.fst).Nodup := by
  unfold declarations
  rw [List.map_flatMap, List.nodup_flatMap]
  refine ⟨fun visit _ => Node.nodup_steps_declarations visit.1 visit.2, ?_⟩
  -- the steps of two nodes differ in their paths
  refine (List.pairwise_map.mp tree.nodup_paths_walk).imp fun {visit visit'} hne step h h' => hne ?_
  obtain ⟨⟨_, _⟩, hdeclared, rfl⟩ := List.mem_map.mp h
  obtain ⟨⟨_, _⟩, hdeclared', rfl⟩ := List.mem_map.mp h'
  exact (Node.mem_declarations.mp hdeclared).1.symm.trans (Node.mem_declarations.mp hdeclared').1

end Tree

/-! ## Tables -/

namespace Bindings

variable {α : Type} {bindings : Bindings α} {step : Step} {bound : Bound α}

/-- In a table without two entries for one step, what runs at a step is what is entered
for it. -/
theorem get?_eq_some_iff (h : (bindings.table.map Prod.fst).Nodup) :
    bindings.get? step = some bound ↔ (step, bound) ∈ bindings.table := by
  unfold get?
  rw [List.lookup_eq_some_iff]
  constructor
  · rintro ⟨before, after, htable, -⟩
    rw [htable]
    exact List.mem_append_right _ List.mem_cons_self
  · intro hmem
    obtain ⟨before, after, htable⟩ := List.append_of_mem hmem
    refine ⟨before, after, htable, fun entry hentry => bne_iff_ne.mpr fun heq => ?_⟩
    rw [htable, List.map_append, List.map_cons, List.nodup_middle, List.nodup_cons] at h
    exact h.1 (List.mem_append_left _ (List.mem_map.mpr ⟨entry, hentry, heq.symm⟩))

/-- One more action; it replaces one at the same step. -/
def insert (bindings : Bindings α) (step : Step) (bound : Bound α) : Bindings α :=
  ⟨bindings.table.filter (fun entry => entry.1 != step) ++ [(step, bound)]⟩

/-- At a step without an action nothing is replaced. -/
theorem insert_of_notMem (h : step ∉ bindings.table.map Prod.fst) :
    bindings.insert step bound = ⟨bindings.table ++ [(step, bound)]⟩ := by
  unfold insert
  rw [List.filter_eq_self.mpr]
  rintro entry hmem
  exact bne_iff_ne.mpr fun heq => h (List.mem_map.mpr ⟨entry, hmem, heq⟩)

end Bindings

namespace Registry

variable {α : Type} {registry : Registry α} {tree : Tree} {path : Path} {node : Node}

/-! ## What is to be bound, and what is to be reported -/

/-- **Every action that a node declares is registered.** -/
def Covers (registry : Registry α) (tree : Tree) : Prop :=
  ∀ path node kind name, tree.get? path = some node → node.action? kind = some name →
    registry.contains name = true

/-- **What is bound to a step** is what is declared for it. -/
structure Binds (registry : Registry α) (tree : Tree) (bindings : Bindings α) : Prop where
  /-- The action that a node declares runs as it is registered, and under its name. -/
  declared : ∀ path node kind name, tree.get? path = some node → node.action? kind = some name →
    ∃ action, registry.get? name = some action
      ∧ bindings.get? ⟨kind, path⟩ = some ⟨name, action⟩
  /-- Where a node declares nothing, nothing runs. -/
  undeclared : ∀ path node kind, tree.get? path = some node → node.action? kind = none →
    bindings.get? ⟨kind, path⟩ = none
  /-- Where there is no node, nothing runs. -/
  elsewhere : ∀ path kind, tree.get? path = none → bindings.get? ⟨kind, path⟩ = none
  /-- No step is in the table twice. -/
  nodup : (bindings.table.map Prod.fst).Nodup

/-- What is reported of a name that the node at a path declares. -/
def report? (registry : Registry α) (path : Path) (name : String) : Option MachineError :=
  if registry.contains name = true then none else some (.unknownAction name path.label)

theorem report?_of_get? {name : String} {action : α} (h : registry.get? name = some action) :
    registry.report? path name = none :=
  if_pos (Option.isSome_iff_exists.mpr ⟨action, h⟩)

theorem report?_of_get?_eq_none {name : String} (h : registry.get? name = none) :
    registry.report? path name = some (.unknownAction name path.label) := by
  refine if_neg fun hcontains => ?_
  obtain ⟨action, haction⟩ := Option.isSome_iff_exists.mp hcontains
  exact nomatch h.symm.trans haction

/-- **What is reported of the node at a path**: the name of its entry action if that is not
registered, and then that of its exit action, also if it is the same. -/
def reports (registry : Registry α) (path : Path) (node : Node) : List MachineError :=
  Step.Kind.all.filterMap fun kind => (node.action? kind).bind (registry.report? path)

/-- What is reported of some declarations. -/
def reportsOf (registry : Registry α) (declarations : List (Step × String)) :
    List MachineError :=
  declarations.filterMap fun declaration => registry.report? declaration.1.node declaration.2

theorem unknownActions_eq_reportsOf (registry : Registry α) (tree : Tree) :
    registry.unknownActions tree = registry.reportsOf tree.declarations := by
  unfold unknownActions reportsOf
  rw [← List.filterMap_eq_map, ← List.filterMap_eq_filter, List.filterMap_filterMap]
  refine congrArg (List.filterMap · tree.declarations) (funext fun declaration => ?_)
  unfold report?
  cases hcontains : registry.contains declaration.2 <;> simp [hcontains]

theorem reportsOf_declarations (registry : Registry α) (path : Path) (node : Node) :
    registry.reportsOf (node.declarations path) = registry.reports path node := by
  unfold reportsOf reports
  rw [Node.declarations_eq, List.filterMap_filterMap]
  refine congrArg (List.filterMap · Step.Kind.all) (funext fun kind => ?_)
  rw [Option.bind_map]
  rfl

/-- The names that are not registered are reported node by node, in the order of a walk. -/
theorem unknownActions_eq (registry : Registry α) (tree : Tree) :
    registry.unknownActions tree
      = tree.walk.flatMap fun visit => registry.reports visit.1 visit.2 := by
  rw [unknownActions_eq_reportsOf, reportsOf, Tree.declarations, List.filterMap_flatMap]
  exact congrArg (List.flatMap · tree.walk)
    (funext fun visit => registry.reportsOf_declarations visit.1 visit.2)

/-- **Nothing is reported** exactly if all actions are registered. -/
theorem unknownActions_eq_nil_iff : registry.unknownActions tree = [] ↔ registry.Covers tree := by
  unfold unknownActions
  rw [List.map_eq_nil_iff, List.filter_eq_nil_iff]
  constructor
  · intro h path node kind name hnode hname
    have hknown := h (⟨kind, path⟩, name) (Tree.mem_declarations.mpr ⟨node, hnode, hname⟩)
    simpa using hknown
  · rintro h ⟨⟨kind, path⟩, name⟩ hdeclared
    obtain ⟨node, hnode, hname⟩ := Tree.mem_declarations.mp hdeclared
    simpa using h path node kind name hnode hname

/-- A report is a single fault. -/
theorem errors_of_mem_unknownActions {fault : MachineError}
    (h : fault ∈ registry.unknownActions tree) : fault.errors = [fault] := by
  obtain ⟨declaration, -, rfl⟩ := List.mem_map.mp h
  rw [MachineError.errors]

/-! ## The table -/

/-- The declarations whose names are registered, each with its action. -/
def tableOf (registry : Registry α) (declarations : List (Step × String)) :
    List (Step × Bound α) :=
  declarations.filterMap fun declaration =>
    (registry.get? declaration.2).map fun action => (declaration.1, ⟨declaration.2, action⟩)

theorem mem_tableOf {declarations : List (Step × String)} {step : Step} {bound : Bound α} :
    (step, bound) ∈ registry.tableOf declarations
      ↔ (step, bound.name) ∈ declarations ∧ registry.get? bound.name = some bound.action := by
  unfold tableOf
  rw [List.mem_filterMap]
  constructor
  · rintro ⟨⟨step', name⟩, hdeclared, h⟩
    obtain ⟨action, haction, heq⟩ := Option.map_eq_some_iff.mp h
    obtain ⟨rfl, rfl⟩ := Prod.mk.inj heq
    exact ⟨hdeclared, haction⟩
  · rintro ⟨hdeclared, haction⟩
    exact ⟨_, hdeclared, Option.map_eq_some_iff.mpr ⟨_, haction, rfl⟩⟩

/-- Every entry of a table is for the step of a declaration. -/
theorem map_fst_tableOf_sublist (registry : Registry α) (declarations : List (Step × String)) :
    ((registry.tableOf declarations).map Prod.fst).Sublist (declarations.map Prod.fst) := by
  induction declarations with
  | nil => exact .slnil
  | cons declaration rest ih =>
    unfold tableOf
    rw [List.filterMap_cons]
    cases registry.get? declaration.2 with
    | none => exact ih.cons _
    | some action => exact ih.cons_cons _

theorem bind_eq (registry : Registry α) (tree : Tree) :
    registry.bind tree = MachineError.unlessFaulty (registry.unknownActions tree)
      ⟨registry.tableOf tree.declarations⟩ :=
  rfl

/-- **The table of all declarations** has what is declared at every step. -/
theorem binds_tableOf (h : registry.Covers tree) :
    registry.Binds tree ⟨registry.tableOf tree.declarations⟩ := by
  have hnodup := tree.nodup_steps_declarations.sublist
    (registry.map_fst_tableOf_sublist tree.declarations)
  have hnone : ∀ path kind, (∀ node, tree.get? path = some node → node.action? kind = none) →
      Bindings.get? ⟨registry.tableOf tree.declarations⟩ ⟨kind, path⟩ = none := by
    intro path kind hundeclared
    refine Option.eq_none_iff_forall_ne_some.mpr fun bound hbound => ?_
    have hmem := mem_tableOf.mp ((Bindings.get?_eq_some_iff hnodup).mp hbound)
    obtain ⟨node, hnode, hname⟩ := Tree.mem_declarations.mp hmem.1
    exact nomatch (hundeclared node hnode).symm.trans hname
  refine ⟨fun path node kind name hnode hname => ?_, fun path node kind hnode hnot => ?_,
    fun path kind hnot => ?_, hnodup⟩
  · obtain ⟨action, haction⟩ := Option.isSome_iff_exists.mp (h path node kind name hnode hname)
    refine ⟨action, haction, (Bindings.get?_eq_some_iff hnodup).mpr (mem_tableOf.mpr ⟨?_, haction⟩)⟩
    exact Tree.mem_declarations.mpr ⟨node, hnode, hname⟩
  · refine hnone path kind fun node' hnode' => ?_
    obtain rfl := Option.some.inj (hnode.symm.trans hnode')
    exact hnot
  · exact hnone path kind fun node hnode => nomatch hnot.symm.trans hnode

/-! ## Table and reports side by side -/

/-- What has become of some declarations. -/
structure Pass (α : Type) where
  /-- What is bound. -/
  bindings : Bindings α
  /-- What is reported. -/
  reports : List MachineError

/-- One more declaration: its action is bound, or its name is reported. -/
def Pass.next (registry : Registry α) (pass : Pass α) (declaration : Step × String) : Pass α :=
  match registry.get? declaration.2 with
  | some action =>
    { pass with bindings := pass.bindings.insert declaration.1 ⟨declaration.2, action⟩ }
  | none =>
    { pass with reports :=
        pass.reports ++ [.unknownAction declaration.2 declaration.1.node.label] }

/-- What has become of all declarations of a list. -/
def pass (registry : Registry α) (declarations : List (Step × String)) : Pass α :=
  declarations.foldl (Pass.next registry) ⟨⟨[]⟩, []⟩

/-- A declaration for a step of its own is bound or reported after those before it. -/
theorem next_tableOf {before : List (Step × String)} {declaration : Step × String}
    (h : declaration.1 ∉ before.map Prod.fst) :
    Pass.next registry ⟨⟨registry.tableOf before⟩, registry.reportsOf before⟩ declaration
      = ⟨⟨registry.tableOf (before ++ [declaration])⟩,
          registry.reportsOf (before ++ [declaration])⟩ := by
  unfold Pass.next
  cases haction : registry.get? declaration.2 with
  | none =>
    have hreport : registry.report? declaration.1.node declaration.2
        = some (.unknownAction declaration.2 declaration.1.node.label) :=
      report?_of_get?_eq_none haction
    simp [tableOf, reportsOf, haction, hreport]
  | some action =>
    have hfresh : declaration.1 ∉ (registry.tableOf before).map Prod.fst :=
      fun hmem => h ((registry.map_fst_tableOf_sublist before).subset hmem)
    have hquiet : registry.report? declaration.1.node declaration.2 = none :=
      report?_of_get? haction
    refine (congrArg (Pass.mk · _) (Bindings.insert_of_notMem hfresh)).trans ?_
    simp [tableOf, reportsOf, haction, hquiet]

/-- **Declarations for different steps** are bound and reported as if each were looked at on
its own. -/
theorem pass_eq {declarations : List (Step × String)}
    (h : (declarations.map Prod.fst).Nodup) :
    registry.pass declarations
      = ⟨⟨registry.tableOf declarations⟩, registry.reportsOf declarations⟩ := by
  induction declarations using List.reverseRecOn with
  | nil => rfl
  | append_singleton before declaration ih =>
    rw [List.map_append, List.map_singleton, List.nodup_append] at h
    obtain ⟨hbefore, -, hother⟩ := h
    have hfresh : declaration.1 ∉ before.map Prod.fst :=
      fun hmem => hother _ hmem _ (List.mem_singleton_self _) rfl
    rw [pass, List.foldl_append, List.foldl_cons, List.foldl_nil, ← pass, ih hbefore,
      next_tableOf hfresh]

/-- **Binding is a single pass** over the declarations of the tree. -/
theorem bind_eq_pass (registry : Registry α) (tree : Tree) :
    registry.bind tree = MachineError.unlessFaulty (registry.pass tree.declarations).reports
      (registry.pass tree.declarations).bindings := by
  rw [pass_eq tree.nodup_steps_declarations, bind_eq, unknownActions_eq_reportsOf]

/-! ## The result -/

/-- **Everything is bound, or everything that is missing is reported.** Binding goes through
the declarations once, and binds or reports one after the other. It succeeds exactly if every
action that a node declares is registered, and then the action at a step is the one that is
registered under the name that the node declares for it, and there is no other. If names are
missing, the single faults of the error are the reports of all nodes in the order of a walk. A
report that is alone is the error itself, and several stand in it together. -/
theorem bind_isExact (registry : Registry α) (tree : Tree) :
    registry.bind tree = MachineError.unlessFaulty (registry.pass tree.declarations).reports
        (registry.pass tree.declarations).bindings
      ∧ ((∃ bindings, registry.bind tree = .ok bindings) ↔ registry.Covers tree)
      ∧ (∀ bindings, registry.bind tree = .ok bindings → registry.Binds tree bindings)
      ∧ (¬ registry.Covers tree → ∃ error, registry.bind tree = .error error
          ∧ error.errors = tree.walk.flatMap (fun visit => registry.reports visit.1 visit.2)
          ∧ (∀ fault, error.errors = [fault] → error = fault)
          ∧ (1 < error.errors.length → error = .invalidConfig error.errors)) := by
  refine ⟨registry.bind_eq_pass tree, ?_⟩
  rw [bind_eq, ← unknownActions_eq_nil_iff, ← unknownActions_eq]
  unfold MachineError.unlessFaulty
  by_cases hnil : registry.unknownActions tree = []
  · rw [if_pos (List.isEmpty_iff.mpr hnil)]
    refine ⟨iff_of_true ⟨_, rfl⟩ hnil, fun bindings hbindings => ?_, absurd hnil⟩
    rw [← Except.ok.inj hbindings]
    exact binds_tableOf (unknownActions_eq_nil_iff.mp hnil)
  · rw [if_neg fun hempty => hnil (List.isEmpty_iff.mp hempty)]
    refine ⟨iff_of_false nofun hnil, nofun, fun _ => ?_⟩
    exact ⟨_, rfl, MachineError.ofFaults_gathers fun _ => errors_of_mem_unknownActions⟩

/-- The states of a gate, which all use the action that writes a log, and one of which hums. -/
def gate : Tree where
  root :=
    { Node.leaf "gate" with
      initial := some "closed"
      children := .ofList [
        ("closed", { Node.leaf "closed" with entry := some "log", exit := some "hum" }),
        ("open", { Node.leaf "open" with exit := some "log" })]
      entry := some "log" }
  faultless := by rfl

/-- With both actions every step has its own, and there are none where nothing is declared and
where there is no state. An action that is used once is missed once, and one that is used three
times is missed three times. -/
theorem bind_isExact_gate : ∃ bindings : Bindings Nat,
    ((empty.register "hum" 1).register "log" 2).bind gate = .ok bindings
      ∧ bindings.get? ⟨.entry, ⟨["closed"]⟩⟩ = some ⟨"log", 2⟩
      ∧ bindings.get? ⟨.exit, ⟨["closed"]⟩⟩ = some ⟨"hum", 1⟩
      ∧ bindings.get? ⟨.exit, .root⟩ = none
      ∧ bindings.get? ⟨.entry, ⟨["ajar"]⟩⟩ = none
      ∧ (empty.register "log" 2).bind gate = .error (.unknownAction "hum" "closed")
      ∧ (empty.register "hum" 1).bind gate = .error (.invalidConfig [
          .unknownAction "log" "machine", .unknownAction "log" "closed",
          .unknownAction "log" "open"]) := by
  have hcovers : ((empty.register "hum" 1).register "log" 2).Covers gate :=
    unknownActions_eq_nil_iff.mp rfl
  have hnoHum : ¬ (empty.register "log" 2).Covers gate := fun h =>
    nomatch h ⟨["closed"]⟩ _ .exit "hum" rfl rfl
  have hnoLog : ¬ (empty.register "hum" 1).Covers gate := fun h =>
    nomatch h .root _ .entry "log" rfl rfl
  obtain ⟨-, hok, hdeclares, -⟩ := bind_isExact ((empty.register "hum" 1).register "log" 2) gate
  obtain ⟨bindings, hbindings⟩ := hok.mpr hcovers
  have hbinds := hdeclares bindings hbindings
  obtain ⟨_, hlog, hentry⟩ := hbinds.declared ⟨["closed"]⟩ _ .entry "log" rfl rfl
  obtain ⟨_, hhum, hexit⟩ := hbinds.declared ⟨["closed"]⟩ _ .exit "hum" rfl rfl
  obtain ⟨error, herror, herrors, halone, -⟩ := (bind_isExact _ gate).2.2.2 hnoHum
  obtain ⟨error', herror', herrors', -, hseveral⟩ := (bind_isExact _ gate).2.2.2 hnoLog
  have hone : error.errors = [.unknownAction "hum" "closed"] := herrors
  have hthree : error'.errors = [.unknownAction "log" "machine", .unknownAction "log" "closed",
    .unknownAction "log" "open"] := herrors'
  refine ⟨bindings, hbindings, ?_, ?_, hbinds.undeclared .root _ .exit rfl rfl,
    hbinds.elsewhere ⟨["ajar"]⟩ .entry rfl, ?_, ?_⟩
  · obtain rfl := Option.some.inj hlog
    exact hentry
  · obtain rfl := Option.some.inj hhum
    exact hexit
  · rw [herror, halone _ hone]
  · rw [herror', hseveral (by rw [hthree]; decide), hthree]

end Registry

end Statechart
