import TreeRules.Proofs.Isolation

/-!
# Sessions

The calls of a compilation come in any order, on any number of transformers of one pipeline, and units
fail or not. Nobody who sees what the calls give can tell in which order they came: each gives what it
would have given as the only one.
-/

namespace TreeRules

theorem perm_of_map_perm {α β : Type} {f : α → β} {left right : List α}
    (h : ∀ a ∈ left, ∀ b ∈ right, f a = f b → a = b) (hperm : (left.map f).Perm (right.map f)) :
    left.Perm right := by
  induction left generalizing right with
  | nil =>
      obtain rfl := List.map_eq_nil_iff.mp hperm.nil_eq.symm
      exact .nil
  | cons a left ih =>
      obtain ⟨hhead, htail⟩ := List.forall_mem_cons.mp h
      have hmem : f a ∈ right.map f := hperm.mem_iff.mp List.mem_cons_self
      obtain ⟨b, hb, heq⟩ := List.mem_map.mp hmem
      obtain rfl := hhead b hb heq.symm
      obtain ⟨front, back, rfl⟩ := List.append_of_mem hb
      have hmiddle : (front ++ a :: back).Perm (a :: (front ++ back)) := List.perm_middle
      have hrest := (hperm.trans (hmiddle.map f)).cons_inv
      refine ((ih (fun c hc d hd => htail c hc d ?_) hrest).cons a).trans hmiddle.symm
      exact hmiddle.symm.subset (List.mem_cons_of_mem a hd)

namespace Catalogue

/-- A transformer in use, and the configuration that it was made from. -/
structure Station where
  configuration : Json
  transformer : UnitTransformer Context

/-- What a call is about. Equal trees are the same work, whatever objects hold them. -/
structure Assignment where
  configuration : Json
  services : Services
  root : Outline Label

structure Report where
  assignment : Assignment
  result : Except Error (UnitOutput (Outline Label) × Option Statistics)

variable (scope : String) (entries : List Entry)

/-- The stations, the bench and the reports after any calls in any order. -/
inductive Session : List Station → Bench → List Report → Prop where
  | start (bench : Bench) : Session [] bench []
  | instantiate {stations : List Station} {bench later : Bench} {reports : List Report}
      {program : Program} {configuration : Json} {transformer : UnitTransformer Context} :
      Session stations bench reports →
        ((pipeline scope entries).instantiate program configuration).run bench =
          (.ok transformer, later) →
        Session (stations ++ [⟨configuration, transformer⟩]) later reports
  /-- Between the calls others use the bench, and make the roots that are transformed next. -/
  | elsewhere {stations : List Station} {bench later : Bench} {reports : List Report} :
      Session stations bench reports → Session stations later reports
  | transform {before after : List Station} {station : Station} {bench later : Bench}
      {reports : List Report} {depth : Nat} {services : Services} {root : Node}
      {outcome : Except Error (UnitOutput Node)} {next : UnitTransformer Context} :
      Session (before ++ station :: after) bench reports → bench.Has root →
        ((pipeline scope entries).transform depth services root station.transformer).run bench =
          ((outcome.mapError .failed, next), later) →
        Session (before ++ { station with transformer := next } :: after) later
          (reports ++ [⟨⟨station.configuration, services, root.outline⟩, view outcome next⟩])

/-- A new transformer with the same configuration ends in the same way, for every program, on every
bench and over every equal root, when it has done nothing else. -/
def Report.Alone (report : Report) : Prop :=
  ∀ (program : Program) (bench : Bench), ∃ (fresh : UnitTransformer Context) (later : Bench),
    ((pipeline scope entries).instantiate program report.assignment.configuration).run bench =
      (.ok fresh, later) ∧
    ∀ (bench : Bench) (root : Node) (depth : Nat), bench.Has root →
      root.outline = report.assignment.root → Host.subtreeDepth root + 3 ≤ depth →
      ∃ (outcome : Except Error (UnitOutput Node)) (next : UnitTransformer Context) (last : Bench),
        ((pipeline scope entries).transform depth report.assignment.services root fresh).run bench =
          ((outcome.mapError .failed, next), last) ∧
        view outcome next = report.result

variable {scope entries}

section Instantiation

variable {program : Program} {configuration : Json} {bench later : Bench} {context : Context}
  {transformer : UnitTransformer Context}

theorem exists_create (h : Context.create scope program configuration = .ok context)
    (program' : Program) : ∃ context', Context.create scope program' configuration = .ok context' ∧
      context'.message = context.message := by
  rw [Context.create] at h ⊢
  rcases hread : Configuration.read (qualified scope "TestedConfiguration")
      (Configuration.Greeting.shape "TestedConfiguration").decode configuration with _ | greeting <;>
    rw [hread] at h
  · cases h
  · obtain rfl := Except.ok.inj h
    exact ⟨_, rfl, rfl⟩

theorem run_instantiate (h : Context.create scope program configuration = .ok context) :
    ∃ later, ((pipeline scope entries).instantiate program configuration).run bench =
      (.ok { context }, later) := by
  have hcreate : (pipeline scope entries).context.create program configuration = .ok context := h
  simp only [Pipeline.instantiate, hcreate]
  exact ⟨_, rfl⟩

theorem create_of_instantiate
    (h : ((pipeline scope entries).instantiate program configuration).run bench =
      (.ok transformer, later)) :
    Context.create scope program configuration = .ok transformer.context := by
  rcases hcreate : Context.create scope program configuration with error | context
  · have hcreate : (pipeline scope entries).context.create program configuration = .error error :=
      hcreate
    simp only [Pipeline.instantiate, hcreate] at h
    cases h
  · obtain ⟨_, hrun⟩ := @run_instantiate scope entries program configuration bench context hcreate
    rw [hrun] at h
    cases h
    rfl

end Instantiation

/-- The transformer still has the message of its configuration. -/
def Station.Ready (scope : String) (station : Station) : Prop :=
  ∀ program, ∃ context, Context.create scope program station.configuration = .ok context ∧
    context.message = station.transformer.context.message

theorem view_mapError (outcome : Except Error (UnitOutput Node))
    (transformer : UnitTransformer Context) : view (outcome.mapError Halt.failed) transformer =
      (view outcome transformer).mapError Halt.failed := by
  cases outcome <;> rfl

theorem Station.Ready.alone {station : Station} (hready : station.Ready scope) {depth : Nat}
    {services : Services} {root : Node} {bench later : Bench}
    {outcome : Except Error (UnitOutput Node)} {next : UnitTransformer Context}
    (hroot : bench.Has root)
    (hcall : ((pipeline scope entries).transform depth services root station.transformer).run bench =
      ((outcome.mapError .failed, next), later)) :
    Report.Alone scope entries
      ⟨⟨station.configuration, services, root.outline⟩, view outcome next⟩ := by
  intro program other
  obtain ⟨context, hcreate, hmessage⟩ := hready program
  obtain ⟨made, hmade⟩ := @run_instantiate scope entries program station.configuration other _ hcreate
  refine ⟨_, made, hmade, fun bench' root' depth' hroot' houtline hdepth' => ?_⟩
  obtain ⟨outcome', next', last, hcall'⟩ := transform_ends hdepth'
  refine ⟨outcome', next', last, hcall', ?_⟩
  -- The two bounds may differ; with the larger one both calls do the same.
  have hmore := transform_eq_of_le (Nat.le_max_left depth depth') hcall
  have hmore' := transform_eq_of_le (Nat.le_max_right depth depth') hcall'
  have hviews := @view_transform_eq scope entries (max depth depth') services root root' bench bench'
    station.transformer { context } hmessage.symm hroot hroot' houtline.symm
  rw [hmore, hmore'] at hviews
  have hviews : view (outcome.mapError Halt.failed) next =
      view (outcome'.mapError Halt.failed) next' := hviews
  rw [view_mapError, view_mapError] at hviews
  exact (mapError_failed_injective hviews).symm

namespace Session

variable {stations : List Station} {bench : Bench} {reports : List Report}

theorem ready (h : Session scope entries stations bench reports) :
    ∀ station ∈ stations, station.Ready scope := by
  induction h with
  | start => exact fun _ hstation => absurd hstation List.not_mem_nil
  | instantiate _ hmade ih =>
      refine List.forall_mem_append.mpr ⟨ih, List.forall_mem_singleton.mpr fun program => ?_⟩
      exact exists_create (create_of_instantiate hmade) program
  | elsewhere _ ih => exact ih
  | @transform before after station bench later reports depth services root outcome next _ _ hcall
      ih =>
      obtain ⟨hbefore, hrest⟩ := List.forall_mem_append.mp ih
      obtain ⟨hstation, hafter⟩ := List.forall_mem_cons.mp hrest
      have hkept := @transform_message scope entries depth services root bench station.transformer
      rw [hcall] at hkept
      refine List.forall_mem_append.mpr ⟨hbefore, List.forall_mem_cons.mpr ⟨fun program => ?_, hafter⟩⟩
      obtain ⟨context, hcreate, hmessage⟩ := hstation program
      exact ⟨context, hcreate, hmessage.trans hkept.symm⟩

theorem alone (h : Session scope entries stations bench reports) :
    ∀ report ∈ reports, report.Alone scope entries := by
  induction h with
  | start => exact fun _ hreport => absurd hreport List.not_mem_nil
  | instantiate _ _ ih => exact ih
  | elsewhere _ ih => exact ih
  | transform hsession hroot hcall ih =>
      refine List.forall_mem_append.mpr ⟨ih, List.forall_mem_singleton.mpr ?_⟩
      have hready := hsession.ready _ (List.mem_append_right _ List.mem_cons_self)
      exact hready.alone hroot hcall

theorem exists_root (h : Session scope entries stations bench reports) :
    ∀ report ∈ reports, ∃ (bench : Bench) (root : Node), bench.Has root ∧
      root.outline = report.assignment.root := by
  induction h with
  | start => exact fun _ hreport => absurd hreport List.not_mem_nil
  | instantiate _ _ ih => exact ih
  | elsewhere _ ih => exact ih
  | transform _ hroot _ ih =>
      exact List.forall_mem_append.mpr ⟨ih, List.forall_mem_singleton.mpr ⟨_, _, hroot, rfl⟩⟩

/-- Every transformer of a session can be handed any root that exists. -/
theorem exists_transform {before after : List Station} {station : Station}
    (h : Session scope entries (before ++ station :: after) bench reports) (services : Services)
    {root : Node} (hroot : bench.Has root) :
    ∃ (next : UnitTransformer Context) (later : Bench)
        (result : Except Error (UnitOutput (Outline Label) × Option Statistics)),
      Session scope entries (before ++ { station with transformer := next } :: after) later
        (reports ++ [⟨⟨station.configuration, services, root.outline⟩, result⟩]) := by
  obtain ⟨outcome, next, later, hcall⟩ := @transform_ends scope entries _ services root bench
    station.transformer le_rfl
  exact ⟨next, later, view outcome next, h.transform hroot hcall⟩

end Session

/-- One assignment has one result. -/
theorem Report.Alone.unique {report report' : Report} (h : report.Alone scope entries)
    (h' : report'.Alone scope entries) {bench : Bench} {root : Node} (hroot : bench.Has root)
    (houtline : root.outline = report.assignment.root)
    (hassignment : report.assignment = report'.assignment) : report = report' := by
  obtain ⟨assignment, result⟩ := report
  obtain ⟨_, result'⟩ := report'
  obtain rfl := hassignment
  obtain ⟨fresh, _, hfresh, hcalls⟩ := h {} {}
  obtain ⟨fresh', _, hfresh', hcalls'⟩ := h' {} {}
  obtain ⟨hsame, -⟩ := Prod.mk.inj (hfresh.symm.trans hfresh')
  obtain rfl := Except.ok.inj hsame
  obtain ⟨outcome, next, _, hcall, rfl⟩ := hcalls bench root _ hroot houtline le_rfl
  obtain ⟨outcome', next', _, hcall', rfl⟩ := hcalls' bench root _ hroot houtline le_rfl
  obtain ⟨hended, -⟩ := Prod.mk.inj (hcall.symm.trans hcall')
  obtain ⟨houtcome, rfl⟩ := Prod.mk.inj hended
  rw [mapError_failed_injective houtcome]

/-- **Units do not influence each other.** Whatever calls came before, on whatever transformers of the
pipeline, each call gives what a new transformer gives that does nothing else. So calls that are the
same but for their order give the same but for its order. And calls always end, so that any order can
be had. -/
theorem units_independent {stations : List Station} {bench : Bench} {reports : List Report}
    (h : Session scope entries stations bench reports) :
    (∀ report ∈ reports, report.Alone scope entries) ∧
    (∀ (stations' : List Station) (bench' : Bench) (reports' : List Report),
      Session scope entries stations' bench' reports' →
        (reports.map Report.assignment).Perm (reports'.map Report.assignment) →
          reports.Perm reports') ∧
    ∀ station ∈ stations, ∀ (services : Services) (root : Node) (bench : Bench) (depth : Nat),
      Host.subtreeDepth root + 3 ≤ depth →
        ∃ (outcome : Except Error (UnitOutput Node)) (next : UnitTransformer Context) (later : Bench),
          ((pipeline scope entries).transform depth services root station.transformer).run bench =
            ((outcome.mapError .failed, next), later) := by
  refine ⟨h.alone, fun stations' bench' reports' h' hperm => ?_, fun _ _ _ _ _ _ => transform_ends⟩
  refine perm_of_map_perm (fun report hreport report' hreport' hassignment => ?_) hperm
  obtain ⟨_, _, hroot, houtline⟩ := h.exists_root report hreport
  exact (h.alone report hreport).unique (h'.alone report' hreport') hroot houtline hassignment

section Sample

/-- A pipeline that fails at numbers. -/
def fussy : List Entry := [.rejectNumbers, .stampFileName]

def leafNode (kind : Kind) (text : String) : Node := .node 0 { kind, text := some text } []

def leafBench : Bench := { supply := ⟨1⟩ }

theorem leafBench_has (kind : Kind) (text : String) : leafBench.Has (leafNode kind text) :=
  ⟨Heap.empty.add (leafNode kind text) rfl fun _ hchild => absurd hchild List.not_mem_nil, rfl, .inl rfl⟩

def leafAssignment (kind : Kind) (text : String) : Assignment :=
  ⟨.null, { fileName := "file" }, (leafNode kind text).outline⟩

theorem exists_leaf_session (kind kind' : Kind) (text text' : String) :
    ∃ (stations : List Station) (bench : Bench) (report report' : Report),
      Session "" fussy stations bench [report, report'] ∧
      report.assignment = leafAssignment kind text ∧
      report'.assignment = leafAssignment kind' text' := by
  have hmade : ∃ later, ((pipeline "" fussy).instantiate {} .null).run leafBench =
      (.ok { context := { compilation := "", message := "" } }, later) := ⟨_, rfl⟩
  obtain ⟨_, hmade⟩ := hmade
  have hready : Session "" fussy ([] ++ [⟨.null, _⟩]) leafBench [] :=
    .elsewhere (.instantiate (.start leafBench) hmade)
  obtain ⟨_, _, result, hfirst⟩ := hready.exists_transform { fileName := "file" }
    (leafBench_has kind text)
  have hagain : Session "" fussy _ leafBench _ := .elsewhere hfirst
  obtain ⟨_, _, result', hsecond⟩ := hagain.exists_transform { fileName := "file" }
    (leafBench_has kind' text')
  exact ⟨_, _, ⟨_, result⟩, ⟨_, result'⟩, hsecond, rfl, rfl⟩

/-- A number, at which the unit fails, and a name may be handed over in either order. -/
theorem units_independent_of_failure :
    ∃ (stations stations' : List Station) (bench bench' : Bench)
        (number name name' number' : Report),
      Session "" fussy stations bench [number, name] ∧
      Session "" fussy stations' bench' [name', number'] ∧
      number.result = .error (.unsupportedNumber "1") ∧
      [number, name].Perm [name', number'] := by
  obtain ⟨stations, bench, number, name, h, hnumber, hname⟩ :=
    exists_leaf_session .numericLiteral .identifier "1" "name"
  obtain ⟨stations', bench', name', number', h', hname', hnumber'⟩ :=
    exists_leaf_session .identifier .numericLiteral "name" "1"
  obtain ⟨halone, hperm, -⟩ := units_independent h
  refine ⟨stations, stations', bench, bench', number, name, name', number', h, h', ?_, ?_⟩
  · obtain ⟨fresh, _, _, hcalls⟩ := halone number List.mem_cons_self {} leafBench
    rw [hnumber] at hcalls
    have hleaf : Host.subtreeDepth (leafNode .numericLiteral "1") ≤ 1 :=
      Host.subtreeDepth_le_iff.mpr ⟨Nat.one_pos, fun _ hchild => absurd hchild List.not_mem_nil⟩
    obtain ⟨outcome, next, _, hcall, hview⟩ := hcalls leafBench _ (1 + 3)
      (leafBench_has .numericLiteral "1") rfl (Nat.add_le_add_right hleaf 3)
    have hfails : Except.mapError Halt.failed
        (.error (.unsupportedNumber "1") : Except Error (UnitOutput Node)) =
          outcome.mapError Halt.failed := congrArg (fun call => call.1.1) hcall
    rw [← hview, ← mapError_failed_injective hfails]
    rfl
  · refine hperm stations' bench' [name', number'] h' ?_
    rw [List.map_cons, List.map_singleton, List.map_cons, List.map_singleton, hnumber, hname, hname',
      hnumber']
    exact .swap _ _ []

end Sample

end Catalogue

end TreeRules
