import TreeRules.Catalogue.Rules
import TreeRules.Proofs.Building
import TreeRules.Proofs.Conduct

/-!
# How the rules of the catalogue behave towards objects

The context refers to one object, the root of the unit being worked on, and no rule looks at it. All
rules of the catalogue are honest, and all are blind to identities.
-/

namespace TreeRules.Catalogue

/-- The objects that a context refers to. -/
def Context.refs (context : Context) : Set Node := { node | context.root = some node }

/-- Contexts that are equal up to the identities of objects. -/
structure Context.Same (context context' : Context) : Prop where
  compilation_eq : context.compilation = context'.compilation
  message_eq : context.message = context'.message
  fileName_eq : context.fileName = context'.fileName
  root_eq : context.root.map Tree.outline = context'.root.map Tree.outline
  unitsSeen_eq : context.unitsSeen = context'.unitsSeen
  offered_eq : context.offered = context'.offered

theorem Context.Same.refl (context : Context) : context.Same context :=
  ⟨rfl, rfl, rfl, rfl, rfl, rfl⟩

/-- Contexts that no rule can tell apart: their messages and their file names are equal. -/
structure Context.Akin (context context' : Context) : Prop where
  message_eq : context.message = context'.message
  fileName_eq : context.fileName = context'.fileName

/-- Contexts in the relation are akin, and an offer that is counted in both leaves them in it. -/
structure Context.Blurs (same : Context → Context → Prop) : Prop where
  akin : ∀ {context context'}, same context context' → context.Akin context'
  count : ∀ {context context'}, same context context' →
    same { context with offered := context.offered + 1 }
      { context' with offered := context'.offered + 1 }

theorem Context.Same.blurs : Blurs Same where
  akin h := ⟨h.message_eq, h.fileName_eq⟩
  count h := { h with offered_eq := congrArg (· + 1) h.offered_eq }

theorem Context.Akin.blurs : Blurs Akin where
  akin h := h
  count h := ⟨h.message_eq, h.fileName_eq⟩

namespace Entry

/-- States with equal memories whose contexts are in the relation. -/
def SameState (same : Context → Context → Prop) (state state' : State) : Prop :=
  same state.1 state'.1 ∧ state.2 = state'.2

section Honest

variable {heap : Heap Node} {node : Node}

theorem retext_keeps {text : String} (hnode : node ∈ heap.objects) :
    RuleM.Keeps (Context.refs ·.1) heap (retext text node) fun later nodes =>
      ∀ other ∈ nodes, other ∈ later.objects := by
  refine (RuleM.Keeps.create (Heap.allocates_relabel hnode)).bind fun _ _ _ hnew => .pure ?_
  exact List.forall_mem_singleton.mpr hnew

theorem visit_keeps (entry : Entry) (hnode : node ∈ heap.objects) :
    RuleM.Keeps (Context.refs ·.1) heap (entry.visit node) fun later nodes =>
      ∀ other ∈ nodes, other ∈ later.objects := by
  cases entry with
  | appendMessage =>
      refine RuleM.Keeps.shared.bind fun _ _ _ _ => ?_
      refine (RuleM.Keeps.create (Heap.allocates_create ?_)).bind fun _ _ _ hnew => .pure ?_
      · exact fun _ hchild => absurd hchild List.not_mem_nil
      · exact List.forall_mem_singleton.mpr hnew
  | transferValue =>
      refine (RuleM.Keeps.create (Heap.allocates_build _ _)).bind fun _ hlater _ hnew => .pure ?_
      refine List.forall_mem_cons.mpr ⟨?_, List.forall_mem_singleton.mpr hnew⟩
      exact Heap.mem_of_le hlater hnode
  | deleteExport | deleteIdentifier | deleteString =>
      exact .pure fun _ hother => absurd hother List.not_mem_nil
  | addExport =>
      refine (RuleM.Keeps.create (Heap.allocates_build _ _)).bind fun _ hlater _ hlast => ?_
      refine (RuleM.Keeps.create (Heap.allocates_create ?_)).bind fun _ _ _ hnew => .pure ?_
      · have hold : ∀ child ∈ Host.children node, child ∈ _ := fun child hchild =>
          Heap.mem_of_le hlater (heap.children_mem hnode child hchild)
        exact List.forall_mem_append.mpr ⟨hold, List.forall_mem_singleton.mpr hlast⟩
      · exact List.forall_mem_singleton.mpr hnew
  | uppercaseIdentifier => exact retext_keeps hnode
  | duplicateStatement | triplicateNumber =>
      refine .pure fun other hother => ?_
      simp only [List.mem_cons, List.not_mem_nil, or_false, or_self] at hother
      exact hother ▸ hnode
  | observe | rejectNumbers => exact .throw _
  | numberIdentifiers =>
      refine RuleM.Keeps.shared.bind fun _ hlater state _ => ?_
      refine RuleM.Keeps.bind (RuleM.Keeps.update fun _ => ?_) fun _ hlater' _ _ => ?_
      · exact subset_rfl
      · exact retext_keeps (Heap.mem_of_le (hlater.trans hlater') hnode)
  | stampFileName =>
      refine RuleM.Keeps.shared.bind fun _ hlater state _ => ?_
      obtain ⟨⟨_, _, _ | fileName, _, _, _⟩, _⟩ := state
      · exact .throw _
      · exact retext_keeps (Heap.mem_of_le hlater hnode)

theorem honest (scope : String) (entry : Entry) :
    (entry.ruleType scope).rule.Honest (Context.refs ·.1) where
  wants _ hrefs := by cases entry <;> exact hrefs
  visit hnode := visit_keeps entry hnode

end Honest

section Blind

variable {same : Context → Context → Prop} {left right : Node}
  (houtline : left.outline = right.outline)

include houtline

theorem kind_eq_of_outline_eq : left.kind = right.kind := by
  rw [Node.kind, Node.kind, Tree.label_eq_outline_label, houtline, ← Tree.label_eq_outline_label]

theorem textOrEmpty_eq_of_outline_eq : left.textOrEmpty = right.textOrEmpty := by
  rw [Node.textOrEmpty, Node.textOrEmpty, Node.text, Node.text, Tree.label_eq_outline_label,
    houtline, ← Tree.label_eq_outline_label]

theorem retext_mirrors (text : String) :
    RuleM.Mirrors (SameState same) SameOutlines (retext text left) (retext text right) := by
  refine (RuleM.Mirrors.create fun supply supply' => ?_).bind fun _ _ new new' hnew => .pure ?_
  · rw [Node.withText, Node.withText, Tree.relabel, Tree.relabel, Blueprint.outline_create,
      Blueprint.outline_create, Tree.map_outline_children, Tree.map_outline_children, houtline,
      kind_eq_of_outline_eq houtline]
  · exact congrArg (fun outline => [outline]) hnew

theorem wants_mirrors (hblurs : Context.Blurs same) (entry : Entry) {state state' : State}
    (hsame : SameState same state state') :
    ((entry.wants left).run state).1 = ((entry.wants right).run state').1 ∧
      SameState same ((entry.wants left).run state).2 ((entry.wants right).run state').2 := by
  have hkind : left.kind = right.kind := kind_eq_of_outline_eq houtline
  obtain ⟨hcontext, hmemory⟩ := hsame
  by_cases hobserve : entry = .observe
  · subst hobserve
    exact ⟨rfl, hblurs.count hcontext, hmemory⟩
  · simp only [wants, hobserve, hkind]
    exact ⟨rfl, hcontext, hmemory⟩

theorem visit_mirrors (hblurs : Context.Blurs same) (entry : Entry) :
    RuleM.Mirrors (SameState same) SameOutlines (entry.visit left) (entry.visit right) := by
  have htext : left.textOrEmpty = right.textOrEmpty := textOrEmpty_eq_of_outline_eq houtline
  cases entry with
  | appendMessage =>
      refine RuleM.Mirrors.shared.bind fun _ _ state state' hsame => ?_
      refine (RuleM.Mirrors.create fun supply supply' => ?_).bind fun _ _ _ _ hnew => .pure ?_
      · rw [Node.leaf, Node.leaf, Blueprint.outline_create, Blueprint.outline_create, htext,
          (hblurs.akin hsame.1).message_eq]
      · exact congrArg (fun outline => [outline]) hnew
  | transferValue =>
      refine (RuleM.Mirrors.create fun supply supply' => ?_).bind fun _ _ _ _ hnew => .pure ?_
      · rw [Blueprint.outline_build, Blueprint.outline_build]
      · simp only [SameOutlines, List.map_cons, houtline, hnew]
  | deleteExport | deleteIdentifier | deleteString => exact .pure rfl
  | addExport =>
      refine (RuleM.Mirrors.create fun supply supply' => ?_).bind fun _ _ _ _ hlast => ?_
      · rw [Blueprint.outline_build, Blueprint.outline_build]
      refine (RuleM.Mirrors.create fun supply supply' => ?_).bind fun _ _ _ _ hnew => .pure ?_
      · rw [Node.copyWith, Node.copyWith, Blueprint.outline_create, Blueprint.outline_create,
          List.map_append, List.map_append, Tree.map_outline_children, Tree.map_outline_children,
          Tree.label_eq_outline_label, Tree.label_eq_outline_label, houtline, List.map_singleton,
          List.map_singleton, hlast]
      · exact congrArg (fun outline => [outline]) hnew
  | uppercaseIdentifier =>
      simp only [visit, htext]
      exact retext_mirrors houtline _
  | duplicateStatement | triplicateNumber =>
      refine .pure ?_
      simp only [SameOutlines, List.map_cons, houtline]
  | observe => exact .throw _
  | numberIdentifiers =>
      simp only [visit, htext]
      refine RuleM.Mirrors.shared.bind fun _ _ state state' hsame => ?_
      obtain ⟨_, memory⟩ := state
      obtain ⟨_, memory'⟩ := state'
      obtain rfl : memory = memory' := hsame.2
      refine Paired.bind (RuleM.Mirrors.update ?_) fun _ _ _ _ _ => ?_
      · exact fun _ _ hsame => ⟨hsame.1, rfl⟩
      · exact retext_mirrors houtline _
  | stampFileName =>
      simp only [visit, htext]
      refine RuleM.Mirrors.shared.bind fun _ _ state state' hsame => ?_
      have hfileName : state.1.fileName = state'.1.fileName := (hblurs.akin hsame.1).fileName_eq
      simp only [hfileName]
      cases state'.1.fileName with
      | none => exact .throw _
      | some fileName => exact retext_mirrors houtline _
  | rejectNumbers =>
      simp only [visit, htext]
      exact .throw _

end Blind

theorem blind {same : Context → Context → Prop} (hblurs : Context.Blurs same) (scope : String)
    (entry : Entry) : (entry.ruleType scope).rule.Blind (SameState same) where
  wants hsame houtline := wants_mirrors houtline hblurs entry hsame
  visit houtline := visit_mirrors houtline hblurs entry

end Entry

variable (scope : String) (entries : List Entry)

theorem forall_mem_rules {p : RuleType Context Error Node → Prop}
    (h : ∀ entry : Entry, p (entry.ruleType scope)) : ∀ type ∈ (pipeline scope entries).rules, p type := by
  intro type htype
  obtain ⟨entry, _, rfl⟩ := List.mem_map.mp htype
  exact h entry

theorem pipeline_honest :
    ∀ rule ∈ RuleType.instances (pipeline scope entries).rules, rule.Honest (Context.refs ·.1) := by
  refine RuleType.instances_honest (forall_mem_rules scope entries fun entry => ?_)
  exact entry.honest scope

theorem pipeline_blind_of_blurs {same : Context → Context → Prop} (hblurs : Context.Blurs same) :
    ∀ rule ∈ RuleType.instances (pipeline scope entries).rules,
      rule.Blind fun state state' => same state.1 state'.1 ∧ state.2 = state'.2 := by
  refine RuleType.instances_blind (forall_mem_rules scope entries fun entry => ?_)
  exact entry.blind hblurs scope

theorem pipeline_blind : ∀ rule ∈ RuleType.instances (pipeline scope entries).rules,
    rule.Blind fun state state' => state.1.Same state'.1 ∧ state.2 = state'.2 :=
  pipeline_blind_of_blurs scope entries Context.Same.blurs

section Sample

open Dispatch

def duplicating : Pipeline Context Error Node := pipeline "" [.observe, .duplicateStatement]

/-- A first run of the sample pipeline, with identities from `next` on. -/
def duplicatingRun (next : ObjectId) : Run (Context × RuleType.Memories duplicating.rules) where
  workspace := { shared := ({ compilation := "", message := "" }, {}, {}, ()), supply := ⟨next⟩ }
  statistics := .empty

def statement (id : ObjectId) : Node := .node id { kind := .expressionStatement } []

def block (id : ObjectId) (statements : List Node) : Node := .node id { kind := .block } statements

/-- A block that holds one statement object twice. -/
def sharedBlock : Node := block 1 [statement 0, statement 0]

def sampleHeap : Heap Node :=
  let heap := Heap.empty.add (statement 0) rfl fun _ hchild => absurd hchild List.not_mem_nil
  have hstatement : statement 0 ∈ heap.objects := Heap.mem_add _ _
  heap.add sharedBlock rfl
    (List.forall_mem_cons.mpr ⟨hstatement, List.forall_mem_singleton.mpr hstatement⟩)

theorem sharedBlock_mem : sharedBlock ∈ sampleHeap.objects := .inl rfl

theorem sampleHeap_covers : sampleHeap.Covers (Context.refs ·.1) (duplicatingRun 2).workspace := by
  refine ⟨rfl, fun node hnode => ?_⟩
  cases hnode

theorem exists_ok_of_outlines {σ ε : Type} {rules : List (Rule σ ε Node)} {depth : Nat}
    {root : Node} {run : Run σ} {outlines : List (Outline Label)}
    (h : (((dispatch rules depth root).run run).1.map (List.map Tree.outline)).toOption =
      some outlines) : ∃ nodes after, (dispatch rules depth root).run run = (.ok nodes, after) ∧
      nodes.map Tree.outline = outlines := by
  rcases hdispatch : (dispatch rules depth root).run run with ⟨_ | nodes, after⟩ <;>
    rw [hdispatch] at h
  · cases h
  · exact ⟨nodes, after, rfl, Option.some.inj h⟩

theorem duplicating_run : ∃ nodes after,
    (dispatch (RuleType.instances duplicating.rules) 2 sharedBlock).run (duplicatingRun 2) =
      (.ok nodes, after) ∧
    nodes.map Tree.outline = [(block 2 (List.replicate 4 (statement 0))).outline] :=
  exists_ok_of_outlines (by decide +kernel)

/-- The first run of a pipeline of the catalogue, with identities from `next` on. -/
def firstRun (entries : List Entry) (next : ObjectId) :
    Run (Context × RuleType.Memories (pipeline "" entries).rules) :=
  let context : Context := { compilation := "", message := "" }
  { workspace := {
      shared := (context, ((RuleType.freshAll (pipeline "" entries).rules).run context).1)
      supply := ⟨next⟩ }
    statistics := .empty }

theorem firstRun_covers (entries : List Entry) :
    sampleHeap.Covers (Context.refs ·.1) (firstRun entries 2).workspace := by
  refine ⟨rfl, fun node hnode => ?_⟩
  cases hnode

end Sample

end TreeRules.Catalogue
