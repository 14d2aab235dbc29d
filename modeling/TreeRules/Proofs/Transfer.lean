import TreeRules.Proofs.CatalogueRewriting
import TreeRules.Proofs.Declarations

/-!
# The transfer of the result

Three rules of the catalogue work together: `value` is declared as the result behind every
declaration, exports are deleted, and every source file ends by declaring `finalValue` as the value.
All names that were bound stay bound as they were, and `finalValue` leads to the result. Names that
lead to `value` were unbound before; now they run in a circle or lead to the result as well.
-/

namespace TreeRules

open Outline

namespace Catalogue

/-- The rules of the transfer, in order. -/
def transferring : List Entry := [.transferValue, .deleteExport, .addExport]

/-- The statement that ends a source file: the declaration in it has been taken up in its turn. -/
def closing : Outline Label :=
  .node Entry.finalStatement.outline.label
    (Entry.finalStatement.outline.children ++ [Entry.transferred.outline])

mutual

/-- What the transfer makes of a tree. -/
def transfer : Outline Label → List (Outline Label)
  | .node label children =>
    match label.kind with
    | .variableDeclaration => [.node label (transferAll children), Entry.transferred.outline]
    | .exportAssignment => []
    | .sourceFile => [.node label (transferAll children ++ [closing])]
    | _ => [.node label (transferAll children)]

def transferAll : List (Outline Label) → List (Outline Label)
  | [] => []
  | child :: rest => transfer child ++ transferAll rest

end

theorem transferAll_eq_flatMap (children : List (Outline Label)) :
    transferAll children = children.flatMap transfer := by
  induction children with
  | nil => rfl
  | cons child rest ih => rw [transferAll, ih, List.flatMap_cons]

/-- How one node passes the three rules. -/
def passed (tree : Outline Label) : List (Outline Label) :=
  match tree.label.kind with
  | .variableDeclaration => [tree, Entry.transferred.outline]
  | .exportAssignment => []
  | .sourceFile => [.node tree.label (tree.children ++ [Entry.finalStatement.outline])]
  | _ => [tree]

theorem passThrough_transferring (message fileName : String) (tree : Outline Label) :
    passThrough (transferring.map (Entry.rewrite message fileName)) [tree] = passed tree := by
  obtain ⟨⟨kind, text⟩, children⟩ := tree
  cases kind <;> rfl

theorem become_transfer (message fileName : String) (tree : Outline Label) :
    transfer tree =
      (passThrough (transferring.map (Entry.rewrite message fileName)) [tree]).map fun survivor =>
        .node survivor.label (survivor.children.flatMap transfer) := by
  rw [passThrough_transferring]
  obtain ⟨⟨kind, text⟩, children⟩ := tree
  cases kind with
  | variableDeclaration =>
      rw [transfer, transferAll_eq_flatMap]
      rfl
  | exportAssignment => rfl
  | sourceFile =>
      rw [transfer, transferAll_eq_flatMap]
      have hlast : transfer Entry.finalStatement.outline = [closing] := rfl
      rw [passed, label_node, children_node, List.map_singleton, children_node, List.flatMap_append,
        List.flatMap_singleton, hlast]
      rfl
  | _ =>
      rw [transfer, transferAll_eq_flatMap]
      rfl

section Declarations

/-- Whether the transfer declares the name. -/
def isAdded (entry : String × Label) : Bool := entry.1 == "value" || entry.1 == "finalValue"

def valueEntry : String × Label := ("value", { kind := .identifier, text := some "result" })

def finalEntry : String × Label := ("finalValue", { kind := .identifier, text := some "value" })

/-- The new declarations are the old ones in their order, and between them some that were added. -/
structure Supplements (new old : List (String × Label)) : Prop where
  filter_eq : (new.filter fun entry => !isAdded entry) = old
  added : ∀ entry ∈ new, isAdded entry = true → entry = valueEntry ∨ entry = finalEntry

namespace Supplements

variable {new new' old old' : List (String × Label)} {entry : String × Label}

theorem nil : Supplements [] [] := ⟨rfl, fun _ hentry => absurd hentry List.not_mem_nil⟩

theorem append (h : Supplements new old) (h' : Supplements new' old') :
    Supplements (new ++ new') (old ++ old') where
  filter_eq := by rw [List.filter_append, h.filter_eq, h'.filter_eq]
  added := List.forall_mem_append.mpr ⟨h.added, h'.added⟩

theorem kept (h : isAdded entry = false) : Supplements [entry] [entry] where
  filter_eq := List.filter_cons_of_pos (by rw [h]; rfl)
  added := List.forall_mem_singleton.mpr fun htrue => by
    rw [h] at htrue
    cases htrue

theorem flatMap {α : Type} {items : List α} {f g : α → List (String × Label)}
    (h : ∀ item ∈ items, Supplements (f item) (g item)) :
    Supplements (items.flatMap f) (items.flatMap g) := by
  induction items with
  | nil => exact nil
  | cons item items ih =>
      obtain ⟨hitem, hitems⟩ := List.forall_mem_cons.mp h
      rw [List.flatMap_cons, List.flatMap_cons]
      exact hitem.append (ih hitems)

end Supplements

theorem transferred_supplements : Supplements Entry.transferred.outline.declarations [] where
  filter_eq := by decide
  added := by decide

theorem closing_supplements : Supplements closing.declarations [] where
  filter_eq := by decide
  added := by decide

/-- Declarations are usual ones with an initializer that stays, their names are not those that the
transfer adds, and no export holds any. -/
structure IsTransferable (tree : Outline Label) : Prop where
  declared : ∀ inner ∈ tree.subtrees, inner.label.kind = .variableDeclaration →
    ∃ name initializer,
      inner.children = [.node { kind := .identifier, text := some name } [], initializer] ∧
      initializer.label.kind ≠ .exportAssignment ∧ name ≠ "value" ∧ name ≠ "finalValue"
  exported : ∀ inner ∈ tree.subtrees, inner.label.kind = .exportAssignment →
    ∀ below ∈ inner.subtrees, below.label.kind ≠ .variableDeclaration

theorem IsTransferable.child {label : Label} {children : List (Outline Label)}
    (h : IsTransferable (.node label children)) {child : Outline Label}
    (hchild : child ∈ children) : IsTransferable child := by
  have hsubtrees : ∀ inner ∈ child.subtrees, inner ∈ (node label children).subtrees := by
    intro inner hinner
    rw [subtrees_node]
    exact List.mem_cons_of_mem _ (List.mem_flatMap.mpr ⟨child, hchild, hinner⟩)
  exact ⟨fun inner hinner => h.declared inner (hsubtrees inner hinner),
    fun inner hinner => h.exported inner (hsubtrees inner hinner)⟩

/-- A tree that is not deleted keeps its label, and stays where it was before all that is added. -/
theorem transfer_eq_cons {tree : Outline Label} (h : tree.label.kind ≠ .exportAssignment) :
    ∃ below rest, transfer tree = .node tree.label below :: rest := by
  obtain ⟨⟨kind, text⟩, children⟩ := tree
  cases kind with
  | exportAssignment => exact absurd rfl h
  | _ => exact ⟨_, _, rfl⟩

theorem transfer_sourceFile {tree : Outline Label} (h : tree.label.kind = .sourceFile) :
    transfer tree = [.node tree.label (transferAll tree.children ++ [closing])] := by
  obtain ⟨⟨kind, text⟩, children⟩ := tree
  obtain rfl : kind = .sourceFile := h
  rfl

theorem declarations_export {children : List (Outline Label)} {label : Label}
    (h : IsTransferable (.node label children)) (hkind : label.kind = .exportAssignment) :
    (node label children).declarations = [] := by
  refine List.filterMap_eq_nil_iff.mpr fun inner hinner => declaration?_of_ne ?_
  exact h.exported _ (mem_subtrees_self _) hkind inner hinner

/-- What becomes of a declaration declares what the declaration did. -/
theorem declaration?_transferAll {label : Label} {initializer : Outline Label} {name : String}
    (hkind : label.kind = .variableDeclaration)
    (hinitializer : initializer.label.kind ≠ .exportAssignment) :
    (node label (transferAll [node { kind := .identifier, text := some name } [],
      initializer])).declaration? = some (name, initializer.label) := by
  obtain ⟨below, rest, htransfer⟩ := transfer_eq_cons hinitializer
  rw [transferAll, transferAll, htransfer]
  exact if_pos hkind

/-- **The transfer only adds declarations.** -/
theorem transfer_supplements {tree : Outline Label} (h : IsTransferable tree) :
    Supplements ((transfer tree).flatMap declarations) tree.declarations := by
  induction tree using inductionOn with
  | node label children ih =>
      have hchildren : Supplements ((transferAll children).flatMap declarations)
          (children.flatMap declarations) := by
        rw [transferAll_eq_flatMap, List.flatMap_assoc]
        exact .flatMap fun child hchild => ih child hchild (h.child hchild)
      have hdeclared := h.declared _ (mem_subtrees_self _)
      -- a node that stays as it is declares nothing itself
      have hkept (hkind : label.kind ≠ .variableDeclaration) (added : List (Outline Label))
          (hadded : Supplements (added.flatMap declarations) []) :
          Supplements ([node label (transferAll children ++ added)].flatMap declarations)
            (node label children).declarations := by
        have hnone (below : List (Outline Label)) : (node label below).declaration? = none :=
          declaration?_of_ne hkind
        rw [List.flatMap_singleton, declarations_node, declarations_node, hnone, hnone,
          List.flatMap_append]
        simpa using hchildren.append hadded
      obtain ⟨kind, text⟩ := label
      cases kind with
      | variableDeclaration =>
          obtain ⟨name, initializer, rfl, hinitializer, hvalue, hfinal⟩ := hdeclared rfl
          have hordinary : isAdded (name, initializer.label) = false := by
            rw [isAdded, beq_false_of_ne hvalue, beq_false_of_ne hfinal]
            rfl
          have hhere := (Supplements.kept hordinary).append hchildren
          have hold : (node ⟨.variableDeclaration, text⟩
              [node ⟨.identifier, some name⟩ [], initializer]).declaration? =
                some (name, initializer.label) := rfl
          rw [transfer, List.flatMap_cons, declarations_node, declarations_node, hold,
            declaration?_transferAll rfl hinitializer]
          simpa using hhere.append transferred_supplements
      | exportAssignment =>
          rw [declarations_export h rfl]
          exact .nil
      | sourceFile => exact hkept nofun [closing] (by simpa using closing_supplements)
      | _ => simpa [transfer] using hkept nofun [] .nil

/-- A source file that was transferred declares both added names. -/
theorem added_mem_declarations {tree : Outline Label} (hkind : tree.label.kind = .sourceFile) :
    valueEntry ∈ (transfer tree).flatMap declarations ∧
      finalEntry ∈ (transfer tree).flatMap declarations := by
  have hclosing : valueEntry ∈ closing.declarations ∧ finalEntry ∈ closing.declarations := by decide
  have hmem {entry : String × Label} (hentry : entry ∈ closing.declarations) :
      entry ∈ (transfer tree).flatMap declarations := by
    rw [transfer_sourceFile hkind, List.flatMap_singleton, declarations_node, List.flatMap_append,
      List.flatMap_singleton]
    exact List.mem_append_right _ (List.mem_append_right _ hentry)
  exact ⟨hmem hclosing.1, hmem hclosing.2⟩

end Declarations

namespace Supplements

variable {new old : List (String × Label)} (h : Supplements new old) {name text : String}
  {label : Label}

include h

theorem lookup_eq (hadded : isAdded (name, label) = false) :
    new.lookup name = old.lookup name := by
  obtain ⟨hvalue, hfinal⟩ := Bool.or_eq_false_iff.mp hadded
  rw [← h.filter_eq]
  refine (lookup_filter fun entry _ hentry heq => ?_).symm
  rw [isAdded, heq, hvalue, hfinal] at hentry
  cases hentry

/-- No old declaration has one of the added names. -/
theorem isAdded_of_lookup (hlookup : old.lookup name = some label) :
    isAdded (name, label) = false := by
  obtain ⟨before, after, hentries, -⟩ := List.lookup_eq_some_iff.mp hlookup
  have hmem : (name, label) ∈ new.filter fun entry => !isAdded entry := by
    rw [h.filter_eq, hentries]
    exact List.mem_append_right _ List.mem_cons_self
  exact (Bool.not_eq_eq_eq_not.mp (List.mem_filter.mp hmem).2).trans Bool.not_true

theorem lookup_of_old (hlookup : old.lookup name = some label) : new.lookup name = some label := by
  rw [h.lookup_eq (h.isAdded_of_lookup hlookup), hlookup]

/-- What a name stood for, it still stands for. -/
theorem standsFor (hstands : StandsFor old name text) : StandsFor new name text := by
  induction hstands with
  | last hlookup hkind htext => exact .last (h.lookup_of_old hlookup) hkind htext
  | next hlookup hkind htext _ ih => exact .next (h.lookup_of_old hlookup) hkind htext ih

theorem not_standsFor_value : ¬ StandsFor old "value" text := by
  rintro (⟨hlookup, -⟩ | ⟨hlookup, -⟩) <;> cases h.isAdded_of_lookup hlookup

theorem not_standsFor_finalValue : ¬ StandsFor old "finalValue" text := by
  rintro (⟨hlookup, -⟩ | ⟨hlookup, -⟩) <;> cases h.isAdded_of_lookup hlookup

theorem lookup_cases (hlookup : new.lookup name = some label) :
    old.lookup name = some label ∨ (name, label) = valueEntry ∨ (name, label) = finalEntry := by
  obtain ⟨before, after, hentries, -⟩ := List.lookup_eq_some_iff.mp hlookup
  have hmem : (name, label) ∈ new := by simp [hentries]
  cases hadded : isAdded (name, label) with
  | true => exact .inr (h.added _ hmem hadded)
  | false => exact .inl ((h.lookup_eq hadded).symm.trans hlookup)

/-- What a name stands for now, it stood for before, or else the result did. -/
theorem standsFor_or (hstands : StandsFor new name text) :
    StandsFor old name text ∨ StandsFor old "result" text := by
  induction hstands with
  | last hlookup hkind htext =>
      rcases h.lookup_cases hlookup with hold | hvalue | hfinal
      · exact .inl (.last hold hkind htext)
      · cases hvalue
        exact absurd rfl hkind
      · cases hfinal
        exact absurd rfl hkind
  | next hlookup hkind htext _ ih =>
      rcases h.lookup_cases hlookup with hold | hvalue | hfinal
      · exact ih.imp_left (.next hold hkind htext)
      · cases hvalue
        cases htext
        exact .inr (ih.elim id id)
      · cases hfinal
        cases htext
        exact .inr (ih.resolve_left h.not_standsFor_value)

/-- The first declaration of an added name is as good as all others. -/
theorem lookup_added {entry : String × Label} (hmem : entry ∈ new)
    (hadded : ∀ other ∈ [valueEntry, finalEntry], other.1 = entry.1 → other.2 = entry.2)
    (hentry : isAdded entry = true) : new.lookup entry.1 = some entry.2 := by
  refine lookup_eq_of_forall hmem fun other hother hname => ?_
  have hisAdded : isAdded other = true := by rw [isAdded, hname, ← isAdded, hentry]
  refine hadded other ?_ hname
  rcases h.added other hother hisAdded with rfl | rfl
  · exact List.mem_cons_self
  · exact List.mem_cons_of_mem _ List.mem_cons_self

/-- The final value is the result. -/
theorem standsFor_finalValue_iff (hvalue : valueEntry ∈ new) (hfinal : finalEntry ∈ new) :
    StandsFor new "finalValue" text ↔ StandsFor old "result" text := by
  constructor
  · intro hstands
    exact (h.standsFor_or hstands).resolve_left h.not_standsFor_finalValue
  · intro hstands
    have hvalue' := h.lookup_added hvalue (by decide) rfl
    have hfinal' := h.lookup_added hfinal (by decide) rfl
    exact .next hfinal' rfl rfl (.next hvalue' rfl rfl (h.standsFor hstands))

end Supplements

/-- The node declares a name that the transfer does not add, with an initializer that stays. -/
def declaresOrdinary : Node → Bool
  | .node _ _ [.node _ ⟨.identifier, some name⟩ [], initializer] =>
    initializer.label.kind ≠ .exportAssignment ∧ name ≠ "value" ∧ name ≠ "finalValue"
  | _ => false

section Bindings

variable {root : Node}

theorem children_outline_of_declaresOrdinary {node : Node} (h : declaresOrdinary node) :
    ∃ name initializer,
      node.outline.children = [.node { kind := .identifier, text := some name } [], initializer] ∧
      initializer.label.kind ≠ .exportAssignment ∧ name ≠ "value" ∧ name ≠ "finalValue" := by
  unfold declaresOrdinary at h
  split at h
  case h_1 id label inner name initializer =>
      obtain ⟨hstays, hordinary⟩ := of_decide_eq_true h
      refine ⟨name, initializer.outline, ?_, ?_, hordinary⟩
      · rw [← Tree.map_outline_children]
        rfl
      · rwa [Entry.label_outline]
  case h_2 => cases h

variable
  (hdeclared : ∀ node ∈ root.preorder,
    node.label.kind = .variableDeclaration → declaresOrdinary node)
  (hexported : ∀ node ∈ root.preorder, node.label.kind = .exportAssignment →
    ∀ below ∈ node.preorder, below.label.kind ≠ .variableDeclaration)

include hdeclared hexported

theorem isTransferable_outline : IsTransferable root.outline where
  declared := by
    rw [Tree.forall_mem_subtrees_iff]
    intro node hnode hkind
    rw [Entry.label_outline] at hkind
    exact children_outline_of_declaresOrdinary (hdeclared node hnode hkind)
  exported := by
    rw [Tree.forall_mem_subtrees_iff]
    intro node hnode hkind
    rw [Entry.label_outline] at hkind
    rw [Tree.forall_mem_subtrees_iff]
    intro below hbelow
    rw [Entry.label_outline]
    exact hexported node hnode hkind below hbelow

/-- **The transfer keeps bindings, and the final value is the result.** In a source file, let every
declaration declare an ordinary name, and let no export hold a declaration. Then the unit becomes
one tree, in which `finalValue` resolves to what `result` resolved to, and every name that resolved
to a text still resolves to it. -/
theorem transfer_keeps_bindings {scope : String} {services : Services}
    {transformer : UnitTransformer Context} {bench : Bench} {depth : Nat}
    (hkind : root.label.kind = .sourceFile) (hroot : bench.Has root)
    (hdepth : Host.subtreeDepth root + 3 ≤ depth) :
    ∃ out next later,
      ((pipeline scope transferring).transform depth services root transformer).run bench =
        ((.ok (.single out), next), later) ∧
      Node.resolve out "finalValue" = root.resolve "result" ∧
      ∀ name text, root.resolve name = some text → Node.resolve out name = some text := by
  obtain ⟨nodes, next, later, htransform, hnodes⟩ :=
    @transform_rewrites scope transferring depth services root bench transformer (by decide) _
      (become_transfer _ _) hroot hdepth
  have hfile : root.outline.label.kind = .sourceFile := by rwa [Entry.label_outline]
  have hadded := added_mem_declarations hfile
  have hsupplements := transfer_supplements (isTransferable_outline hdeclared hexported)
  rw [transfer_sourceFile hfile] at hnodes hadded hsupplements
  obtain ⟨out, rfl, hout⟩ := List.map_eq_singleton_iff.mp hnodes
  rw [List.flatMap_singleton, ← hout] at hadded hsupplements
  refine ⟨out, next, later, htransform, ?_, fun name text hresolve => ?_⟩
  · ext text
    rw [Node.resolve_eq_some_iff, Node.resolve_eq_some_iff]
    exact hsupplements.standsFor_finalValue_iff hadded.1 hadded.2
  · rw [Node.resolve_eq_some_iff] at hresolve ⊢
    exact hsupplements.standsFor hresolve

end Bindings

section Sample

open NodeBlueprint in
/-- A result that is declared twice, an export, and a name that is left open. -/
def exporting : NodeBlueprint :=
  sourceFile [exportAssignment (identifier "result"),
    variableDeclaration "result" (identifier "first"),
    NodeBlueprint.block [variableDeclaration "result" (stringLiteral "hidden")],
    variableStatement [variableDeclaration "first" (stringLiteral "text")],
    variableDeclaration "open" (identifier "value")]

def exported : Node := (exporting.build.run {}).1

def exportedBench : Bench := { supply := (exporting.build.run {}).2 }

/-- The final value is the literal behind the first result. -/
theorem transfer_keeps_bindings_exported : ∃ out next later,
    ((pipeline "" transferring).transform (Host.subtreeDepth exported + 3) {} exported
        { context := { compilation := "", message := "" } }).run exportedBench =
      ((.ok (.single out), next), later) ∧
    Node.resolve out "finalValue" = some "text" ∧ Node.resolve out "first" = some "text" := by
  obtain ⟨out, next, later, htransform, hresult, hkept⟩ :=
    @transfer_keeps_bindings exported (by decide) (by decide) "" {}
      { context := { compilation := "", message := "" } } exportedBench
      (Host.subtreeDepth exported + 3) (by decide) (Bench.has_build exporting) le_rfl
  exact ⟨out, next, later, htransform, hresult.trans (by decide), hkept _ _ (by decide)⟩

end Sample

end Catalogue

end TreeRules
