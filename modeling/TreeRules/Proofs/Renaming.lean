import TreeRules.Proofs.CatalogueRewriting
import TreeRules.Proofs.Declarations

/-!
# Renaming keeps bindings

Two rules of the catalogue rename all identifiers of a tree and leave everything else in its place.
The declarations of the new tree are those of the old one under the new names, so a name that was
renamed stands for what it stood for before. The names that matter must not be confused: two names
with one upper-case form become one name.
-/

namespace TreeRules

/-- An identifier under a new name; other labels stay. -/
def Label.rename (f : String → String) (label : Label) : Label :=
  if label.kind = .identifier then { label with text := some (f (label.text.getD "")) } else label

namespace Label

variable {f : String → String} {label : Label}

@[simp]
theorem kind_rename (f : String → String) (label : Label) : (label.rename f).kind = label.kind := by
  rw [rename]
  split <;> rfl

theorem rename_of_ne (h : label.kind ≠ .identifier) : label.rename f = label := if_neg h

theorem text_rename {text : String} (hkind : label.kind = .identifier)
    (htext : label.text = some text) : (label.rename f).text = some (f text) := by
  rw [rename, if_pos hkind, htext]
  rfl

end Label

namespace Outline

variable {α β : Type}

mutual

/-- The outline with all labels changed. -/
def map (f : α → β) : Outline α → Outline β
  | node label children => node (f label) (mapAll f children)

def mapAll (f : α → β) : List (Outline α) → List (Outline β)
  | [] => []
  | child :: rest => map f child :: mapAll f rest

end

theorem mapAll_eq_map (f : α → β) (children : List (Outline α)) :
    mapAll f children = children.map (map f) := by
  induction children with
  | nil => rfl
  | cons child rest ih => simp [mapAll, ih]

@[simp]
theorem map_node (f : α → β) (label : α) (children : List (Outline α)) :
    (node label children).map f = node (f label) (children.map (map f)) := by
  simp [map, mapAll_eq_map]

theorem subtrees_map (f : α → β) (tree : Outline α) :
    (tree.map f).subtrees = tree.subtrees.map (map f) := by
  induction tree using inductionOn with
  | node label children ih =>
      have hchildren : (children.map (map f)).flatMap subtrees =
          (children.flatMap subtrees).map (map f) := by
        rw [List.flatMap_map, List.map_flatMap]
        exact List.flatMap_congr ih
      rw [map_node, subtrees_node, subtrees_node, List.map_cons, map_node, hchildren]

/-- The texts of the identifiers. -/
def names (tree : Outline Label) : Set String :=
  { text | ∃ inner ∈ tree.subtrees, inner.label.kind = .identifier ∧ inner.label.text = some text }

/-- Every identifier has a text, and what a declaration declares is an identifier or has none. -/
structure IsNamed (tree : Outline Label) : Prop where
  identifiers : ∀ inner ∈ tree.subtrees, inner.label.kind = .identifier →
    ∃ text, inner.label.text = some text
  declared : ∀ inner ∈ tree.subtrees, inner.label.kind = .variableDeclaration →
    ∀ first ∈ inner.children.head?, first.label.kind = .identifier ∨ first.label.text = none

section Declarations

variable {tree : Outline Label} {f : String → String}

theorem declaration?_map (h : tree.IsNamed) {inner : Outline Label}
    (hinner : inner ∈ tree.subtrees) : (inner.map (Label.rename f)).declaration? =
      inner.declaration?.map (Prod.map f (Label.rename f)) := by
  have hdeclared := h.declared inner hinner
  have hchildren : ∀ child ∈ inner.children, child ∈ tree.subtrees :=
    fun child => mem_subtrees_of_mem_children hinner
  obtain ⟨label, children⟩ := inner
  rw [map_node]
  match children with
  | [] | [_] => rfl
  | ⟨first, _⟩ :: ⟨second, _⟩ :: _ =>
      simp only [List.map_cons, map_node, declaration?, Label.kind_rename, label_node]
      by_cases hkind : label.kind = .variableDeclaration
      · rw [if_pos hkind, if_pos hkind, Option.map_map]
        by_cases hidentifier : first.kind = .identifier
        · obtain ⟨text, htext⟩ := h.identifiers _ (hchildren _ List.mem_cons_self) hidentifier
          have htext : first.text = some text := htext
          rw [Label.text_rename hidentifier htext, htext]
          rfl
        · have hnone : first.text = none := (hdeclared hkind _ rfl).resolve_left hidentifier
          rw [Label.rename_of_ne hidentifier, hnone]
          rfl
      · rw [if_neg hkind, if_neg hkind]
        rfl

theorem declarations_map (h : tree.IsNamed) :
    (tree.map (Label.rename f)).declarations =
      tree.declarations.map (Prod.map f (Label.rename f)) := by
  rw [declarations, declarations, subtrees_map, List.filterMap_map, List.map_filterMap]
  exact List.filterMap_congr fun inner hinner => declaration?_map h hinner

/-- What is declared is a name of the tree, and what it is bound to has a label of the tree. -/
theorem of_mem_declarations (h : tree.IsNamed) {entry : String × Label}
    (hentry : entry ∈ tree.declarations) :
    entry.1 ∈ tree.names ∧ ∃ inner ∈ tree.subtrees, inner.label = entry.2 := by
  obtain ⟨inner, hinner, hdeclaration⟩ := List.mem_filterMap.mp hentry
  have hdeclared := h.declared inner hinner
  have hchildren : ∀ child ∈ inner.children, child ∈ tree.subtrees :=
    fun child => mem_subtrees_of_mem_children hinner
  obtain ⟨label, children⟩ := inner
  match children with
  | [] | [_] => cases hdeclaration
  | first :: second :: rest =>
      rw [declaration?] at hdeclaration
      by_cases hkind : label.kind = .variableDeclaration
      · rw [if_pos hkind] at hdeclaration
        obtain ⟨name, hname, rfl⟩ := Option.map_eq_some_iff.mp hdeclaration
        have hidentifier : first.label.kind = .identifier := by
          refine (hdeclared hkind first rfl).resolve_right fun hnone => ?_
          rw [hnone] at hname
          cases hname
        exact ⟨⟨first, hchildren first List.mem_cons_self, hidentifier, hname⟩, second,
          hchildren second (List.mem_cons_of_mem _ List.mem_cons_self), rfl⟩
      · rw [if_neg hkind] at hdeclaration
        cases hdeclaration

variable {known : Set String} (hnames : tree.names ⊆ known) (hinj : Set.InjOn f known)

include hnames hinj

theorem lookup_declarations_map (h : tree.IsNamed) {name : String} (hname : name ∈ known) :
    (tree.map (Label.rename f)).declarations.lookup (f name) =
      (tree.declarations.lookup name).map (Label.rename f) := by
  rw [declarations_map h]
  refine lookup_map (hinj.mono (Set.insert_subset hname ?_))
  intro key hkey
  obtain ⟨entry, hentry, rfl⟩ := List.mem_map.mp hkey
  exact hnames (of_mem_declarations h hentry).1

/-- A new name stands for what the old name stood for. -/
theorem standsFor_map_iff (h : tree.IsNamed) {name text : String} (hname : name ∈ known) :
    StandsFor (tree.map (Label.rename f)).declarations (f name) text ↔
      StandsFor tree.declarations name text := by
  have hlookup {name : String} (hname : name ∈ known) :=
    lookup_declarations_map hnames hinj h hname
  have hmem {name : String} {label : Label}
      (hbound : tree.declarations.lookup name = some label) (hkind : label.kind = .identifier) :
      ∃ following ∈ known, label.text = some following := by
    obtain ⟨before, after, hentries, -⟩ := List.lookup_eq_some_iff.mp hbound
    have hentry : (name, label) ∈ tree.declarations := by simp [hentries]
    obtain ⟨-, inner, hinner, rfl⟩ := of_mem_declarations h hentry
    obtain ⟨following, htext⟩ := h.identifiers inner hinner hkind
    exact ⟨following, hnames ⟨inner, hinner, hkind, htext⟩, htext⟩
  constructor
  · intro hstands
    generalize hrenamed : f name = renamed at hstands
    induction hstands generalizing name with
    | last hbound hkind htext =>
        rw [← hrenamed, hlookup hname] at hbound
        obtain ⟨label, hlabel, rfl⟩ := Option.map_eq_some_iff.mp hbound
        rw [Label.kind_rename] at hkind
        rw [Label.rename_of_ne hkind] at htext
        exact .last hlabel hkind htext
    | next hbound hkind htext _ ih =>
        rw [← hrenamed, hlookup hname] at hbound
        obtain ⟨label, hlabel, rfl⟩ := Option.map_eq_some_iff.mp hbound
        rw [Label.kind_rename] at hkind
        obtain ⟨following, hfollowing, hold⟩ := hmem hlabel hkind
        rw [Label.text_rename hkind hold] at htext
        exact .next hlabel hkind hold (ih hfollowing (Option.some.inj htext))
  · intro hstands
    induction hstands with
    | last hbound hkind htext =>
        have hbound' := hlookup hname
        rw [hbound, Option.map_some, Label.rename_of_ne hkind] at hbound'
        exact .last hbound' hkind htext
    | @next name following text label hbound hkind htext _ ih =>
        have hbound' := hlookup hname
        rw [hbound, Option.map_some] at hbound'
        obtain ⟨other, hother, hold⟩ := hmem hbound hkind
        obtain rfl : other = following := Option.some.inj (hold.symm.trans htext)
        exact .next hbound' ((Label.kind_rename f label).trans hkind)
          (Label.text_rename hkind htext) (ih hother)

end Declarations

end Outline

namespace Catalogue

open Outline

namespace Entry

/-- What the rule makes of names in a unit of the file, if it renames identifiers. -/
def renaming? (fileName : String) : Entry → Option (String → String)
  | uppercaseIdentifier => some Text.uppercase
  | stampFileName => some fun name => name ++ "@" ++ fileName
  | _ => none

variable {message fileName : String} {entry : Entry} {f : String → String}
  (hrenaming : entry.renaming? fileName = some f)

include hrenaming

theorem isSteady_of_renaming? : entry.IsSteady := by
  refine ⟨?_, ?_⟩ <;> rintro rfl <;> cases hrenaming

theorem rewrite_of_renaming? (tree : Outline Label) :
    entry.rewrite message fileName tree = [.node (tree.label.rename f) tree.children] := by
  have hwanted : entry.wantedKind = some .identifier := by
    cases entry <;> cases hrenaming <;> rfl
  have hreplacement : replacement message fileName tree entry =
      [retexted (f (tree.label.text.getD "")) tree] := by
    cases entry <;> cases hrenaming <;> rfl
  obtain ⟨label, children⟩ := tree
  rw [rewrite, hwanted, label_node, children_node, Label.rename]
  by_cases hkind : label.kind = .identifier
  · rw [if_pos (congrArg some hkind.symm), if_pos hkind, hreplacement]
    rfl
  · rw [if_neg fun heq => hkind (Option.some.inj heq).symm, if_neg hkind]

end Entry

/-- The pipeline changes the labels of identifiers, wherever they are, and nothing else. -/
theorem become_renaming {message fileName : String} {entry : Entry} {f : String → String}
    (hrenaming : entry.renaming? fileName = some f) (tree : Outline Label) :
    [tree.map (Label.rename f)] =
      (passThrough ([entry].map (Entry.rewrite message fileName)) [tree]).map fun survivor =>
        .node survivor.label
          (survivor.children.flatMap fun child => [child.map (Label.rename f)]) := by
  have hpass : passThrough ([entry].map (Entry.rewrite message fileName)) [tree] =
      [.node (tree.label.rename f) tree.children] := by
    rw [← @Entry.rewrite_of_renaming? message fileName entry f hrenaming tree]
    exact List.append_nil _
  obtain ⟨label, children⟩ := tree
  rw [hpass, List.map_singleton, label_node, children_node, map_node, children_node,
    ← List.flatMap_pure_eq_map]
  rfl

/-- The texts of the identifiers of a tree. -/
def identifierTexts (root : Node) : Set String :=
  { text | ∃ node ∈ root.preorder, node.label.kind = .identifier ∧ node.label.text = some text }

section Bindings

variable {root : Node}

theorem names_outline (root : Node) : root.outline.names = identifierTexts root := by
  ext text
  have hnone := @Tree.forall_mem_subtrees_iff _
    (fun inner => ¬ (inner.label.kind = .identifier ∧ inner.label.text = some text)) root
  simp only [Entry.label_outline] at hnone
  have hiff := not_congr hnone
  simpa [names, identifierTexts] using hiff

theorem isNamed_outline
    (hidentifiers : ∀ node ∈ root.preorder, node.label.kind = .identifier → node.label.text ≠ none)
    (hdeclared : ∀ node ∈ root.preorder, node.label.kind = .variableDeclaration →
      ∀ first ∈ node.children.head?, first.label.kind = .identifier ∨ first.label.text = none) :
    root.outline.IsNamed where
  identifiers := by
    rw [Tree.forall_mem_subtrees_iff]
    intro node hnode hkind
    rw [Entry.label_outline] at hkind ⊢
    exact Option.ne_none_iff_exists'.mp (hidentifiers node hnode hkind)
  declared := by
    rw [Tree.forall_mem_subtrees_iff]
    intro node hnode hkind first hfirst
    rw [Entry.label_outline] at hkind
    rw [← Tree.map_outline_children, List.head?_map] at hfirst
    obtain ⟨child, hchild, rfl⟩ := Option.map_eq_some_iff.mp hfirst
    rw [Entry.label_outline]
    exact hdeclared node hnode hkind child hchild

end Bindings

theorem injective_append_at (fileName : String) :
    Function.Injective fun name => name ++ "@" ++ fileName := by
  intro name other heq
  exact (String.append_left_inj "@").mp ((String.append_left_inj fileName).mp heq)

/-- **Renaming keeps bindings.** When every identifier has a text, and declarations declare nothing
else that has one, a rule that renames all identifiers makes one tree of a unit, in which the new
name of any name resolves to what the name resolved to before. File names keep all names apart;
upper-case forms have to do so for the texts of the identifiers and the name in question. -/
theorem renaming_keeps_bindings {scope : String} {entry : Entry} {f : String → String}
    {services : Services} {transformer : UnitTransformer Context} {bench : Bench} {root : Node}
    {depth : Nat} (hrenaming : entry.renaming? services.fileName = some f)
    (hidentifiers : ∀ node ∈ root.preorder, node.label.kind = .identifier → node.label.text ≠ none)
    (hdeclared : ∀ node ∈ root.preorder, node.label.kind = .variableDeclaration →
      ∀ first ∈ node.children.head?, first.label.kind = .identifier ∨ first.label.text = none)
    (hroot : bench.Has root) (hdepth : Host.subtreeDepth root + 3 ≤ depth) :
    ∃ out next later,
      ((pipeline scope [entry]).transform depth services root transformer).run bench =
        ((.ok (.single out), next), later) ∧
      ∀ name, (entry = .uppercaseIdentifier →
          Set.InjOn f (insert name (identifierTexts root))) →
        Node.resolve out (f name) = root.resolve name := by
  obtain ⟨nodes, next, later, htransform, hnodes⟩ :=
    @transform_rewrites scope _ depth services root bench transformer
      (List.forall_mem_singleton.mpr (Entry.isSteady_of_renaming? hrenaming)) _
      (become_renaming hrenaming) hroot hdepth
  obtain ⟨out, rfl, hout⟩ := List.map_eq_singleton_iff.mp hnodes
  refine ⟨out, next, later, htransform, fun name hinj => ?_⟩
  have hnamed := isNamed_outline hidentifiers hdeclared
  have hapart : Set.InjOn f (insert name root.outline.names) := by
    rw [names_outline]
    cases entry with
    | uppercaseIdentifier => exact hinj rfl
    | stampFileName =>
        cases hrenaming
        exact (injective_append_at services.fileName).injOn
    | _ => cases hrenaming
  ext text
  rw [Node.resolve_eq_some_iff, Node.resolve_eq_some_iff, hout]
  exact standsFor_map_iff (Set.subset_insert _ _) hapart hnamed (Set.mem_insert _ _)

section Sample

open NodeBlueprint in
/-- A name that is declared twice, and a name for the first of the two. -/
def shadowing : NodeBlueprint :=
  sourceFile [variableStatement [variableDeclaration "a" (stringLiteral "first")],
    NodeBlueprint.block [variableDeclaration "a" (stringLiteral "second")],
    variableDeclaration "b" (identifier "a")]

def shadowed : Node := (shadowing.build.run {}).1

def shadowedBench : Bench := { supply := (shadowing.build.run {}).2 }

theorem eq_or_eq_of_mem_identifierTexts {text : String} (h : text ∈ identifierTexts shadowed) :
    text = "a" ∨ text = "b" := by
  obtain ⟨node, hnode, hkind, htext⟩ := h
  have hall : ∀ node ∈ shadowed.preorder, node.label.kind = .identifier →
      node.label.text = some "a" ∨ node.label.text = some "b" := by decide
  rcases hall node hnode hkind with ha | hb
  · exact .inl (Option.some.inj (htext.symm.trans ha))
  · exact .inr (Option.some.inj (htext.symm.trans hb))

/-- In upper case, the second name still resolves to the first literal. -/
theorem renaming_keeps_bindings_shadowed : ∃ out next later,
    ((pipeline "" [.uppercaseIdentifier]).transform (Host.subtreeDepth shadowed + 3) {} shadowed
        { context := { compilation := "", message := "" } }).run shadowedBench =
      ((.ok (.single out), next), later) ∧ Node.resolve out "B" = some "first" := by
  obtain ⟨out, next, later, htransform, hresolve⟩ :=
    @renaming_keeps_bindings "" .uppercaseIdentifier Text.uppercase {}
      { context := { compilation := "", message := "" } } shadowedBench shadowed
      (Host.subtreeDepth shadowed + 3) rfl (by decide) (by decide) (Bench.has_build shadowing)
      le_rfl
  refine ⟨out, next, later, htransform, (hresolve "b" fun _ => ?_).trans (by decide)⟩
  have hapart : Text.uppercase "a" ≠ Text.uppercase "b" := by decide
  have hmem : ∀ text ∈ insert "b" (identifierTexts shadowed), text = "a" ∨ text = "b" := by
    rintro text (rfl | htext)
    · exact .inr rfl
    · exact eq_or_eq_of_mem_identifierTexts htext
  intro text htext other hother heq
  rcases hmem text htext with rfl | rfl <;> rcases hmem other hother with rfl | rfl
  · rfl
  · exact absurd heq hapart
  · exact absurd heq.symm hapart
  · rfl

end Sample

end Catalogue

end TreeRules
