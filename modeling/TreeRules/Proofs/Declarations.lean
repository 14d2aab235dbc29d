import Mathlib.Data.Set.Function
import TreeRules.Proofs.Building
import TreeRules.Proofs.Resolution

/-!
# Declarations

What a name stands for depends on nothing but the declarations of a tree: the names that are
declared, in preorder, each with the label of what it is bound to. They can be read off the outline
of the tree. A name stands for a text if it is bound to a label with the text, unless that is the
label of an identifier, which passes on what its own text stands for.
-/

namespace TreeRules

namespace Outline

variable {α : Type}

mutual

/-- The subtrees in preorder, from the tree itself on. -/
def subtrees : Outline α → List (Outline α)
  | node label children => node label children :: subtreesOfAll children

def subtreesOfAll : List (Outline α) → List (Outline α)
  | [] => []
  | child :: rest => subtrees child ++ subtreesOfAll rest

end

theorem subtreesOfAll_eq_flatMap (children : List (Outline α)) :
    subtreesOfAll children = children.flatMap subtrees := by
  induction children with
  | nil => rfl
  | cons child rest ih => simp [subtreesOfAll, ih]

theorem subtrees_node (label : α) (children : List (Outline α)) :
    (node label children).subtrees = node label children :: children.flatMap subtrees := by
  simp [subtrees, subtreesOfAll_eq_flatMap]

theorem mem_subtrees_self (tree : Outline α) : tree ∈ tree.subtrees := by
  obtain ⟨label, children⟩ := tree
  rw [subtrees_node]
  exact List.mem_cons_self

theorem mem_subtrees_of_mem_children {tree inner child : Outline α} (hinner : inner ∈ tree.subtrees)
    (hchild : child ∈ inner.children) : child ∈ tree.subtrees := by
  induction tree using inductionOn with
  | node label children ih =>
      rw [subtrees_node] at hinner ⊢
      refine List.mem_cons_of_mem _ (List.mem_flatMap.mpr ?_)
      rcases List.mem_cons.mp hinner with rfl | hbelow
      · exact ⟨child, hchild, mem_subtrees_self child⟩
      · obtain ⟨other, hother, hinner⟩ := List.mem_flatMap.mp hbelow
        exact ⟨other, hother, ih other hother hinner⟩

end Outline

namespace Tree

variable {α : Type}

mutual

theorem map_outline_preorder : (tree : Tree α) →
    tree.preorder.map outline = tree.outline.subtrees
  | .node id label children => by
      rw [preorder_node, outline_node, Outline.subtrees_node, List.map_cons, outline_node,
        map_outline_flatMap_preorder children]

theorem map_outline_flatMap_preorder : (trees : List (Tree α)) →
    (trees.flatMap preorder).map outline = (trees.map outline).flatMap Outline.subtrees
  | [] => rfl
  | tree :: rest => by
      rw [List.flatMap_cons, List.map_append, map_outline_preorder tree,
        map_outline_flatMap_preorder rest, List.map_cons, List.flatMap_cons]

end

/-- What holds of the outline of every node holds of every subtree of the outline. -/
theorem forall_mem_subtrees_iff {p : Outline α → Prop} {tree : Tree α} :
    (∀ inner ∈ tree.outline.subtrees, p inner) ↔ ∀ node ∈ tree.preorder, p node.outline := by
  rw [← map_outline_preorder]
  exact List.forall_mem_map

end Tree

namespace Outline

/-- The name that the root of the outline declares, and the label of what it is bound to. -/
def declaration? : Outline Label → Option (String × Label)
  | node label (first :: second :: _) =>
    if label.kind = .variableDeclaration then first.label.text.map fun name => (name, second.label)
    else none
  | _ => none

/-- All declarations in preorder. -/
def declarations (tree : Outline Label) : List (String × Label) :=
  tree.subtrees.filterMap declaration?

theorem declarations_node (label : Label) (children : List (Outline Label)) :
    (node label children).declarations =
      (node label children).declaration?.toList ++ children.flatMap declarations := by
  have hchildren : (children.flatMap subtrees).filterMap declaration? =
      children.flatMap declarations := List.filterMap_flatMap
  rw [declarations, subtrees_node, List.filterMap_cons, hchildren]
  rcases (node label children).declaration? with _ | entry <;> rfl

theorem declaration?_of_ne {tree : Outline Label} (h : tree.label.kind ≠ .variableDeclaration) :
    tree.declaration? = none := by
  obtain ⟨label, children⟩ := tree
  match children with
  | [] | [_] => rfl
  | _ :: _ :: _ => exact if_neg h

end Outline

/-- The name stands for the text: it is bound to a label with the text, or to an identifier whose own
text stands for it. -/
inductive StandsFor (declarations : List (String × Label)) : String → String → Prop where
  | last {name text : String} {label : Label} : declarations.lookup name = some label →
      label.kind ≠ .identifier → label.text = some text → StandsFor declarations name text
  | next {name following text : String} {label : Label} : declarations.lookup name = some label →
      label.kind = .identifier → label.text = some following →
        StandsFor declarations following text → StandsFor declarations name text

section Lookup

variable {β γ : Type} {entries : List (String × β)} {name : String} {value : β}

/-- A look-up under new names, which must not confuse the name with another one that is bound. -/
theorem lookup_map {f : String → String} {g : β → γ}
    (hinj : Set.InjOn f (insert name { key | key ∈ entries.map Prod.fst })) :
    (entries.map (Prod.map f g)).lookup (f name) = (entries.lookup name).map g := by
  induction entries with
  | nil => rfl
  | cons entry rest ih =>
      obtain ⟨key, value⟩ := entry
      have hrest : Set.InjOn f (insert name { key | key ∈ rest.map Prod.fst }) := by
        refine hinj.mono (Set.insert_subset_insert fun other hother => ?_)
        exact List.mem_cons_of_mem _ hother
      rw [List.map_cons, Prod.map_apply, List.lookup_cons, List.lookup_cons]
      by_cases hname : name = key
      · rw [hname, beq_self_eq_true, beq_self_eq_true]
        rfl
      · have hmem : key ∈ insert name { key' | key' ∈ ((key, value) :: rest).map Prod.fst } :=
          Set.mem_insert_of_mem _ List.mem_cons_self
        have hdiffers : f name ≠ f key := fun heq =>
          hname (hinj (Set.mem_insert _ _) hmem heq)
        rw [beq_false_of_ne hname, beq_false_of_ne hdiffers, ih hrest]

/-- All entries of the name agree, so the first one does not matter. -/
theorem lookup_eq_of_forall (hmem : (name, value) ∈ entries)
    (h : ∀ entry ∈ entries, entry.1 = name → entry.2 = value) :
    entries.lookup name = some value := by
  induction entries with
  | nil => cases hmem
  | cons entry rest ih =>
      obtain ⟨hentry, hrest⟩ := List.forall_mem_cons.mp h
      obtain ⟨key, other⟩ := entry
      rw [List.lookup_cons]
      by_cases hkey : key = name
      · rw [hkey, beq_self_eq_true]
        exact congrArg some (hentry hkey)
      · rw [beq_false_of_ne (Ne.symm hkey)]
        rcases List.mem_cons.mp hmem with heq | hmem
        · exact absurd (congrArg Prod.fst heq).symm hkey
        · exact ih hmem hrest

end Lookup

namespace Node

theorem map_binding? (node : Node) :
    node.binding?.map (Prod.map id Tree.label) = node.outline.declaration? := by
  obtain ⟨id, label, children⟩ := node
  rw [Tree.outline_node]
  by_cases hkind : label.kind = .variableDeclaration
  · match children with
    | [] => simp [binding?, declaredName, kind, hkind, Outline.declaration?]
    | [first] => simp [binding?, declaredName, kind, hkind, Outline.declaration?]
    | first :: second :: others =>
        have hfirst := Tree.label_eq_outline_label first
        have hsecond := Tree.label_eq_outline_label second
        rcases htext : text first with _ | text <;>
          simp_all [binding?, declaredName, kind, Outline.declaration?, Node.text]
  · match children with
    | [] | [_] | _ :: _ :: _ => simp [binding?, declaredName, kind, hkind, Outline.declaration?]

theorem lookup_declarations (root : Node) (name : String) :
    root.outline.declarations.lookup name = (root.bindings.lookup name).map Tree.label := by
  have hentries : (root.preorder.filterMap binding?).map (Prod.map id Tree.label) =
      root.outline.declarations := by
    rw [Outline.declarations, ← Tree.map_outline_preorder, List.filterMap_map, List.map_filterMap]
    exact List.filterMap_congr fun node _ => node.map_binding?
  rw [bindings, lookup_firstOfEach, ← hentries]
  exact lookup_map (Set.injOn_id _)

theorem lookup_declarations_eq_some_iff {root : Node} {name : String} {label : Label} :
    root.outline.declarations.lookup name = some label ↔
      ∃ initializer : Node, root.Binds name initializer ∧ initializer.label = label := by
  rw [lookup_declarations, Option.map_eq_some_iff]
  simp only [lookup_bindings]

/-- A name resolves to the text that it stands for. -/
theorem resolve_eq_some_iff {root : Node} {name text : String} :
    root.resolve name = some text ↔ StandsFor root.outline.declarations name text := by
  rw [resolve_eq_some_iff_exists_walk]
  constructor
  · rintro ⟨steps, names, rfl, hwalk⟩
    induction steps generalizing names with
    | zero =>
        obtain ⟨initializer, hbinds, hkind, htext⟩ := hwalk.last
        exact .last (lookup_declarations_eq_some_iff.mpr ⟨initializer, hbinds, rfl⟩) hkind htext
    | succ steps ih =>
        obtain ⟨initializer, hbinds, hkind, htext⟩ := hwalk.next 0 (Nat.succ_pos steps)
        exact .next (lookup_declarations_eq_some_iff.mpr ⟨initializer, hbinds, rfl⟩) hkind htext
          (ih _ (hwalk.drop (Nat.succ_pos steps)))
  · intro h
    induction h with
    | @last name text label hlookup hkind htext =>
        obtain ⟨initializer, hbinds, rfl⟩ := lookup_declarations_eq_some_iff.mp hlookup
        exact ⟨0, fun _ => name, rfl, fun _ hplace => absurd hplace (Nat.not_lt_zero _),
          initializer, hbinds, hkind, htext⟩
    | next hlookup hkind htext _ ih =>
        obtain ⟨initializer, hbinds, rfl⟩ := lookup_declarations_eq_some_iff.mp hlookup
        obtain ⟨steps, names, rfl, hwalk⟩ := ih
        exact ⟨steps + 1, _, rfl, hwalk.cons hbinds hkind htext⟩

end Node

end TreeRules
