import TreeRules.Node.Json
import TreeRules.Proofs.Appearance
import TreeRules.Proofs.Legibility

/-!
# Trees are recovered from Json

A tree can be read back from its Json value, whatever the order in which the fields of the objects are
held: every part of a node is looked up by its name, and what is missing stands for no text or for no
children. So nothing is lost, and the values of two trees are the same only if the trees are equal.
-/

namespace TreeRules

namespace Json

/-- The same value, in whatever order its objects hold their fields. -/
inductive Same : Json → Json → Prop where
  | refl (value : Json) : Same value value
  | arr {items items' : List Json} : List.Forall₂ Same items items' → Same (arr items) (arr items')
  | obj {fields fields' : Fields} :
      (∀ name, Option.Rel Same (fields.lookup name) (fields'.lookup name)) →
        Same (obj fields) (obj fields')

theorem Same.eq_str {value : Json} {text : String} (h : value.Same (.str text)) :
    value = .str text := by
  cases h
  rfl

theorem Same.exists_arr {value : Json} {items : List Json} (h : value.Same (.arr items)) :
    ∃ items', value = .arr items' ∧ List.Forall₂ Same items' items := by
  cases h with
  | refl => exact ⟨items, rfl, List.forall₂_same.mpr fun item _ => .refl item⟩
  | arr hitems => exact ⟨_, rfl, hitems⟩

theorem Same.exists_obj {value : Json} {fields : Fields} (h : value.Same (.obj fields)) :
    ∃ fields', value = .obj fields' ∧
      ∀ name, Option.Rel Same (fields'.lookup name) (fields.lookup name) := by
  cases h with
  | refl =>
      refine ⟨fields, rfl, fun name => ?_⟩
      cases fields.lookup name with
      | none => exact .none
      | some held => exact .some (.refl held)
  | obj hfields => exact ⟨_, rfl, hfields⟩

mutual

/-- The objects in a value, each before the ones inside it. -/
def objects : Json → List Fields
  | obj fields => fields :: objectsOfFields fields
  | arr items => objectsOfItems items
  | null | bool _ | int _ | float _ | str _ => []

def objectsOfItems : List Json → List Fields
  | [] => []
  | item :: rest => objects item ++ objectsOfItems rest

def objectsOfFields : List (String × Json) → List Fields
  | [] => []
  | (_, value) :: rest => objects value ++ objectsOfFields rest

end

theorem objectsOfItems_eq_flatMap (items : List Json) :
    objectsOfItems items = items.flatMap objects := by
  induction items with
  | nil => rfl
  | cons item rest ih => rw [objectsOfItems, ih, List.flatMap_cons]

end Json

namespace Node

def kindOf? (fields : Json.Fields) : Option Kind :=
  match fields.lookup "kind" with
  | some (.str name) => Kind.ofName? name
  | _ => none

/-- The text of a node, which may be missing. Anything but a text in its place is an error. -/
def textOf? (fields : Json.Fields) : Option (Option String) :=
  match fields.lookup "text" with
  | none => some none
  | some (.str text) => some (some text)
  | some _ => none

mutual

/-- Reads a tree from a value. -/
def outlineOfJson? : Json → Option (Outline Label)
  | .obj fields => do
    let kind ← kindOf? fields
    let text ← textOf? fields
    let children ← childrenOf? fields
    return .node { kind, text } children
  | _ => none

/-- Reads the children of a node; there are none if the field is missing. -/
def childrenOf? : List (String × Json) → Option (List (Outline Label))
  | [] => some []
  | (name, value) :: rest =>
    if name = "children" then outlinesOfArray? value else childrenOf? rest

def outlinesOfArray? : Json → Option (List (Outline Label))
  | .arr items => outlinesOfItems? items
  | _ => none

def outlinesOfItems? : List Json → Option (List (Outline Label))
  | [] => some []
  | item :: rest => do
    let here ← outlineOfJson? item
    let others ← outlinesOfItems? rest
    return here :: others

end

theorem childrenOf?_eq (fields : Json.Fields) :
    childrenOf? fields =
      match fields.lookup "children" with
      | none => some []
      | some value => outlinesOfArray? value := by
  induction fields with
  | nil => rfl
  | cons field rest ih =>
      obtain ⟨name, value⟩ := field
      rw [childrenOf?, List.lookup_cons]
      by_cases hname : name = "children"
      · rw [if_pos hname, hname]
        rfl
      · rw [if_neg hname, ih, beq_false_of_ne (Ne.symm hname)]

theorem jsonOfOutlines_eq_map (children : List (Outline Label)) :
    jsonOfOutlines children = children.map jsonOfOutline := by
  induction children with
  | nil => rfl
  | cons child rest ih => rw [jsonOfOutlines, ih, List.map_cons]

theorem jsonOfOutline_node (label : Label) (children : List (Outline Label)) :
    jsonOfOutline (.node label children) = .obj (jsonFields label (children.map jsonOfOutline)) := by
  rw [jsonOfOutline, jsonOfOutlines_eq_map]

section Fields

variable (label : Label) (children : List Json)

theorem lookup_kind_jsonFields :
    (jsonFields label children).lookup "kind" = some (.str label.kind.name) := by
  cases children <;> rfl

theorem lookup_text_jsonFields :
    (jsonFields label children).lookup "text" = label.text.map .str := by
  obtain ⟨kind, _ | text⟩ := label <;> cases children <;> rfl

theorem lookup_children_jsonFields : (jsonFields label children).lookup "children" =
    if children.isEmpty then none else some (.arr children) := by
  obtain ⟨kind, _ | text⟩ := label <;> cases children <;> rfl

end Fields

section Read

variable {fields : Json.Fields} {label : Label} {children : List Json}
  (h : ∀ name, Option.Rel Json.Same (fields.lookup name) ((jsonFields label children).lookup name))

include h

theorem kindOf?_eq_some : kindOf? fields = some label.kind := by
  have hkind := h "kind"
  rw [lookup_kind_jsonFields] at hkind
  rw [kindOf?]
  rcases hheld : fields.lookup "kind" with _ | held <;> rw [hheld] at hkind
  · cases hkind
  · cases hkind with
    | some hsame => rw [hsame.eq_str]; exact label.kind.ofName?_name

theorem textOf?_eq_some : textOf? fields = some label.text := by
  have htext := h "text"
  rw [lookup_text_jsonFields] at htext
  rw [textOf?]
  cases hlabel : label.text with
  | none =>
      rw [hlabel] at htext
      rcases hheld : fields.lookup "text" with _ | held
      · rfl
      · rw [hheld] at htext
        cases htext
  | some text =>
      rw [hlabel] at htext
      rcases hheld : fields.lookup "text" with _ | held <;> rw [hheld] at htext
      · cases htext
      · cases htext with
        | some hsame => rw [hsame.eq_str]

theorem childrenOf?_eq_some {trees : List (Outline Label)}
    (hread : ∀ items, List.Forall₂ Json.Same items children → outlinesOfItems? items = some trees) :
    childrenOf? fields = some trees := by
  have hchildren := h "children"
  rw [lookup_children_jsonFields] at hchildren
  rw [childrenOf?_eq]
  rcases hheld : fields.lookup "children" with _ | held <;> rw [hheld] at hchildren
  · cases children with
    | nil => exact hread [] .nil
    | cons child rest => cases hchildren
  · cases children with
    | nil => cases hchildren
    | cons child rest =>
        cases hchildren with
        | some hsame =>
            obtain ⟨items, rfl, hitems⟩ := hsame.exists_arr
            exact hread items hitems

end Read

theorem outlinesOfItems?_eq_some {children : List (Outline Label)} {items : List Json}
    (hread : ∀ child ∈ children, ∀ value : Json, value.Same (jsonOfOutline child) →
      outlineOfJson? value = some child)
    (h : List.Forall₂ Json.Same items (children.map jsonOfOutline)) :
    outlinesOfItems? items = some children := by
  induction children generalizing items with
  | nil => cases h; rfl
  | cons child rest ih =>
      obtain ⟨hchild, hrest⟩ := List.forall_mem_cons.mp hread
      cases h with
      | cons hhere hothers =>
          rw [outlinesOfItems?, hchild _ hhere, ih hrest hothers]
          rfl

theorem outlineOfJson?_eq_some {tree : Outline Label} {value : Json}
    (h : value.Same (jsonOfOutline tree)) : outlineOfJson? value = some tree := by
  induction tree using Outline.inductionOn generalizing value with
  | node label children ih =>
      rw [jsonOfOutline_node] at h
      obtain ⟨fields, rfl, hfields⟩ := h.exists_obj
      have hread (items) (hitems : List.Forall₂ Json.Same items (children.map jsonOfOutline)) :
          outlinesOfItems? items = some children :=
        outlinesOfItems?_eq_some (fun child hchild value hvalue => ih child hchild hvalue) hitems
      rw [outlineOfJson?, kindOf?_eq_some hfields, textOf?_eq_some hfields,
        childrenOf?_eq_some hfields hread]
      rfl

theorem toJson_same_iff {left right : Node} :
    left.toJson.Same right.toJson ↔ left.outline = right.outline := by
  constructor
  · intro h
    have hleft : outlineOfJson? left.toJson = some left.outline := outlineOfJson?_eq_some (.refl _)
    have hright : outlineOfJson? left.toJson = some right.outline := outlineOfJson?_eq_some h
    exact Option.some.inj (hleft.symm.trans hright)
  · intro h
    rw [toJson, toJson, h]
    exact .refl _

/-- The object that stands for a node, whatever its children look like. -/
structure IsNodeObject (fields : Json.Fields) : Prop where
  nodup : (fields.map Prod.fst).Nodup
  kind : ∃ kind : Kind, ("kind", .str kind.name) ∈ fields
  text : ∀ held, ("text", held) ∈ fields → ∃ text, held = .str text
  children : ∀ held, ("children", held) ∈ fields → ∃ child rest, held = .arr (child :: rest)

theorem isNodeObject_jsonFields (label : Label) (children : List Json) :
    IsNodeObject (jsonFields label children) := by
  obtain ⟨kind, text⟩ := label
  constructor
  · cases text <;> cases children <;> simp [jsonFields]
  · exact ⟨kind, List.mem_append_right _ List.mem_cons_self⟩
  · cases text <;> cases children <;> simp [jsonFields]
  · cases text <;> cases children <;> simp [jsonFields]

theorem toJson_eq (node : Node) :
    node.toJson = .obj (jsonFields node.label (node.children.map toJson)) := by
  obtain ⟨id, label, children⟩ := node
  rw [toJson, Tree.outline_node, jsonOfOutline_node, List.map_map]
  rfl

theorem objectsOfFields_jsonFields (label : Label) (children : List Json) :
    Json.objectsOfFields (jsonFields label children) = children.flatMap Json.objects := by
  rw [← Json.objectsOfItems_eq_flatMap]
  obtain ⟨kind, _ | text⟩ := label <;> cases children <;>
    simp [jsonFields, Json.objectsOfFields, Json.objectsOfItems, Json.objects]

/-- Every node has its object, at its place in the preorder, and there are no other objects. -/
theorem objects_toJson (node : Node) : node.toJson.objects =
    node.preorder.map fun node => jsonFields node.label (node.children.map toJson) := by
  induction node using Tree.inductionOn with
  | step node ih =>
      have hbelow : (node.children.map toJson).flatMap Json.objects =
          (node.children.flatMap Tree.preorder).map fun node =>
            jsonFields node.label (node.children.map toJson) := by
        rw [List.flatMap_map, List.map_flatMap]
        exact List.flatMap_congr ih
      rw [toJson_eq, Json.objects, objectsOfFields_jsonFields, hbelow, Tree.preorder_eq,
        List.map_cons]

/-- **Nothing of a tree is lost in its value.** The tree is read back from it, in whatever order the
objects hold their fields. So two trees have the same value if and only if they are structurally
equal, which is when their compact expressions are the same. A value holds one object for each node,
without empty lists of children and without missing texts. -/
theorem toJson_lossless :
    (∀ (node : Node) (value : Json), value.Same node.toJson →
      outlineOfJson? value = some node.outline) ∧
    (∀ left right : Node,
      (left.toJson.Same right.toJson ↔ (left == right) = true) ∧
      ((left == right) = true ↔ left.format .compact = right.format .compact)) ∧
    ∀ node : Node, node.toJson.objects.length = Host.subtreeSize node ∧
      ∀ fields ∈ node.toJson.objects, IsNodeObject fields := by
  refine ⟨fun node value h => outlineOfJson?_eq_some h, fun left right => ?_, fun node => ⟨?_, ?_⟩⟩
  · rw [Tree.beq_iff_outline_eq]
    exact ⟨toJson_same_iff, format_inj.symm⟩
  · rw [objects_toJson, List.length_map, Tree.preorder_eq_hostPreorder, Host.length_preorder]
  · intro fields hfields
    rw [objects_toJson] at hfields
    obtain ⟨below, -, rfl⟩ := List.mem_map.mp hfields
    exact isNodeObject_jsonFields below.label _

end Node

end TreeRules
