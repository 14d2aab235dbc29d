import Mathlib.Data.Finset.Card
import TreeRules.Node.Binding

/-!
# Resolution of names

A name resolves if a walk leads from it, over names that are bound to identifiers, to a name that is
bound to something else. Walks from one name have one length, so no walk comes through a name twice,
and none is longer than there are bindings: the bound on the steps is never in the way.
-/

namespace TreeRules

/-- Entries that are left out do not matter for a name that none of them has. -/
theorem lookup_filter {β : Type} {entries : List (String × β)} {name : String}
    {p : String × β → Bool} (h : ∀ entry ∈ entries, p entry = false → entry.1 ≠ name) :
    (entries.filter p).lookup name = entries.lookup name := by
  induction entries with
  | nil => rfl
  | cons entry rest ih =>
      obtain ⟨hentry, hrest⟩ := List.forall_mem_cons.mp h
      obtain ⟨key, value⟩ := entry
      cases hp : p (key, value) with
      | false =>
          have hdiffers : (name == key) = false := beq_false_of_ne (hentry hp).symm
          rw [List.filter_cons_of_neg (by simp [hp]), ih hrest, List.lookup_cons, hdiffers]
      | true =>
          rw [List.filter_cons_of_pos hp, List.lookup_cons, List.lookup_cons, ih hrest]

namespace Node

/-- The node is a declaration whose first child has the name as its text; it binds the name to its
second child. -/
def Declares (node : Node) (name : String) (initializer : Node) : Prop :=
  node.kind = .variableDeclaration ∧ ∃ (first : Node) (others : List Node),
    node.children = first :: initializer :: others ∧ first.text = some name

/-- The first declaration of the name among the nodes binds it. -/
def FirstDeclares (nodes : List Node) (name : String) (initializer : Node) : Prop :=
  ∃ (before : List Node) (declaration : Node) (after : List Node),
    nodes = before ++ declaration :: after ∧ declaration.Declares name initializer ∧
      ∀ earlier : Node, earlier ∈ before → ∀ other, ¬ earlier.Declares name other

/-- The first declaration of the name in preorder binds it. -/
def Binds (root : Node) (name : String) (initializer : Node) : Prop :=
  FirstDeclares root.preorder name initializer

theorem binding?_eq_some_iff {node initializer : Node} {name : String} :
    node.binding? = some (name, initializer) ↔ node.Declares name initializer := by
  obtain ⟨id, label, children⟩ := node
  by_cases hkind : label.kind = .variableDeclaration
  · match children with
    | [] => simp [binding?, declaredName, Declares, kind, hkind]
    | [first] => simp [binding?, declaredName, Declares, kind, hkind]
    | first :: second :: others =>
        rcases htext : text first with _ | text <;>
          simp [binding?, declaredName, Declares, kind, hkind, htext]
        exact And.comm
  · simp [binding?, declaredName, Declares, kind, hkind]

section Lookup

variable {entries : List (String × Node)} {name : String} {initializer : Node}

theorem lookup_firstOfEach : (firstOfEach entries).lookup name = entries.lookup name := by
  induction entries with
  | nil => rfl
  | cons entry rest ih =>
      obtain ⟨key, node⟩ := entry
      rw [firstOfEach, List.lookup_cons, List.lookup_cons]
      by_cases hname : name = key
      · rw [hname, beq_self_eq_true]
      · have hkept : ((firstOfEach rest).filter fun entry => entry.1 != key).lookup name =
            (firstOfEach rest).lookup name :=
          lookup_filter fun entry _ hentry heq => hname (heq.symm.trans (by simpa using hentry))
        rw [beq_false_of_ne hname, hkept, ih]

theorem mem_keys_of_lookup (h : entries.lookup name = some initializer) :
    name ∈ entries.map Prod.fst := by
  obtain ⟨before, after, rfl, -⟩ := List.lookup_eq_some_iff.mp h
  simp

end Lookup

theorem firstDeclares_cons_iff {node initializer : Node} {nodes : List Node} {name : String} :
    FirstDeclares (node :: nodes) name initializer ↔ node.Declares name initializer ∨
      (∀ other, ¬ node.Declares name other) ∧ FirstDeclares nodes name initializer := by
  constructor
  · rintro ⟨_ | ⟨first, before⟩, declaration, after, heq, hdeclares, hearlier⟩
    · obtain ⟨rfl, rfl⟩ := List.cons.inj heq
      exact .inl hdeclares
    · obtain ⟨rfl, rfl⟩ := List.cons.inj heq
      obtain ⟨hfirst, hbefore⟩ := List.forall_mem_cons.mp hearlier
      exact .inr ⟨hfirst, before, declaration, after, rfl, hdeclares, hbefore⟩
  · rintro (hdeclares | ⟨hfirst, before, declaration, after, rfl, hdeclares, hbefore⟩)
    · exact ⟨[], node, nodes, rfl, hdeclares, fun _ hmem => absurd hmem List.not_mem_nil⟩
    · exact ⟨node :: before, declaration, after, rfl, hdeclares,
        List.forall_mem_cons.mpr ⟨hfirst, hbefore⟩⟩

theorem lookup_filterMap_binding? {nodes : List Node} {name : String} {initializer : Node} :
    (nodes.filterMap binding?).lookup name = some initializer ↔
      FirstDeclares nodes name initializer := by
  induction nodes with
  | nil => simp [FirstDeclares]
  | cons node nodes ih =>
      rw [firstDeclares_cons_iff, ← ih]
      simp only [← binding?_eq_some_iff]
      rcases hbinding : node.binding? with _ | ⟨key, bound⟩
      · simp [hbinding]
      · rw [List.filterMap_cons, hbinding, List.lookup_cons]
        by_cases hname : name = key
        · simp [hname]
        · simp [beq_false_of_ne hname, Ne.symm hname]

theorem lookup_bindings {root : Node} {name : String} {initializer : Node} :
    root.bindings.lookup name = some initializer ↔ root.Binds name initializer := by
  rw [bindings, lookup_firstOfEach, lookup_filterMap_binding?, Binds]

theorem Binds.unique {root left right : Node} {name : String} (h : root.Binds name left)
    (h' : root.Binds name right) : left = right :=
  Option.some.inj ((lookup_bindings.mpr h).symm.trans (lookup_bindings.mpr h'))

/-- The names from place 0 up to place `steps` are bound: each to an identifier with the next name as
its text, but the last to something else, with the given text. -/
structure Walk (root : Node) (steps : Nat) (names : Nat → String) (text : String) : Prop where
  next : ∀ place < steps, ∃ initializer : Node, root.Binds (names place) initializer ∧
    initializer.kind = .identifier ∧ initializer.text = some (names (place + 1))
  last : ∃ initializer : Node, root.Binds (names steps) initializer ∧
    initializer.kind ≠ .identifier ∧ initializer.text = some text

namespace Walk

variable {root : Node} {steps steps' : Nat} {names names' : Nat → String} {text text' : String}

theorem drop (h : root.Walk steps names text) {place : Nat} (hplace : place ≤ steps) :
    root.Walk (steps - place) (fun i => names (place + i)) text where
  next i hi := h.next (place + i) (by omega)
  last := by
    rw [Nat.add_sub_cancel' hplace]
    exact h.last

theorem cons {initializer : Node} {name : String} (hbinds : root.Binds name initializer)
    (hkind : initializer.kind = .identifier) (htext : initializer.text = some (names 0))
    (h : root.Walk steps names text) :
    root.Walk (steps + 1) (fun | 0 => name | i + 1 => names i) text where
  next
    | 0, _ => ⟨initializer, hbinds, hkind, htext⟩
    | i + 1, hi => h.next i (Nat.lt_of_succ_lt_succ hi)
  last := h.last

/-- Walks from one name have one length. -/
theorem steps_unique (h : root.Walk steps names text) (h' : root.Walk steps' names' text')
    (hstart : names 0 = names' 0) : steps = steps' := by
  induction steps generalizing names names' steps' with
  | zero =>
      cases steps' with
      | zero => rfl
      | succ steps' =>
          obtain ⟨_, hlast, hother, _⟩ := h.last
          obtain ⟨_, hnext, hidentifier, _⟩ := h'.next 0 (Nat.succ_pos steps')
          rw [hstart] at hlast
          exact absurd (hlast.unique hnext ▸ hidentifier) hother
  | succ steps ih =>
      obtain ⟨_, hnext, hidentifier, htext⟩ := h.next 0 (Nat.succ_pos steps)
      rw [hstart] at hnext
      cases steps' with
      | zero =>
          obtain ⟨_, hlast, hother, _⟩ := h'.last
          exact absurd (hlast.unique hnext ▸ hidentifier) hother
      | succ steps' =>
          obtain ⟨_, hnext', _, htext'⟩ := h'.next 0 (Nat.succ_pos steps')
          obtain rfl := hnext.unique hnext'
          have hnames : names (1 + 0) = names' (1 + 0) :=
            Option.some.inj (htext.symm.trans htext')
          exact congrArg Nat.succ (ih (h.drop (Nat.succ_pos steps)) (h'.drop (Nat.succ_pos steps'))
            hnames)

theorem injOn (h : root.Walk steps names text) : Set.InjOn names (Set.Iic steps) := by
  intro place hplace place' hplace' hname
  have hplace : place ≤ steps := hplace
  have hplace' : place' ≤ steps := hplace'
  have hsteps := (h.drop hplace).steps_unique (h.drop hplace') hname
  omega

theorem mem_keys (h : root.Walk steps names text) {place : Nat} (hplace : place ≤ steps) :
    names place ∈ root.bindings.map Prod.fst := by
  rcases Nat.lt_or_eq_of_le hplace with hlt | rfl
  · obtain ⟨_, hbinds, _⟩ := h.next place hlt
    exact mem_keys_of_lookup (lookup_bindings.mpr hbinds)
  · obtain ⟨_, hbinds, _⟩ := h.last
    exact mem_keys_of_lookup (lookup_bindings.mpr hbinds)

/-- A walk comes through every name at most once, so there are more bindings than steps. -/
theorem steps_lt (h : root.Walk steps names text) : steps < root.bindings.length := by
  classical
  have hmaps : ∀ place ∈ Finset.range (steps + 1),
      names place ∈ (root.bindings.map Prod.fst).toFinset := by
    intro place hplace
    exact List.mem_toFinset.mpr (h.mem_keys (Finset.mem_range_succ_iff.mp hplace))
  have hinj : Set.InjOn names (Finset.range (steps + 1)) :=
    h.injOn.mono fun place hplace => Finset.mem_range_succ_iff.mp hplace
  calc steps + 1 = (Finset.range (steps + 1)).card := (Finset.card_range _).symm
    _ ≤ (root.bindings.map Prod.fst).toFinset.card := Finset.card_le_card_of_injOn names hmaps hinj
    _ ≤ (root.bindings.map Prod.fst).length := List.toFinset_card_le _
    _ = root.bindings.length := List.length_map _

end Walk

/-- A bounded search finds what the walks below the bound lead to. -/
theorem follow_eq_some_iff {root : Node} {bound : Nat} {name text : String} :
    follow root.bindings bound name = some text ↔
      ∃ steps < bound, ∃ names, names 0 = name ∧ root.Walk steps names text := by
  induction bound generalizing name with
  | zero => simp [follow]
  | succ bound ih =>
      constructor
      · intro h
        rw [follow] at h
        rcases hlookup : root.bindings.lookup name with _ | initializer <;> rw [hlookup] at h
        · cases h
        have hbinds := lookup_bindings.mp hlookup
        by_cases hkind : initializer.kind = .identifier
        · simp only [hkind, if_true] at h
          obtain ⟨following, htext, hrest⟩ := Option.bind_eq_some_iff.mp h
          obtain ⟨steps, hsteps, names, rfl, hwalk⟩ := ih.mp hrest
          exact ⟨steps + 1, Nat.succ_lt_succ hsteps, _, rfl, hwalk.cons hbinds hkind htext⟩
        · simp only [hkind, if_false] at h
          exact ⟨0, Nat.succ_pos bound, fun _ => name, rfl,
            ⟨fun _ hplace => absurd hplace (Nat.not_lt_zero _), initializer, hbinds, hkind, h⟩⟩
      · rintro ⟨steps, hsteps, names, rfl, hwalk⟩
        rw [follow]
        cases steps with
        | zero =>
            obtain ⟨initializer, hbinds, hkind, htext⟩ := hwalk.last
            simp only [lookup_bindings.mpr hbinds, hkind, if_false, htext]
        | succ steps =>
            obtain ⟨initializer, hbinds, hkind, htext⟩ := hwalk.next 0 (Nat.succ_pos steps)
            simp only [lookup_bindings.mpr hbinds, hkind, if_true, htext, Option.bind_some]
            exact ih.mpr ⟨steps, Nat.lt_of_succ_lt_succ hsteps, _, rfl,
              hwalk.drop (Nat.succ_pos steps)⟩

/-- No walk is as long as the bindings are many, so a bound beyond that is never in the way. -/
theorem follow_add_eq_some_iff {root : Node} {more : Nat} {name text : String} :
    follow root.bindings (root.bindings.length + 1 + more) name = some text ↔
      ∃ steps names, names 0 = name ∧ root.Walk steps names text := by
  rw [follow_eq_some_iff]
  constructor
  · rintro ⟨steps, _, names, hstart, hwalk⟩
    exact ⟨steps, names, hstart, hwalk⟩
  · rintro ⟨steps, names, hstart, hwalk⟩
    have hsteps := hwalk.steps_lt
    exact ⟨steps, by omega, names, hstart, hwalk⟩

theorem resolve_eq_some_iff_exists_walk {root : Node} {name text : String} :
    root.resolve name = some text ↔ ∃ steps names, names 0 = name ∧ root.Walk steps names text :=
  @follow_add_eq_some_iff root 0 name text

/-- **Resolution is exact.** A name resolves to a text if and only if a walk from it ends at the text,
and a search with a larger bound finds nothing more. -/
theorem resolve_exact (root : Node) (name : String) :
    (∀ text, root.resolve name = some text ↔
      ∃ steps names, names 0 = name ∧ root.Walk steps names text) ∧
    ∀ more, follow root.bindings (root.bindings.length + 1 + more) name = root.resolve name := by
  refine ⟨fun text => resolve_eq_some_iff_exists_walk, fun more => ?_⟩
  ext text
  rw [follow_add_eq_some_iff, resolve_eq_some_iff_exists_walk]

end Node

end TreeRules
