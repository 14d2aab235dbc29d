import TreeRules.Proofs.Isolation
import TreeRules.Proofs.Rewriting

/-!
# What the rules of the catalogue make of outlines

Two rules of the catalogue do not rewrite outlines: one fails, and one counts. All others make of a
node what its outline says, given the message of the context and the name of the file, which no rule
changes. So what a pipeline of them makes of a unit is a matter of outlines.
-/

namespace TreeRules.Catalogue

open Dispatch

/-- The context of a unit of the file, with the message. -/
structure Context.Tells (message fileName : String) (context : Context) : Prop where
  message_eq : context.message = message
  fileName_eq : context.fileName = some fileName

namespace Entry

/-- The rules that neither fail nor remember anything. -/
def IsSteady (entry : Entry) : Prop := entry ≠ numberIdentifiers ∧ entry ≠ rejectNumbers

instance : DecidablePred IsSteady := fun _ => inferInstanceAs (Decidable (_ ∧ _))

/-- The outline with another text at its root. -/
def retexted (text : String) (tree : Outline Label) : Outline Label :=
  .node { kind := tree.label.kind, text := some text } tree.children

/-- What a steady rule makes of a node that it wants. -/
def replacement (message fileName : String) (tree : Outline Label) : Entry → List (Outline Label)
  | appendMessage =>
    [.node { kind := .stringLiteral, text := some (tree.label.text.getD "" ++ message) } []]
  | transferValue => [tree, transferred.outline]
  | addExport => [.node tree.label (tree.children ++ [finalStatement.outline])]
  | deleteExport | deleteIdentifier | deleteString => []
  | uppercaseIdentifier => [retexted (Text.uppercase (tree.label.text.getD "")) tree]
  | duplicateStatement => [tree, tree]
  | triplicateNumber => [tree, tree, tree]
  | stampFileName => [retexted (tree.label.text.getD "" ++ "@" ++ fileName) tree]
  | observe | numberIdentifiers | rejectNumbers => [tree]

/-- What a steady rule makes of any node. -/
def rewrite (message fileName : String) (entry : Entry) (tree : Outline Label) :
    List (Outline Label) :=
  if entry.wantedKind = some tree.label.kind then replacement message fileName tree entry
  else [tree]

section Rewrites

variable {message fileName : String}

theorem preserves_tells (scope : String) (entry : Entry) :
    (entry.ruleType scope).rule.Preserves fun state => state.1.Tells message fileName where
  wants node state htells := by
    cases entry with
    | observe => exact ⟨htells.message_eq, htells.fileName_eq⟩
    | _ => exact htells
  visit node state _ workspace htells := by
    have hcontext := run_visit_context entry node workspace
    change (((entry.visit node).run workspace).2.shared.1).Tells message fileName
    rw [hcontext]
    exact htells

theorem label_outline (node : Node) : node.outline.label = node.label :=
  (Tree.label_eq_outline_label node).symm

theorem textOrEmpty_eq (node : Node) : node.textOrEmpty = node.outline.label.text.getD "" := by
  rw [label_outline]
  rfl

theorem run_retext (text : String) (node : Node) (workspace : Workspace State) :
    ∃ nodes, ((retext text node).run workspace).1 = .ok nodes ∧
      nodes.map Tree.outline = [retexted text node.outline] := by
  refine ⟨_, rfl, ?_⟩
  rw [List.map_singleton, retexted, ← Tree.map_outline_children, label_outline]
  exact congrArg (fun outline => [outline]) (Blueprint.outline_create _ _ _)

theorem visit_replacement {entry : Entry} (hsteady : entry.IsSteady) {node : Node}
    (hwanted : entry.wantedKind = some node.kind) {workspace : Workspace State}
    (htells : workspace.shared.1.Tells message fileName) :
    ∃ nodes, ((entry.visit node).run workspace).1 = .ok nodes ∧
      nodes.map Tree.outline = replacement message fileName node.outline entry := by
  cases entry with
  | appendMessage =>
      refine ⟨_, rfl, ?_⟩
      rw [replacement, ← textOrEmpty_eq, ← htells.message_eq]
      exact congrArg (fun outline => [outline]) (Blueprint.outline_create _ _ _)
  | transferValue =>
      refine ⟨_, rfl, ?_⟩
      rw [List.map_cons, List.map_singleton, replacement, ← Blueprint.outline_build]
      rfl
  | deleteExport | deleteIdentifier | deleteString => exact ⟨[], rfl, rfl⟩
  | addExport =>
      refine ⟨_, rfl, (congrArg (fun outline => [outline]) (Blueprint.outline_create _ _ _)).trans ?_⟩
      have hlast := Blueprint.outline_build workspace.supply finalStatement
      rw [List.map_append, List.map_singleton, Tree.map_outline_children, replacement,
        label_outline, ← hlast]
      rfl
  | uppercaseIdentifier =>
      rw [replacement, ← textOrEmpty_eq]
      exact run_retext _ node workspace
  | duplicateStatement => exact ⟨[node, node], rfl, rfl⟩
  | triplicateNumber => exact ⟨[node, node, node], rfl, rfl⟩
  | observe => cases hwanted
  | numberIdentifiers => exact absurd rfl hsteady.1
  | stampFileName =>
      obtain ⟨⟨⟨_, _, _, _, _, _⟩, _⟩, _⟩ := workspace
      obtain ⟨-, rfl⟩ := htells
      rw [replacement, ← textOrEmpty_eq]
      exact run_retext _ node _
  | rejectNumbers => exact absurd rfl hsteady.2

theorem rewrites (scope : String) {entry : Entry} (hsteady : entry.IsSteady) :
    (entry.ruleType scope).rule.Rewrites (fun state => state.1.Tells message fileName)
      (entry.rewrite message fileName) where
  toPreserves := entry.preserves_tells scope
  refused node state _ hrefused := by
    have hanswer := (run_wants_fst entry node state).symm.trans hrefused
    rw [rewrite, if_neg]
    rw [label_outline]
    exact ne_of_beq_false hanswer
  visited node state _ hwanted workspace htells := by
    have hanswer := (run_wants_fst entry node state).symm.trans hwanted
    have hkind : entry.wantedKind = some node.kind := beq_iff_eq.mp hanswer
    obtain ⟨nodes, hnodes, hreplacement⟩ := visit_replacement hsteady hkind htells
    refine ⟨nodes, hnodes, ?_⟩
    rw [hreplacement, rewrite, if_pos]
    rw [label_outline]
    exact hkind

end Rewrites

end Entry

section Unit

variable {scope message fileName : String} {entries : List Entry}

theorem pipeline_rewrites (hsteady : ∀ entry ∈ entries, entry.IsSteady) :
    List.Forall₂ (Rule.Rewrites fun state => state.1.Tells message fileName)
      (RuleType.instances (pipeline scope entries).rules)
      (entries.map (Entry.rewrite message fileName)) := by
  induction entries with
  | nil => exact .nil
  | cons entry entries ih =>
      obtain ⟨hentry, hentries⟩ := List.forall_mem_cons.mp hsteady
      refine .cons ?_ ?_
      · exact (Entry.rewrites scope hentry).on (fun _ htells => htells) fun _ _ htells _ => htells
      · refine List.forall₂_map_left_iff.mpr ((ih hentries).imp fun rule step hrule => ?_)
        exact hrule.on (fun _ htells => htells) fun _ _ htells _ => htells

variable {depth : Nat} {services : Services} {root : Node} {bench : Bench}
  {transformer : UnitTransformer Context}

/-- **Units are rewritten.** A pipeline of steady rules makes of a unit what the equation says. -/
theorem transform_rewrites (hsteady : ∀ entry ∈ entries, entry.IsSteady)
    {become : Outline Label → List (Outline Label)}
    (hbecome : ∀ tree, become tree =
      (passThrough (entries.map (Entry.rewrite transformer.context.message services.fileName))
        [tree]).map fun survivor => .node survivor.label (survivor.children.flatMap become))
    (hroot : bench.Has root) (hdepth : Host.subtreeDepth root + 3 ≤ depth) :
    ∃ nodes next later,
      ((pipeline scope entries).transform depth services root transformer).run bench =
        ((.ok (.ofNodes nodes), next), later) ∧ nodes.map Tree.outline = become root.outline := by
  obtain ⟨heap, hsupply, hmem⟩ := hroot
  let request : Request Services Node := ⟨services, root, depth, bench⟩
  let prepared := transformer.context.beginUnit services root
  have hshared := @unitStart_shared scope entries request prepared
  obtain ⟨nodes, hresult, hnodes⟩ := dispatch_rewrites (pipeline_rewrites hsteady) hbecome
    (pipeline_honest scope entries) (pipeline_blind scope entries) hmem
    (@unitStart_covers _ _ request heap hsupply hmem transformer.context) ⟨.refl _, rfl⟩
    (by rw [hshared]; exact ⟨rfl, rfl⟩) (pipeline_ne_tooDeep scope entries hdepth _)
  have hunit : (preparedRun scope entries request transformer.context).1 = .ok nodes := hresult
  rw [run_transform, UnitTransformer.conclude, hunit]
  exact ⟨nodes, _, _, rfl, hnodes⟩

end Unit

end TreeRules.Catalogue
