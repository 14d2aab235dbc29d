import TreeRules.Proofs.Exchange

/-!
# Neighbours that may change places

Two rules stand next to each other in a pipeline, between others that share a state of which the two
know nothing. If their rounds may change places then so may they: the other rules are handed equal
trees in the same order, level by level, and either both runs succeed or neither does.
-/

namespace TreeRules

open Dispatch DispatchM

variable {σ κ τ υ ε : Type}

section Dispatcher

/-- A pipeline with the two rules between others, which share the rest of the state. -/
def around (common : Part σ κ) (earlier later : List (Rule κ ε Node))
    (pair : List (Rule σ ε Node)) : List (Rule σ ε Node) :=
  earlier.map (Rule.on common) ++ (pair ++ later.map (Rule.on common))

variable [Setoid σ] [Setoid κ] [Setoid τ] [Setoid υ] {common : Part σ κ} {part : Part σ τ}
  {other : Part σ υ} (hcommon : common.Proper) (hpart : part.Proper) (hother : other.Proper)
  {names : List String}

include hcommon in
theorem rounds_concurs {rules : List (Rule κ ε Node)} (blind : ∀ rule ∈ rules, rule.Blind (· ≈ ·))
    {lefts rights : List Node} (h : List.Forall₂ SameOutline lefts rights) :
    Interchanges names
      ((rules.map (Rule.on common)).foldlM (fun nodes rule => nodes.flatMapM (offer rule)) lefts)
      ((rules.map (Rule.on common)).foldlM (fun nodes rule => nodes.flatMapM (offer rule))
        rights) := by
  induction rules generalizing lefts rights with
  | nil => exact .pure h
  | cons rule rules ih =>
      obtain ⟨hrule, hrules⟩ := List.forall_mem_cons.mp blind
      rw [List.map_cons, List.foldlM_cons, List.foldlM_cons]
      refine Concurs.bind ?_ fun _ _ => ih hrules
      exact Concurs.flatMapM h fun _ _ hnode => (offer_within hcommon hrule hnode).keeping

variable {earlier later : List (Rule κ ε Node)} {first : Rule τ ε Node} {second : Rule υ ε Node}
  {p q : Node → Bool} (blind : ∀ rule ∈ earlier ++ later, rule.Blind (· ≈ ·))
  (hfirst : first.Neighbourly p q) (hsecond : second.Neighbourly q p) (hapart : part.Apart other)
  (hdisjoint : ∀ node, p node = true → q node = false)
  (hnames : first.name ∈ names ∧ second.name ∈ names)

include hcommon hpart hother blind hfirst hsecond hapart hdisjoint hnames

theorem survivors_concur {left right : Node} (h : SameOutline left right) :
    Interchanges names
      ((around common earlier later [first.on part, second.on other]).foldlM
        (fun nodes rule => nodes.flatMapM (offer rule)) [left])
      ((around common earlier later [second.on other, first.on part]).foldlM
        (fun nodes rule => nodes.flatMapM (offer rule)) [right]) := by
  obtain ⟨hearlier, hlater⟩ := List.forall_mem_append.mp blind
  rw [around, around, List.foldlM_append, List.foldlM_append]
  refine (rounds_concurs hcommon hearlier (.cons h .nil)).bind fun lefts rights hnodes => ?_
  have hboth := offerBoth_comm hpart hother hfirst hsecond hapart hdisjoint hnames hnodes
  have hrest := hboth.bind fun _ _ => rounds_concurs hcommon hlater
  simpa only [List.cons_append, List.nil_append, List.foldlM_cons, offerBoth, bind_assoc]
    using hrest

theorem plainDispatch_concurs (depth : Nat) {left right : Node} (h : SameOutline left right) :
    Interchanges names
      (plainDispatch (around common earlier later [first.on part, second.on other]) depth left)
      (plainDispatch (around common earlier later [second.on other, first.on part]) depth
        right) := by
  induction depth generalizing left right with
  | zero => exact fun _ _ _ => .halt
  | succ depth ih =>
      rw [plainDispatch, plainDispatch]
      have hrecord : Concurs (.keeping (Interchanged names)) (fun _ _ => True)
          (record Statistics.recordDispatch : DispatchM σ ε Unit)
          (record Statistics.recordDispatch) := by
        intro run run' hfit
        have hnext : Interchanged names (run.advance run.workspace [.dispatched])
            (run'.advance run'.workspace [.dispatched]) :=
          hfit.advance hfit.shared (.of_perm (.refl _))
        exact .ok ⟨trivial, hnext⟩
      refine hrecord.bind fun _ _ _ => ?_
      refine (survivors_concur hcommon hpart hother blind hfirst hsecond hapart hdisjoint hnames
        h).bind fun lefts rights hnodes => ?_
      refine Concurs.mapM hnodes fun left right hnode => ?_
      have hchildren : List.Forall₂ SameOutline (Host.children left) (Host.children right) := by
        refine forall₂_sameOutline_iff.mpr ?_
        change left.children.map Tree.outline = right.children.map Tree.outline
        rw [Tree.map_outline_children, Tree.map_outline_children, hnode]
      refine (Concurs.flatMapM hchildren fun _ _ => ih).bind fun children children' hresults => ?_
      intro run run' hfit
      refine .ok ⟨?_, ⟨hfit.shared, hfit.statistics⟩⟩
      exact outline_withChildren_eq hnode (forall₂_sameOutline_iff.mp hresults) _ _

end Dispatcher

section Sharing

variable [Setoid σ] {rules : List (Rule σ ε Node)} {refs : σ → Set Node} {names : List String}

/-- Equal trees, and runs that are interchanged. -/
structure EqualOutcomes (names : List String) (nodes : List Node) (after : Run σ)
    (nodes' : List Node) (after' : Run σ) : Prop where
  nodes : SameOutlines nodes nodes'
  runs : Interchanged names after after'

namespace EqualOutcomes

variable {nodes nodes' nodes'' : List Node} {after after' after'' : Run σ}

theorem symm (h : EqualOutcomes names nodes after nodes' after') :
    EqualOutcomes names nodes' after' nodes after :=
  ⟨h.nodes.symm, Interchanged.equivalence.symm h.runs⟩

theorem trans (h : EqualOutcomes names nodes after nodes' after')
    (h' : EqualOutcomes names nodes' after' nodes'' after'') :
    EqualOutcomes names nodes after nodes'' after'' :=
  ⟨h.nodes.trans h'.nodes, Interchanged.equivalence.trans h.runs h'.runs⟩

end EqualOutcomes

/-- The dispatcher does what the plain one does. -/
theorem dispatch_concur_plainDispatch (honest : ∀ rule ∈ rules, rule.Honest refs)
    (blind : ∀ rule ∈ rules, rule.Blind (· ≈ ·)) {heap : Heap Node} {root : Node}
    (hroot : root ∈ heap.objects) {run : Run σ} (hcovers : heap.Covers refs run.workspace)
    (names : List String) (depth : Nat) :
    Concur (EqualOutcomes names) ((dispatch rules depth root).run run)
      ((plainDispatch rules depth root).run run) := by
  obtain ⟨_, _, ⟨-, halike⟩, hagree⟩ := dispatch_paired honest blind depth
    (⟨hroot, rfl⟩ : Holds heap root root) run run ⟨hcovers, Setoid.refl _, rfl, rfl⟩
  refine Concur.of_agree hagree fun nodes nodes' hgives => ⟨?_, ⟨halike.same, ?_⟩⟩
  · exact map_eq_of_forall₂ (hgives.imp fun _ _ => And.right)
  · rw [halike.statistics_eq]
    exact .refl _

end Sharing

section Product

/-- What the other rules share, beside the states of the two. -/
def Part.ofOthers : Part (κ × τ × υ) κ where
  get whole := whole.1
  set small whole := (small, whole.2)

def Part.ofFirst : Part (κ × τ × υ) τ where
  get whole := whole.2.1
  set small whole := (whole.1, small, whole.2.2)

def Part.ofSecond : Part (κ × τ × υ) υ where
  get whole := whole.2.2
  set small whole := (whole.1, whole.2.1, small)

theorem Part.ofFirst_apart_ofSecond : (ofFirst : Part (κ × τ × υ) τ).Apart ofSecond :=
  ⟨fun _ _ => rfl, fun _ _ => rfl, fun _ _ _ => rfl⟩

section Orders

variable (earlier later : List (Rule κ ε Node)) (first : Rule τ ε Node) (second : Rule υ ε Node)

/-- The pipeline in which the first rule comes before the second one. -/
def inOrder : List (Rule (κ × τ × υ) ε Node) :=
  around .ofOthers earlier later [first.on .ofFirst, second.on .ofSecond]

/-- The pipeline in which the second rule comes before the first one. -/
def outOfOrder : List (Rule (κ × τ × υ) ε Node) :=
  around .ofOthers earlier later [second.on .ofSecond, first.on .ofFirst]

theorem inOrder_perm : (inOrder earlier later first second).Perm
    (outOfOrder earlier later first second) :=
  ((List.Perm.swap _ _ []).append_right _).append_left _

end Orders

variable [Setoid κ] [Setoid τ] [Setoid υ]

instance pairSetoid : Setoid (κ × τ) := Setoid.prod inferInstance inferInstance

theorem Part.ofOthers_proper : (ofOthers : Part (κ × τ × υ) κ).Proper :=
  ⟨fun _ _ => rfl, fun _ => rfl, fun _ _ _ => rfl, fun h => h.1, fun h h' => ⟨h, h'.2⟩⟩

theorem Part.ofFirst_proper : (ofFirst : Part (κ × τ × υ) τ).Proper :=
  ⟨fun _ _ => rfl, fun _ => rfl, fun _ _ _ => rfl, fun h => h.2.1, fun h h' => ⟨h'.1, h, h'.2.2⟩⟩

theorem Part.ofSecond_proper : (ofSecond : Part (κ × τ × υ) υ).Proper :=
  ⟨fun _ _ => rfl, fun _ => rfl, fun _ _ _ => rfl, fun h => h.2.2, fun h h' => ⟨h'.1, h'.2.1, h⟩⟩

theorem Part.Proper.blind_on [Setoid σ] {part : Part σ τ} (hpart : part.Proper)
    {rule : Rule τ ε Node} (blind : rule.Blind (· ≈ ·)) : (rule.on part).Blind (· ≈ ·) :=
  blind.on (fun _ _ => hpart.get_same) fun _ _ _ _ => hpart.set_same

variable {earlier later : List (Rule κ ε Node)} {first : Rule τ ε Node} {second : Rule υ ε Node}

theorem inOrder_blind (blind : ∀ rule ∈ earlier ++ later, rule.Blind (· ≈ ·))
    (hfirst : first.Blind (· ≈ ·)) (hsecond : second.Blind (· ≈ ·)) :
    ∀ rule ∈ inOrder earlier later first second, rule.Blind (· ≈ ·) := by
  have hon : ∀ rule ∈ earlier ++ later,
      (rule.on (Part.ofOthers : Part (κ × τ × υ) κ)).Blind (· ≈ ·) :=
    fun rule hrule => Part.ofOthers_proper.blind_on (blind rule hrule)
  obtain ⟨hearlier, hlater⟩ := List.forall_mem_append.mp hon
  have hpair : ∀ rule ∈ [first.on (Part.ofFirst : Part (κ × τ × υ) τ), second.on .ofSecond],
      rule.Blind (· ≈ ·) :=
    List.forall_mem_cons.mpr ⟨Part.ofFirst_proper.blind_on hfirst,
      List.forall_mem_singleton.mpr (Part.ofSecond_proper.blind_on hsecond)⟩
  exact List.forall_mem_append.mpr ⟨List.forall_mem_map.mpr hearlier,
    List.forall_mem_append.mpr ⟨hpair, List.forall_mem_map.mpr hlater⟩⟩

variable {refs : κ × τ × υ → Set Node} {p q : Node → Bool} (hfirst : first.Neighbourly p q)
  (hsecond : second.Neighbourly q p) (hdisjoint : ∀ node, p node = true → q node = false)
  (blind : ∀ rule ∈ earlier ++ later, rule.Blind (· ≈ ·))
  (honest : ∀ rule ∈ inOrder earlier later first second, rule.Honest refs) {heap : Heap Node}
  {root : Node} (hroot : root ∈ heap.objects) {run : Run (κ × τ × υ)}
  (hcovers : heap.Covers refs run.workspace)

include hfirst hsecond hdisjoint blind honest hroot hcovers

theorem dispatch_concur (depth : Nat) :
    Concur (EqualOutcomes [first.name, second.name])
      ((dispatch (inOrder earlier later first second) depth root).run run)
      ((dispatch (outOfOrder earlier later first second) depth root).run run) := by
  have hblind := inOrder_blind blind hfirst.blind hsecond.blind
  have hmem : ∀ rule ∈ outOfOrder earlier later first second,
      rule ∈ inOrder earlier later first second := fun rule =>
    (inOrder_perm earlier later first second).mem_iff.mpr
  have hleft := dispatch_concur_plainDispatch honest hblind hroot hcovers
    [first.name, second.name] depth
  have hright := dispatch_concur_plainDispatch (fun rule hrule => honest rule (hmem rule hrule))
    (fun rule hrule => hblind rule (hmem rule hrule)) hroot hcovers [first.name, second.name] depth
  have hnames : first.name ∈ [first.name, second.name] ∧ second.name ∈ [first.name, second.name] :=
    ⟨List.mem_cons_self, List.mem_cons_of_mem _ List.mem_cons_self⟩
  have hplain : Concur (EqualOutcomes [first.name, second.name])
      ((plainDispatch (inOrder earlier later first second) depth root).run run)
      ((plainDispatch (outOfOrder earlier later first second) depth root).run run) :=
    (plainDispatch_concurs Part.ofOthers_proper Part.ofFirst_proper Part.ofSecond_proper blind
      hfirst hsecond Part.ofFirst_apart_ofSecond hdisjoint hnames depth
      (rfl : SameOutline root root) run run (Interchanged.equivalence.refl run)).imp
      fun _ _ _ _ h => ⟨forall₂_sameOutline_iff.mp h.1, h.2⟩
  exact (hleft.trans hplain fun _ _ _ _ _ _ => EqualOutcomes.trans).trans
    (hright.symm fun _ _ _ _ => EqualOutcomes.symm) fun _ _ _ _ _ _ => EqualOutcomes.trans

/-- **Neighbours that do not meet may change places.** The run succeeds in the one order if and only
if it does in the other. Then both give equal trees and leave the same states, and the records
differ in nothing but how often the two rules were asked. Any equivalence that the rules respect can
say which states are the same; where states hold no nodes, it may be equality. -/
theorem neighbours_commute (depth : Nat) :
    ((∃ nodes after, (dispatch (inOrder earlier later first second) depth root).run run =
        (.ok nodes, after)) ↔
      ∃ nodes after, (dispatch (outOfOrder earlier later first second) depth root).run run =
        (.ok nodes, after)) ∧
    ∀ nodes after nodes' after',
      (dispatch (inOrder earlier later first second) depth root).run run = (.ok nodes, after) →
      (dispatch (outOfOrder earlier later first second) depth root).run run =
        (.ok nodes', after') →
      SameOutlines nodes nodes' ∧ after.workspace.shared ≈ after'.workspace.shared ∧
        after.statistics.Interchanged [first.name, second.name] after'.statistics := by
  have hconcur := dispatch_concur hfirst hsecond hdisjoint blind honest hroot hcovers depth
  refine ⟨⟨?_, ?_⟩, fun nodes after nodes' after' hrun hrun' => ?_⟩
  · rintro ⟨nodes, after, hrun⟩
    rw [hrun] at hconcur
    obtain ⟨nodes', after', hrun', -⟩ := hconcur.of_ok_left
    exact ⟨nodes', after', hrun'⟩
  · rintro ⟨nodes', after', hrun'⟩
    rw [hrun'] at hconcur
    obtain ⟨nodes, after, hrun, -⟩ := hconcur.of_ok_right
    exact ⟨nodes, after, hrun⟩
  · rw [hrun, hrun'] at hconcur
    cases hconcur with
    | ok houtcomes =>
        exact ⟨houtcomes.nodes, houtcomes.runs.shared, houtcomes.runs.statistics⟩

end Product

namespace Catalogue

section Sample

instance : Setoid Entry.State where
  r := Entry.SameState Eq
  iseqv := ⟨fun _ => ⟨rfl, rfl⟩, fun h => ⟨h.1.symm, h.2.symm⟩,
    fun h h' => ⟨h.1.trans h'.1, h.2.trans h'.2⟩⟩

theorem blurs_eq : Context.Blurs Eq where
  akin := by
    rintro context _ rfl
    exact ⟨rfl, rfl⟩
  count := by
    rintro context _ rfl
    rfl

/-- The rule with a context of its own. -/
def alone (entry : Entry) : Rule Entry.State Error Node := (entry.ruleType "").rule

def wanted (entry : Entry) (node : Node) : Bool := entry.wantedKind == some node.kind

/-- Rules that leave the kinds of nodes alone are neighbourly if they want different kinds. -/
theorem neighbourly {entry other : Entry} (hobserve : entry ≠ .observe)
    (hvisit : ∀ node, (entry.visit node).Returns fun nodes => ∀ emitted ∈ nodes,
      emitted.kind = node.kind) (hdiffers : entry.wantedKind ≠ other.wantedKind) :
    (alone entry).Neighbourly (wanted entry) (wanted other) where
  wants node := by
    cases entry with
    | observe => exact absurd rfl hobserve
    | _ => rfl
  emits node state hwants workspace nodes hnodes emitted hemitted := by
    have hkind : entry.wantedKind = some node.kind := by
      cases entry with
      | observe => exact absurd rfl hobserve
      | _ => exact beq_iff_eq.mp hwants
    change (other.wantedKind == some emitted.kind) = false
    rw [hvisit node workspace nodes hnodes emitted hemitted, ← hkind]
    exact beq_false_of_ne hdiffers.symm
  blind := entry.blind blurs_eq ""

/-- The objects that three contexts refer to. -/
def allRefs (whole : Entry.State × Entry.State × Entry.State) : Set Node :=
  whole.1.1.refs ∪ (whole.2.1.1.refs ∪ whole.2.2.1.refs)

theorem alone_honest {entry : Entry}
    {part : Part (Entry.State × Entry.State × Entry.State) Entry.State}
    (hpart : part = .ofOthers ∨ part = .ofFirst ∨ part = .ofSecond) :
    ((alone entry).on part).Honest allRefs := by
  refine (entry.honest "").on (fun whole node hnode => ?_) fun small whole node hnode => ?_
  · rcases hpart with rfl | rfl | rfl
    · exact .inl hnode
    · exact .inr (.inl hnode)
    · exact .inr (.inr hnode)
  · rcases hpart with rfl | rfl | rfl <;> rcases hnode with hnode | hnode | hnode
    · exact .inl hnode
    · exact .inr (.inr (.inl hnode))
    · exact .inr (.inr (.inr hnode))
    · exact .inr (.inl hnode)
    · exact .inl hnode
    · exact .inr (.inr (.inr hnode))
    · exact .inr (.inl hnode)
    · exact .inr (.inr (.inl hnode))
    · exact .inl hnode

open NodeBlueprint in
/-- A statement with an identifier in it, and another identifier behind it. -/
def numbered : NodeBlueprint :=
  NodeBlueprint.block [expressionStatement (identifier "a"), identifier "b"]

def numberedRun : Run (Entry.State × Entry.State × Entry.State) where
  workspace :=
    let start : Entry.State := ({ compilation := "", message := "" }, {})
    { shared := (start, start, start), supply := (numbered.build.run {}).2 }
  statistics := .empty

open NodeBlueprint in
/-- The statement twice, and the identifiers numbered in the order in which they stand then. -/
def numberedTwice : NodeBlueprint :=
  NodeBlueprint.block [expressionStatement (identifier "a_0"),
    expressionStatement (identifier "a_1"), identifier "b_2"]

/-- Identifiers may be numbered before statements are duplicated. -/
theorem neighbours_commute_numbered : ∃ nodes after,
    (dispatch (outOfOrder [alone .observe] [alone .observe] (alone .duplicateStatement)
        (alone .numberIdentifiers)) 3 (numbered.build.run {}).1).run numberedRun =
      (.ok nodes, after) ∧
    nodes.map Tree.outline = [numberedTwice.outline] := by
  have hduplicate : (alone .duplicateStatement).Neighbourly (wanted .duplicateStatement)
      (wanted .numberIdentifiers) :=
    neighbourly (by decide) (fun node => .pure (by simp)) (by decide)
  have hnumber : (alone .numberIdentifiers).Neighbourly (wanted .numberIdentifiers)
      (wanted .duplicateStatement) := by
    refine neighbourly (by decide) (fun node => ?_) (by decide)
    refine (RuleM.Returns.any _).bind fun _ _ => (RuleM.Returns.any _).bind fun _ _ => ?_
    have hcreate (text : String) : (RuleM.create (node.withText text) :
        RuleM Entry.State Error Node).Returns fun new => new.kind = node.kind :=
      .create fun _ => rfl
    exact (hcreate _).bind fun _ hkind => .pure (List.forall_mem_singleton.mpr hkind)
  have hdisjoint (node : Node) (h : wanted .duplicateStatement node = true) :
      wanted .numberIdentifiers node = false := by
    have hkind : some .expressionStatement = some node.kind := beq_iff_eq.mp h
    rw [wanted, ← hkind]
    rfl
  have hhonest : ∀ rule ∈ inOrder [alone .observe] [alone .observe] (alone .duplicateStatement)
      (alone .numberIdentifiers), rule.Honest allRefs := by
    refine List.forall_mem_cons.mpr ⟨alone_honest (.inl rfl), List.forall_mem_cons.mpr
      ⟨alone_honest (.inr (.inl rfl)), List.forall_mem_cons.mpr
        ⟨alone_honest (.inr (.inr rfl)), ?_⟩⟩⟩
    exact List.forall_mem_singleton.mpr (alone_honest (.inl rfl))
  obtain ⟨nodes, after, hrun, houtlines⟩ : ∃ nodes after,
      (dispatch (inOrder [alone .observe] [alone .observe] (alone .duplicateStatement)
        (alone .numberIdentifiers)) 3 (numbered.build.run {}).1).run numberedRun =
          (.ok nodes, after) ∧ nodes.map Tree.outline = [numberedTwice.outline] :=
    exists_ok_of_outlines (by decide +kernel)
  obtain ⟨heap, -, hsupply, hmem⟩ := Heap.allocates_build (.empty : Heap Node) numbered
  have hcovers : heap.Covers allRefs numberedRun.workspace := by
    refine ⟨hsupply, fun node hnode => ?_⟩
    rcases hnode with hnode | hnode | hnode <;> cases hnode
  have hblind : ∀ rule ∈ [alone .observe] ++ [alone .observe], rule.Blind (· ≈ ·) := by
    have hobserve : (alone .observe).Blind (· ≈ ·) := Entry.observe.blind blurs_eq ""
    exact List.forall_mem_cons.mpr ⟨hobserve, List.forall_mem_singleton.mpr hobserve⟩
  obtain ⟨hsucceeds, hequal⟩ := neighbours_commute hduplicate hnumber hdisjoint hblind hhonest hmem
    hcovers 3
  obtain ⟨nodes', after', hrun'⟩ := hsucceeds.mp ⟨nodes, after, hrun⟩
  have hsame : SameOutlines nodes nodes' := (hequal nodes after nodes' after' hrun hrun').1
  exact ⟨nodes', after', hrun', hsame.symm.trans houtlines⟩

end Sample

end Catalogue

end TreeRules
