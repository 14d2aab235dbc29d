import TreeRules.Proofs.Breakdown
import TreeRules.Proofs.Emission

/-!
# How deep dispatches nest

Whether a run ends depends on the rules: one that wraps what it wants is dispatched below itself for
ever. A rank bounds the nesting when it falls from every node to its children and no rule emits a
node of higher rank than the one it took. Then neither the dispatches nor the trees of the result
get deeper than the rank of the root.
-/

namespace TreeRules

open Dispatch DispatchM

variable {σ ε N : Type} [Host N]

namespace Host

omit [Host N] in
theorem one_add_foldr_max_le_iff {nodes : List N} {level : N → Nat} {bound : Nat} :
    1 + (nodes.map level).foldr max 0 ≤ bound ↔ 0 < bound ∧ ∀ node ∈ nodes, level node < bound := by
  constructor
  · intro hmax
    refine ⟨by omega, fun node hnode => ?_⟩
    have hlevel : level node ≤ (nodes.map level).foldr max 0 :=
      List.le_max_of_le (List.mem_map_of_mem hnode) le_rfl
    omega
  · rintro ⟨hpos, hnodes⟩
    have hmax : (nodes.map level).foldr max 0 ≤ bound - 1 := by
      refine List.max_le_of_forall_le _ _ fun value hvalue => ?_
      obtain ⟨node, hnode, rfl⟩ := List.mem_map.mp hvalue
      exact Nat.le_sub_one_of_lt (hnodes node hnode)
    omega

theorem subtreeDepth_le_iff {node : N} {bound : Nat} :
    subtreeDepth node ≤ bound ↔
      0 < bound ∧ ∀ child ∈ children node, subtreeDepth child < bound := by
  rw [subtreeDepth_eq, one_add_foldr_max_le_iff]

/-- The levels of a subtree in which every node keeps some in reserve, for what it may come to
hold. -/
def reservedDepth (reserve : N → Nat) (node : N) : Nat :=
  max (reserve node)
    (1 + ((children node).attach.map fun child => reservedDepth reserve child.1).foldr max 0)
termination_by node
decreasing_by exact child.2

variable {reserve : N → Nat}

theorem reservedDepth_eq (node : N) : reservedDepth reserve node =
    max (reserve node) (1 + ((children node).map (reservedDepth reserve)).foldr max 0) := by
  rw [reservedDepth, List.attach_map_val (f := reservedDepth reserve)]

theorem reservedDepth_le_iff {node : N} {bound : Nat} :
    reservedDepth reserve node ≤ bound ↔ reserve node ≤ bound ∧ 0 < bound ∧
      ∀ child ∈ children node, reservedDepth reserve child < bound := by
  rw [reservedDepth_eq, Nat.max_le, one_add_foldr_max_le_iff]

/-- The reserve adds to the depth once, not at every level. -/
theorem reservedDepth_le {more : Nat} (h : ∀ node : N, reserve node ≤ more + 1) (node : N) :
    reservedDepth reserve node ≤ subtreeDepth node + more := by
  induction node using (wellFounded (N := N)).induction with
  | _ node ih =>
      obtain ⟨hpos, hchildren⟩ := subtreeDepth_le_iff.mp (le_refl (subtreeDepth node))
      rw [reservedDepth_le_iff]
      refine ⟨?_, by omega, fun child hchild => ?_⟩
      · have hreserve := h node
        omega
      · have hdepth := hchildren child hchild
        have hreserved := ih child hchild
        omega

end Host

/-- A measure of nodes that falls from every node to its children. -/
structure Falls (rank : N → Nat) : Prop where
  pos : ∀ node, 0 < rank node
  lt : ∀ node, ∀ child ∈ Host.children node, rank child < rank node

theorem Falls.subtreeDepth_le {rank : N → Nat} (h : Falls rank) (node : N) :
    Host.subtreeDepth node ≤ rank node := by
  induction node using (Host.wellFounded (N := N)).induction with
  | _ node ih =>
      rw [Host.subtreeDepth_le_iff]
      refine ⟨h.pos node, fun child hchild => ?_⟩
      exact (ih child hchild).trans_lt (h.lt node child hchild)

theorem falls_reservedDepth (reserve : N → Nat) : Falls (Host.reservedDepth reserve) where
  pos node := (Host.reservedDepth_le_iff.mp (le_refl (Host.reservedDepth reserve node))).2.1
  lt node := (Host.reservedDepth_le_iff.mp (le_refl (Host.reservedDepth reserve node))).2.2

namespace Dispatch

section Halts

variable {dispatcher : N → DispatchM σ ε (List N)} {run after : Run σ} {halt : Halt ε}

/-- The children of a node are dispatched until one of the dispatches halts. -/
theorem exists_of_dispatchEach_error {children : List N}
    (h : (dispatchEach dispatcher children).run run = (.error halt, after)) :
    ∃ child ∈ children, ∃ before, (dispatcher child).run before = (.error halt, after) := by
  induction children generalizing run with
  | nil => exact (pure_ne_error h).elim
  | cons child rest ih =>
      rcases bind_error_iff.mp h with hchild | ⟨here, mid, _, h⟩
      · exact ⟨child, List.mem_cons_self, run, hchild⟩
      · rcases bind_error_iff.mp h with hrest | ⟨_, _, _, h⟩
        · obtain ⟨other, hother, hhalts⟩ := ih hrest
          exact ⟨other, List.mem_cons_of_mem _ hother, hhalts⟩
        · exact (pure_ne_error h).elim

theorem exists_of_rebuild_error {node : N}
    (h : (rebuild dispatcher node).run run = (.error halt, after)) :
    ∃ child ∈ Host.children node, ∃ before,
      (dispatcher child).run before = (.error halt, after) := by
  rcases bind_error_iff.mp h with heach | ⟨⟨nodes, untouched⟩, mid, _, h⟩
  · exact exists_of_dispatchEach_error heach
  · cases untouched with
    | true => exact (pure_ne_error h).elim
    | false =>
        rcases bind_error_iff.mp h with hfresh | ⟨_, _, _, h⟩
        · cases hfresh
        · exact (pure_ne_error h).elim

theorem exists_of_rebuildEach_error {nodes : List N}
    (h : (rebuildEach dispatcher nodes).run run = (.error halt, after)) :
    ∃ node ∈ nodes, ∃ child ∈ Host.children node, ∃ before last,
      (dispatcher child).run before = (.error halt, last) := by
  induction nodes generalizing run with
  | nil => exact (pure_ne_error h).elim
  | cons node rest ih =>
      rcases bind_error_iff.mp h with hhere | ⟨here, mid, _, h⟩
      · obtain ⟨child, hchild, before, hhalts⟩ := exists_of_rebuild_error hhere
        exact ⟨node, List.mem_cons_self, child, hchild, before, after, hhalts⟩
      · rcases bind_error_iff.mp h with hrest | ⟨_, _, _, h⟩
        · obtain ⟨other, hother, hhalts⟩ := ih hrest
          exact ⟨other, List.mem_cons_of_mem _ hother, hhalts⟩
        · exact (pure_ne_error h).elim

end Halts

section Rank

variable {rules : List (Rule σ ε N)} {rank : N → Nat} (hfalls : Falls rank)
  (hemits : ∀ rule ∈ rules, ∀ node, rule.Emits node fun emitted => rank emitted ≤ rank node)

omit [Host N] in
include hemits in
theorem Rounds.rank_survivor_le {start finish : Workspace σ} {node : N} {survivors : List N}
    {rounds : List (List (Offer N))} (h : Rounds rules start rounds finish)
    (hrelay : Relay [node] rounds survivors) : ∀ survivor ∈ survivors, rank survivor ≤ rank node := by
  refine h.forall_survivors hrelay ?_ (List.forall_mem_singleton.mpr le_rfl)
  intro rule hrule other hother shared hwants workspace nodes hnodes emitted hemitted
  have hrank := hemits rule hrule other shared hwants workspace nodes hnodes emitted hemitted
  exact hrank.trans hother

include hfalls hemits

/-- **Dispatches nest no deeper than the rank.** -/
theorem dispatch_ne_tooDeep {depth : Nat} {node : N} (hdepth : rank node ≤ depth) (run : Run σ) :
    ((dispatch rules depth node).run run).1 ≠ .error .tooDeep := by
  rcases hrun : (dispatch rules depth node).run run with ⟨halt | nodes, after⟩
  swap
  · nofun
  rintro heq
  obtain rfl : halt = .tooDeep := Except.error.inj heq
  clear heq
  induction depth generalizing node run after with
  | zero => exact absurd hdepth (Nat.not_le.mpr (hfalls.pos node))
  | succ depth ih =>
      rcases bind_error_iff.mp hrun with hrecord | ⟨_, start, _, hrun⟩
      · cases hrecord
      rcases bind_error_iff.mp hrun with hsurvivors | ⟨survivors, mid, hsurvivors, hrun⟩
      · obtain ⟨_, _, _, _, _, _, _, _, _, _, _, hhalt, _⟩ := survivors_error hsurvivors
        cases hhalt
      · obtain ⟨rounds, hrelay, hrounds, _⟩ := survivors_ok hsurvivors
        obtain ⟨survivor, hsurvivor, child, hchild, before, last, hhalts⟩ :=
          exists_of_rebuildEach_error hrun
        have hrank := hrounds.rank_survivor_le hemits hrelay survivor hsurvivor
        have hlt := hfalls.lt survivor child hchild
        exact ih (by omega) before last hhalts

/-- **The result is no deeper than the rank.** -/
theorem Follows.subtreeDepth_output_le [Host.Faithful N] {start finish : Workspace σ}
    {trace : Trace N} (h : Follows rules start trace finish) :
    ∀ output ∈ trace.outputs, Host.subtreeDepth output ≤ rank trace.node := by
  refine Follows.induction
    (P := fun _ trace _ => ∀ output ∈ trace.outputs, Host.subtreeDepth output ≤ rank trace.node)
    (Q := fun _ survival _ => Host.subtreeDepth survival.output ≤ rank survival.node) ?_ ?_ ?_ h
  · intro start next finish node rounds survivals hrelay hrounds hsurvivals output houtput
    obtain ⟨survival, hsurvival, rfl⟩ := List.mem_map.mp houtput
    obtain ⟨_, _, _, houtput⟩ := hsurvivals.exists_step_of_mem hsurvival
    have hrank := hrounds.rank_survivor_le hemits hrelay _ (List.mem_map_of_mem hsurvival)
    exact houtput.trans hrank
  · intro start finish node children _ _ _
    exact hfalls.subtreeDepth_le node
  · intro start finish node children hnodes hchildren _
    change Host.subtreeDepth (Host.withChildren _ _ node) ≤ rank node
    rw [Host.subtreeDepth_le_iff, Host.Faithful.children_withChildren]
    refine ⟨hfalls.pos node, fun output houtput => ?_⟩
    obtain ⟨child, hchild, houtput⟩ := List.mem_flatMap.mp houtput
    obtain ⟨_, _, _, houtputs⟩ := hchildren.exists_step_of_mem hchild
    have hmem : child.node ∈ Host.children node := hnodes ▸ List.mem_map_of_mem hchild
    exact (houtputs output houtput).trans_lt (hfalls.lt node child.node hmem)

end Rank

end Dispatch

end TreeRules
