import TreeRules.Proofs.Matching
import TreeRules.Proofs.PlainDispatch

/-!
# Matched rounds make matched runs

When the rules of two pipelines leave matched survivors of matched nodes, the dispatchers give
matched trees. Both keep the same survivors, since an object comes back as itself in the one run if
and only if it does in the other one, and whatever they rebuild is new in both.
-/

namespace TreeRules

variable {σ τ ε α : Type}

/-- The run with one more object made. -/
def Run.spend (run : Run σ) : Run σ :=
  { run with workspace.supply := ⟨run.workspace.supply.next + 1⟩ }

namespace Dispatch

open DispatchM

/-- The nodes on the one side are matched with those on the other one. -/
def AllMatched (m : Matching) (nodes nodes' : List (Tree α)) : Prop :=
  List.Forall₂ (Tree.Matched m.pairs) nodes nodes'

theorem AllMatched.mono : Monotone (AllMatched (α := α)) :=
  fun _ _ hle _ _ h => h.imp fun _ _ => Tree.Matched.mono hle.keeps

theorem matched_mono : Monotone fun m : Matching => Tree.Matched (α := α) m.pairs :=
  fun _ _ hle _ _ => Tree.Matched.mono hle.keeps

theorem AllMatched.right_identical {m : Matching} {nodes nodes' : List (Tree α)}
    (h : AllMatched m nodes nodes') : AllMatched (.identical m.right) nodes' nodes' :=
  List.forall₂_same.mpr (forall_of_forall₂ (h.imp fun _ _ => Tree.Matched.right_identical))

/-- Runs whose objects are those of the matching. -/
structure Supplied (m : Matching) (run : Run σ) (run' : Run τ) : Prop where
  left : run.workspace.supply = m.left
  right : run'.workspace.supply = m.right

theorem Supplied.spend {m : Matching} {run : Run σ} {run' : Run τ} (h : Supplied m run run') :
    Supplied m.add run.spend run'.spend where
  left := congrArg (fun supply : Supply => Supply.mk (supply.next + 1)) h.left
  right := congrArg (fun supply : Supply => Supply.mk (supply.next + 1)) h.right

variable {Fit : Matching → Run σ → Run τ → Prop}

/-- The objects that are made next on both sides are matched. -/
theorem fresh_matched (hsupplied : ∀ {m run run'}, Fit m run run' → Supplied m run run')
    (hspend : ∀ {m run run'}, Fit m run run' → Fit m.add run.spend run'.spend)
    (m : Matching) : Paired Fit (fun later id id' => later.pairs id id') m
      (fresh : DispatchM σ ε ObjectId) (fresh : DispatchM τ ε ObjectId) := by
  intro run run' hfit
  obtain ⟨hleft, hright⟩ := hsupplied hfit
  have hpair : run.workspace.supply.next = m.left.next ∧ run'.workspace.supply.next = m.right.next :=
    ⟨congrArg Supply.next hleft, congrArg Supply.next hright⟩
  exact ⟨m.add, m.le_add, hspend hfit, .ok (.inr hpair)⟩

variable [Relabel α] {m : Matching}

theorem isUntouched_eq {child child' : Tree α} {nodes nodes' : List (Tree α)}
    (hchild : Tree.Matched m.pairs child child') (h : AllMatched m nodes nodes') :
    isUntouched child nodes = isUntouched child' nodes' := by
  cases h with
  | nil => rfl
  | @cons node node' rest rest' hnode hrest =>
      cases hrest with
      | nil =>
          change (node.id == child.id) = (node'.id == child'.id)
          rw [Bool.eq_iff_iff, beq_iff_eq, beq_iff_eq]
          exact m.eq_iff_eq hnode.id hchild.id
      | cons => rfl

section Children

variable {dispatcher : Tree α → DispatchM σ ε (List (Tree α))}
  {dispatcher' : Tree α → DispatchM τ ε (List (Tree α))}
  (h : ∀ m node node', Tree.Matched m.pairs node node' →
    Paired Fit AllMatched m (dispatcher node) (dispatcher' node'))

include h

/-- Either all children came back untouched on both sides, or not all did on either. -/
theorem dispatchEach_matched {children children' : List (Tree α)}
    (hchildren : AllMatched m children children') :
    Paired Fit (fun later result result' => AllMatched later result.1 result'.1 ∧
      result.2 = result'.2) m
      (dispatchEach dispatcher children) (dispatchEach dispatcher' children') := by
  induction children generalizing children' m with
  | nil =>
      cases hchildren
      exact .pure ⟨.nil, rfl⟩
  | cons child rest ih =>
      obtain ⟨child', rest', hhead, htail, rfl⟩ := List.forall₂_cons_left_iff.mp hchildren
      refine (h m child child' hhead).bind fun mid hmid here here' hhere => ?_
      refine (ih (AllMatched.mono hmid _ _ htail)).bind fun later hlater result result' hrest => ?_
      obtain ⟨hothers, huntouched⟩ := hrest
      have hhere' := AllMatched.mono hlater _ _ hhere
      have hchild := hhead.mono (hmid.trans hlater).keeps
      refine .pure ⟨List.rel_append hhere' hothers, ?_⟩
      rw [isUntouched_eq hchild hhere', huntouched]

variable (hfresh : ∀ m, Paired Fit (fun later id id' => later.pairs id id') m
  (fresh : DispatchM σ ε ObjectId) (fresh : DispatchM τ ε ObjectId))

include hfresh

theorem rebuild_matched {node node' : Tree α} (hnode : Tree.Matched m.pairs node node') :
    Paired Fit (fun later => Tree.Matched later.pairs) m (rebuild dispatcher node)
      (rebuild dispatcher' node') := by
  refine (dispatchEach_matched h hnode.children).bind fun mid hmid result result' hresult => ?_
  obtain ⟨nodes, untouched⟩ := result
  obtain ⟨nodes', untouched'⟩ := result'
  obtain ⟨hnodes, rfl⟩ : AllMatched mid nodes nodes' ∧ untouched = untouched' := hresult
  cases untouched with
  | true => exact .pure (hnode.mono hmid.keeps)
  | false =>
      refine (hfresh mid).bind fun later hlater id id' hid => .pure ?_
      have hlabel : Relabel.rebuilt node.label = Relabel.rebuilt node'.label := by
        rw [hnode.label_eq]
      change Tree.Matched _ (Tree.node id (Relabel.rebuilt node.label) nodes)
        (Tree.node id' (Relabel.rebuilt node'.label) nodes')
      rw [hlabel]
      exact .node _ hid (AllMatched.mono hlater _ _ hnodes)

end Children

/-- **Rule lists that leave matched survivors dispatch matched nodes to matched trees.** -/
theorem dispatch_matched {rules : List (Rule σ ε (Tree α))} {rules' : List (Rule τ ε (Tree α))}
    (hrecord : ∀ m, Paired Fit (fun _ _ _ => True) m
      (record Statistics.recordDispatch : DispatchM σ ε Unit)
      (record Statistics.recordDispatch : DispatchM τ ε Unit))
    (hfresh : ∀ m, Paired Fit (fun later id id' => later.pairs id id') m
      (fresh : DispatchM σ ε ObjectId) (fresh : DispatchM τ ε ObjectId))
    (hsurvivors : ∀ m node node', Tree.Matched m.pairs node node' →
      Paired Fit AllMatched m (survivors rules [node]) (survivors rules' [node']))
    (depth : Nat) {node node' : Tree α} (hnode : Tree.Matched m.pairs node node') :
    Paired Fit AllMatched m (dispatch rules depth node) (dispatch rules' depth node') := by
  induction depth generalizing m node node' with
  | zero => exact .throw _
  | succ depth ih =>
      refine (hrecord m).bind fun mid hmid _ _ _ => ?_
      refine (hsurvivors mid node node' (hnode.mono hmid.keeps)).bind
        fun later _ nodes nodes' hnodes => ?_
      rw [rebuildEach_eq_mapM, rebuildEach_eq_mapM]
      refine Paired.mapM matched_mono matched_mono (fun last _ left right hleft => ?_) hnodes
      exact rebuild_matched (fun _ _ _ => ih) hfresh hleft

end Dispatch

end TreeRules
