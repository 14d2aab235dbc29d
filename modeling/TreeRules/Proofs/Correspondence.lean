import TreeRules.Proofs.Pairing

/-!
# Corresponding rules

Two rule lists whose rules answer every offer alike drive the dispatcher alike, even if they work on
different states. The relation between the two runs has to survive the dispatcher's own bookkeeping.
-/

namespace TreeRules.Dispatch

open DispatchM

variable {σ τ ε N W : Type} [Preorder W] {Fit : W → Run σ → Run τ → Prop}
  {rules : List (Rule σ ε N)} {rules' : List (Rule τ ε N)}

/-- Offers to the two rules are paired and leave the same nodes. -/
def Corresponds (Fit : W → Run σ → Run τ → Prop) (rule : Rule σ ε N) (rule' : Rule τ ε N) : Prop :=
  ∀ world node, Paired Fit (fun _ => Eq) world (offer rule node) (offer rule' node)

theorem offerEach_corresponds {rule : Rule σ ε N} {rule' : Rule τ ε N}
    (h : Corresponds Fit rule rule') (world : W) (nodes : List N) :
    Paired Fit (fun _ => Eq) world (offerEach rule nodes) (offerEach rule' nodes) := by
  induction nodes generalizing world with
  | nil => exact .pure rfl
  | cons node rest ih =>
      refine (h world node).bind fun mid _ here _ hhere => ?_
      refine (ih mid).bind fun _ _ others _ hothers => .pure ?_
      rw [hhere, hothers]

theorem survivors_corresponds (h : List.Forall₂ (Corresponds Fit) rules rules') (world : W)
    (nodes : List N) :
    Paired Fit (fun _ => Eq) world (survivors rules nodes) (survivors rules' nodes) := by
  induction h generalizing world nodes with
  | nil => exact .pure rfl
  | cons hrule _ ih =>
      refine (offerEach_corresponds hrule world nodes).bind fun mid _ passed _ hpassed => ?_
      subst hpassed
      exact ih mid passed

variable [Host N]

section Children

variable {dispatcher : N → DispatchM σ ε (List N)} {dispatcher' : N → DispatchM τ ε (List N)}
  (h : ∀ world node, Paired Fit (fun _ => Eq) world (dispatcher node) (dispatcher' node))

include h

theorem dispatchEach_corresponds (world : W) (children : List N) :
    Paired Fit (fun _ => Eq) world (dispatchEach dispatcher children)
      (dispatchEach dispatcher' children) := by
  induction children generalizing world with
  | nil => exact .pure rfl
  | cons child rest ih =>
      refine (h world child).bind fun mid _ here _ hhere => ?_
      refine (ih mid).bind fun _ _ others _ hothers => .pure ?_
      rw [hhere, hothers]

variable (hfresh : ∀ world, Paired Fit (fun _ => Eq) world (fresh : DispatchM σ ε ObjectId) fresh)

include hfresh

theorem rebuild_corresponds (world : W) (node : N) :
    Paired Fit (fun _ => Eq) world (rebuild dispatcher node) (rebuild dispatcher' node) := by
  refine (dispatchEach_corresponds h world (Host.children node)).bind
    fun mid _ result _ hresult => ?_
  subst hresult
  obtain ⟨nodes, untouched⟩ := result
  cases untouched with
  | true => exact .pure rfl
  | false =>
      refine (hfresh mid).bind fun _ _ id _ hid => .pure ?_
      rw [hid]

theorem rebuildEach_corresponds (world : W) (nodes : List N) :
    Paired Fit (fun _ => Eq) world (rebuildEach dispatcher nodes)
      (rebuildEach dispatcher' nodes) := by
  induction nodes generalizing world with
  | nil => exact .pure rfl
  | cons node rest ih =>
      refine (rebuild_corresponds h hfresh world node).bind fun mid _ here _ hhere => ?_
      refine (ih mid).bind fun _ _ others _ hothers => .pure ?_
      rw [hhere, hothers]

end Children

/-- Dispatchers over corresponding rules do the same. -/
theorem dispatch_corresponds (h : List.Forall₂ (Corresponds Fit) rules rules')
    (hrecord : ∀ world, Paired Fit (fun _ _ _ => True) world
      (record Statistics.recordDispatch : DispatchM σ ε Unit) (record Statistics.recordDispatch))
    (hfresh : ∀ world, Paired Fit (fun _ => Eq) world (fresh : DispatchM σ ε ObjectId) fresh)
    (depth : Nat) (world : W) (node : N) :
    Paired Fit (fun _ => Eq) world (dispatch rules depth node) (dispatch rules' depth node) := by
  induction depth generalizing world node with
  | zero => exact .throw _
  | succ depth ih =>
      refine (hrecord world).bind fun mid _ _ _ _ => ?_
      refine (survivors_corresponds h mid [node]).bind fun later _ passed _ hpassed => ?_
      subst hpassed
      exact rebuildEach_corresponds ih hfresh later passed

end TreeRules.Dispatch
