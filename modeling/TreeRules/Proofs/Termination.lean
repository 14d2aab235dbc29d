import TreeRules.Proofs.Run

/-!
# Runs that end

A run ends if some bound on the nesting is large enough for it. A larger bound changes nothing then,
so a run that ends has one result.
-/

namespace TreeRules

variable {σ ε N α β : Type}

/-- The second action does what the first one does, unless the first one reached its bound. -/
def Extends (less more : DispatchM σ ε α) : Prop :=
  ∀ run, (less.run run).1 = .error .tooDeep ∨ more.run run = less.run run

namespace Extends

theorem refl (action : DispatchM σ ε α) : Extends action action := fun _ => .inr rfl

theorem bind {less more : DispatchM σ ε α} {next next' : α → DispatchM σ ε β}
    (h : Extends less more) (hnext : ∀ value, Extends (next value) (next' value)) :
    Extends (less >>= next) (more >>= next') := by
  intro run
  rw [run_bind, run_bind]
  rcases h run with hdeep | hsame
  · rcases hless : less.run run with ⟨_ | _, after⟩ <;> rw [hless] at hdeep <;> cases hdeep
    exact .inl rfl
  · rw [hsame]
    rcases less.run run with ⟨_ | value, after⟩
    · exact .inr rfl
    · exact hnext value after

theorem trans {first second third : DispatchM σ ε α} (h : Extends first second)
    (h' : Extends second third) : Extends first third := by
  intro run
  rcases h run with hdeep | hsame
  · exact .inl hdeep
  · rw [← hsame]
    exact h' run

end Extends

namespace Dispatch

variable [Host N]

section Children

variable {dispatch dispatch' : N → DispatchM σ ε (List N)}
  (h : ∀ node, Extends (dispatch node) (dispatch' node))

include h

theorem dispatchEach_extends (children : List N) :
    Extends (dispatchEach dispatch children) (dispatchEach dispatch' children) := by
  induction children with
  | nil => exact .refl _
  | cons child rest ih => exact (h child).bind fun _ => ih.bind fun _ => .refl _

theorem rebuild_extends (node : N) : Extends (rebuild dispatch node) (rebuild dispatch' node) :=
  (dispatchEach_extends h _).bind fun _ => .refl _

theorem rebuildEach_extends (nodes : List N) :
    Extends (rebuildEach dispatch nodes) (rebuildEach dispatch' nodes) := by
  induction nodes with
  | nil => exact .refl _
  | cons node rest ih => exact (rebuild_extends h node).bind fun _ => ih.bind fun _ => .refl _

end Children

/-- One more level of nesting changes nothing for a run that did without. -/
theorem dispatch_extends_succ (rules : List (Rule σ ε N)) (depth : Nat) (node : N) :
    Extends (dispatch rules depth node) (dispatch rules (depth + 1) node) := by
  induction depth generalizing node with
  | zero => exact fun _ => .inl rfl
  | succ depth ih => exact .bind (.refl _) fun _ => .bind (.refl _) fun nodes =>
      rebuildEach_extends ih nodes

end Dispatch

/-- With some bound on the nesting the run ends, in this way. -/
def Ends (dispatcher : Nat → DispatchM σ ε α) (run : Run σ) (result : Except ε α) (after : Run σ) :
    Prop :=
  ∃ depth, (dispatcher depth).run run = (result.mapError .failed, after)

theorem mapError_failed_ne_tooDeep (result : Except ε α) :
    result.mapError Halt.failed ≠ .error .tooDeep := by
  cases result <;> nofun

theorem mapError_failed_injective {result result' : Except ε α}
    (h : result.mapError Halt.failed = result'.mapError Halt.failed) : result = result' := by
  cases result <;> cases result' <;> cases h <;> rfl

theorem exists_of_ne_tooDeep {result : Except (Halt ε) α} (h : result ≠ .error .tooDeep) :
    ∃ result' : Except ε α, result = result'.mapError .failed := by
  rcases result with (error | _) | value
  · exact ⟨.error error, rfl⟩
  · exact absurd rfl h
  · exact ⟨.ok value, rfl⟩

section Bounded

variable {dispatcher : Nat → DispatchM σ ε α}
  (h : ∀ depth, Extends (dispatcher depth) (dispatcher (depth + 1)))

include h

theorem extends_of_le {depth depth' : Nat} (hle : depth ≤ depth') :
    Extends (dispatcher depth) (dispatcher depth') := by
  induction hle with
  | refl => exact .refl _
  | step _ ih => exact ih.trans (h _)

theorem run_eq_of_le {depth depth' : Nat} (hle : depth ≤ depth') {run after : Run σ}
    {result : Except ε α} (hrun : (dispatcher depth).run run = (result.mapError .failed, after)) :
    (dispatcher depth').run run = (result.mapError .failed, after) := by
  rcases extends_of_le h hle run with hdeep | hsame
  · rw [hrun] at hdeep
    exact (mapError_failed_ne_tooDeep _ hdeep).elim
  · rw [hsame, hrun]

theorem Ends.unique {run after after' : Run σ} {result result' : Except ε α}
    (hends : Ends dispatcher run result after) (hends' : Ends dispatcher run result' after') :
    result = result' ∧ after = after' := by
  obtain ⟨depth, hrun⟩ := hends
  obtain ⟨depth', hrun'⟩ := hends'
  have hboth := (run_eq_of_le h (Nat.le_max_left depth depth') hrun).symm.trans
    (run_eq_of_le h (Nat.le_max_right depth depth') hrun')
  exact ⟨mapError_failed_injective (Prod.ext_iff.mp hboth).1, (Prod.ext_iff.mp hboth).2⟩

end Bounded

namespace Dispatch

variable [Host N]

theorem dispatch_ends_unique {rules : List (Rule σ ε N)} {node : N} {run after after' : Run σ}
    {result result' : Except ε (List N)}
    (h : Ends (fun depth => dispatch rules depth node) run result after)
    (h' : Ends (fun depth => dispatch rules depth node) run result' after') :
    result = result' ∧ after = after' :=
  Ends.unique (fun depth => dispatch_extends_succ rules depth node) h h'

end Dispatch

end TreeRules
