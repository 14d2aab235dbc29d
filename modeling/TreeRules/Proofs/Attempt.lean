/-!
# Attempts

An action that changes a state and can fail. Actions in sequence go on as long as none fails, and a
failure keeps what was changed before it. The actions of the dispatcher, the visits of the rules and
the work on files are all of this kind.
-/

namespace TreeRules

variable {S ε α β : Type} {action : ExceptT ε (StateM S) α} {next : α → ExceptT ε (StateM S) β}
  {start after : S}

/-- A sequence of actions stops at the first that fails, in the state that it left. -/
theorem run_bind (action : ExceptT ε (StateM S) α) (next : α → ExceptT ε (StateM S) β) (start : S) :
    (action >>= next).run start =
      match action.run start with
      | (.ok value, mid) => (next value).run mid
      | (.error error, mid) => (.error error, mid) := by
  change (match action start with
    | (result, mid) => ExceptT.bindCont next result mid) = _
  rcases h : action start with ⟨_ | _, mid⟩ <;> simp only [ExceptT.run, h] <;> rfl

theorem bind_ok_iff {result : β} :
    (action >>= next).run start = (.ok result, after) ↔
      ∃ value mid, action.run start = (.ok value, mid) ∧
        (next value).run mid = (.ok result, after) := by
  rw [run_bind]
  rcases haction : action.run start with ⟨_ | value, mid⟩
  · constructor
    · intro heq
      cases heq
    · rintro ⟨_, _, heq, _⟩
      cases heq
  · constructor
    · exact fun hnext => ⟨value, mid, rfl, hnext⟩
    · rintro ⟨_, _, heq, hnext⟩
      cases heq
      exact hnext

theorem bind_error_iff {error : ε} :
    (action >>= next).run start = (.error error, after) ↔
      action.run start = (.error error, after) ∨
        ∃ value mid, action.run start = (.ok value, mid) ∧
          (next value).run mid = (.error error, after) := by
  rw [run_bind]
  rcases haction : action.run start with ⟨_ | value, mid⟩
  · constructor
    · intro heq
      cases heq
      exact .inl rfl
    · rintro (heq | ⟨_, _, heq, _⟩)
      · cases heq
        rfl
      · cases heq
  · constructor
    · exact fun hnext => .inr ⟨value, mid, rfl, hnext⟩
    · rintro (heq | ⟨_, _, heq, hnext⟩)
      · cases heq
      · cases heq
        exact hnext

theorem pure_ok_iff {value result : α} :
    (pure value : ExceptT ε (StateM S) α).run start = (.ok result, after) ↔
      value = result ∧ start = after := by
  constructor
  · intro heq
    cases heq
    exact ⟨rfl, rfl⟩
  · rintro ⟨rfl, rfl⟩
    rfl

theorem pure_ne_error {value : α} {error : ε} :
    (pure value : ExceptT ε (StateM S) α).run start ≠ (.error error, after) := by
  intro heq
  cases heq

/-- Who handles a failure starts from the state that it left. -/
theorem run_tryCatch (action : ExceptT ε (StateM S) α) (handle : ε → ExceptT ε (StateM S) α)
    (start : S) :
    (tryCatch action handle).run start =
      match action.run start with
      | (.ok value, mid) => (.ok value, mid)
      | (.error error, mid) => (handle error).run mid := by
  rw [ExceptT.run_tryCatch]
  change (StateT.bind action.run _ : StateT S Id (Except ε α)) start = _
  unfold StateT.bind
  change (match action.run start with | (result, mid) => _) = _
  rcases action.run start with ⟨_ | _, mid⟩ <;> rfl

end TreeRules
