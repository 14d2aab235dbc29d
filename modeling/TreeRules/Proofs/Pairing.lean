import Mathlib.Data.List.Forall2
import Mathlib.Order.Monotone.Defs
import TreeRules.Proofs.Run

/-!
# Two runs side by side

Two actions are paired when, from related states, they end in related states, and either both give
results, which are related, or both fail in the same way. Relations may depend on a world that grows
while the actions run, such as the objects that exist so far. The actions are visits, or dispatches.
-/

namespace TreeRules

variable {S T ε α β γ δ : Type}

theorem map_eq_of_forall₂ {f : α → γ} {g : β → γ} {items : List α} {others : List β}
    (h : List.Forall₂ (fun a b => f a = g b) items others) : items.map f = others.map g := by
  rw [← List.forall₂_eq_eq_eq, List.forall₂_map_left_iff, List.forall₂_map_right_iff]
  exact h

/-- Both succeed with related results, or both fail in the same way. -/
inductive Agree (related : α → β → Prop) : Except ε α → Except ε β → Prop where
  | ok {left : α} {right : β} : related left right → Agree related (.ok left) (.ok right)
  | error (error : ε) : Agree related (.error error) (.error error)

namespace Agree

theorem imp {related weaker : α → β → Prop} {left : Except ε α} {right : Except ε β}
    (h : Agree related left right) (himp : ∀ a b, related a b → weaker a b) :
    Agree weaker left right := by
  cases h with
  | ok hrelated => exact .ok (himp _ _ hrelated)
  | error error => exact .error error

theorem of_common {related : α → γ → Prop} {related' : β → γ → Prop} {weaker : α → β → Prop}
    {left : Except ε α} {right : Except ε β} {common : Except ε γ} (h : Agree related left common)
    (h' : Agree related' right common)
    (himp : ∀ a b c, related a c → related' b c → weaker a b) : Agree weaker left right := by
  cases h with
  | ok hrelated =>
      cases h' with
      | ok hrelated' => exact .ok (himp _ _ _ hrelated hrelated')
  | error error =>
      cases h' with
      | error => exact .error error

theorem map_eq {related : α → β → Prop} {left : Except ε α} {right : Except ε β}
    (h : Agree related left right) {f : α → γ} {g : β → γ}
    (himp : ∀ a b, related a b → f a = g b) : left.map f = right.map g := by
  cases h with
  | ok hrelated => exact congrArg Except.ok (himp _ _ hrelated)
  | error error => rfl

theorem eq {left right : Except ε α} (h : Agree Eq left right) : left = right := by
  cases h with
  | ok hvalue => rw [hvalue]
  | error _ => rfl

theorem exists_of_ok {related : α → β → Prop} {value : α} {right : Except ε β}
    (h : Agree related (.ok value) right) : ∃ other, right = .ok other ∧ related value other := by
  cases h with
  | ok hrelated => exact ⟨_, rfl, hrelated⟩

end Agree

/-- A world for relations that do not depend on one. -/
inductive Still where
  | still

instance : Preorder Still where
  le _ _ := True
  le_refl _ := trivial
  le_trans _ _ _ _ _ := trivial

variable {W : Type} [Preorder W]

/-- From states that fit the world, both actions lead to states that fit a later world. -/
def Paired (Fit : W → S → T → Prop) (post : W → α → β → Prop) (world : W)
    (left : ExceptT ε (StateM S) α) (right : ExceptT ε (StateM T) β) : Prop :=
  ∀ start start', Fit world start start' → ∃ later, world ≤ later ∧
    Fit later (left.run start).2 (right.run start').2 ∧
    Agree (post later) (left.run start).1 (right.run start').1

namespace Paired

variable {Fit : W → S → T → Prop} {post : W → α → β → Prop} {world : W}

theorem pure {left : α} {right : β} (h : post world left right) :
    Paired Fit post world (pure left : ExceptT ε (StateM S) α)
      (pure right : ExceptT ε (StateM T) β) :=
  fun _ _ hfit => ⟨world, le_rfl, hfit, .ok h⟩

theorem throw (error : ε) :
    Paired Fit post world (throw error : ExceptT ε (StateM S) α)
      (throw error : ExceptT ε (StateM T) β) :=
  fun _ _ hfit => ⟨world, le_rfl, hfit, .error error⟩

theorem bind {left : ExceptT ε (StateM S) α} {right : ExceptT ε (StateM T) β}
    {next : α → ExceptT ε (StateM S) γ} {next' : β → ExceptT ε (StateM T) δ}
    {last : W → γ → δ → Prop} (h : Paired Fit post world left right)
    (hnext : ∀ later, world ≤ later → ∀ a b, post later a b →
      Paired Fit last later (next a) (next' b)) :
    Paired Fit last world (left >>= next) (right >>= next') := by
  intro start start' hfit
  obtain ⟨mid, hmid, hfitMid, hagree⟩ := h start start' hfit
  rw [run_bind, run_bind]
  rcases hleft : left.run start with ⟨_ | a, after⟩ <;>
    rcases hright : right.run start' with ⟨_ | b, after'⟩ <;>
    rw [hleft, hright] at hagree hfitMid
  · cases hagree with
    | error => exact ⟨mid, hmid, hfitMid, .error _⟩
  · cases hagree
  · cases hagree
  · cases hagree with
    | ok hpost =>
        obtain ⟨later, hlater, hfitLater, hagree⟩ := hnext mid hmid a b hpost after after' hfitMid
        exact ⟨later, le_trans hmid hlater, hfitLater, hagree⟩

theorem imp {post' : W → α → β → Prop} {left : ExceptT ε (StateM S) α}
    {right : ExceptT ε (StateM T) β} (h : Paired Fit post world left right)
    (himp : ∀ later, world ≤ later → ∀ a b, post later a b → post' later a b) :
    Paired Fit post' world left right := by
  intro start start' hfit
  obtain ⟨later, hlater, hfitLater, hagree⟩ := h start start' hfit
  exact ⟨later, hlater, hfitLater, hagree.imp (himp later hlater)⟩

theorem foldlM {ι : Type} {step : α → ι → ExceptT ε (StateM S) α}
    {step' : β → ι → ExceptT ε (StateM T) β} {items : List ι}
    (hstep : ∀ item ∈ items, ∀ later, world ≤ later → ∀ a b, post later a b →
      Paired Fit post later (step a item) (step' b item)) {a : α} {b : β} (h : post world a b) :
    Paired Fit post world (items.foldlM step a) (items.foldlM step' b) := by
  induction items generalizing world a b with
  | nil => exact .pure h
  | cons item items ih =>
      rw [List.foldlM_cons, List.foldlM_cons]
      refine (hstep item List.mem_cons_self world le_rfl a b h).bind fun mid hmid a b h => ?_
      exact ih (fun item hitem later hlater =>
        hstep item (List.mem_cons_of_mem _ hitem) later (le_trans hmid hlater)) h

variable {before : W → α → β → Prop} {after : W → γ → δ → Prop} (hbefore : Monotone before)
  (hafter : Monotone after)

include hbefore hafter

theorem mapM {f : α → ExceptT ε (StateM S) γ} {g : β → ExceptT ε (StateM T) δ}
    (hstep : ∀ later, world ≤ later → ∀ a b, before later a b → Paired Fit after later (f a) (g b))
    {as : List α} {bs : List β} (h : List.Forall₂ (before world) as bs) :
    Paired Fit (fun later => List.Forall₂ (after later)) world (as.mapM f) (bs.mapM g) := by
  induction as generalizing bs world with
  | nil =>
      cases h
      exact .pure .nil
  | cons a as ih =>
      obtain ⟨b, bs, hhead, htail, rfl⟩ := List.forall₂_cons_left_iff.mp h
      rw [List.mapM_cons, List.mapM_cons]
      refine (hstep world le_rfl a b hhead).bind fun mid hmid c d hresult => ?_
      refine (ih (fun later hlater => hstep later (le_trans hmid hlater))
        (htail.imp (hbefore hmid))).bind fun later hlater cs ds hresults => ?_
      exact .pure (.cons (hafter hlater _ _ hresult) hresults)

theorem flatMapM {f : α → ExceptT ε (StateM S) (List γ)}
    {g : β → ExceptT ε (StateM T) (List δ)}
    (hstep : ∀ later, world ≤ later → ∀ a b, before later a b →
      Paired Fit (fun later => List.Forall₂ (after later)) later (f a) (g b))
    {as : List α} {bs : List β} (h : List.Forall₂ (before world) as bs) :
    Paired Fit (fun later => List.Forall₂ (after later)) world (as.flatMapM f) (bs.flatMapM g) := by
  induction as generalizing bs world with
  | nil =>
      cases h
      exact .pure .nil
  | cons a as ih =>
      obtain ⟨b, bs, hhead, htail, rfl⟩ := List.forall₂_cons_left_iff.mp h
      rw [List.flatMapM_cons, List.flatMapM_cons]
      refine (hstep world le_rfl a b hhead).bind fun mid hmid cs ds hresult => ?_
      refine (ih (fun later hlater => hstep later (le_trans hmid hlater))
        (htail.imp (hbefore hmid))).bind fun later hlater others others' hothers => ?_
      exact .pure (List.rel_append (hresult.imp (hafter hlater)) hothers)

end Paired

end TreeRules
