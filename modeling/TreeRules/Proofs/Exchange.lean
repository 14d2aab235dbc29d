import TreeRules.Proofs.Concurrence
import TreeRules.Proofs.Emission
import TreeRules.Proofs.PlainDispatch

/-!
# Two rounds that may change places

Two rules have a state of their own each, and want the nodes with some property, whatever that
state is. No node has both properties, and neither rule emits a node that the other one wants. Then
a round of the one and a round of the other may change places. In either order they do what one
round does in which every node is offered to the rule that may want it: what the first rule does to
the rest of the working list changes places with what the second one does to the nodes at its head.
-/

namespace TreeRules

open Dispatch DispatchM

variable {σ τ υ ε : Type}

/-- Equal trees, whatever objects hold their nodes. -/
def SameOutline (left right : Node) : Prop := left.outline = right.outline

section SameOutline

variable {lefts rights others : List Node}

theorem forall₂_sameOutline_iff :
    List.Forall₂ SameOutline lefts rights ↔ SameOutlines lefts rights := by
  rw [SameOutlines, ← List.forall₂_eq_eq_eq, List.forall₂_map_left_iff, List.forall₂_map_right_iff]
  rfl

theorem forall₂_sameOutline_refl (nodes : List Node) : List.Forall₂ SameOutline nodes nodes :=
  forall₂_sameOutline_iff.mpr rfl

theorem forall₂_sameOutline_symm (h : List.Forall₂ SameOutline lefts rights) :
    List.Forall₂ SameOutline rights lefts :=
  forall₂_sameOutline_iff.mpr (forall₂_sameOutline_iff.mp h).symm

theorem forall₂_sameOutline_trans (h : List.Forall₂ SameOutline lefts rights)
    (h' : List.Forall₂ SameOutline rights others) : List.Forall₂ SameOutline lefts others :=
  forall₂_sameOutline_iff.mpr
    ((forall₂_sameOutline_iff.mp h).trans (forall₂_sameOutline_iff.mp h'))

end SameOutline

/-- The actions give equal trees and leave interchanged runs, or neither succeeds. -/
abbrev Interchanges [Setoid σ] (names : List String) (left right : DispatchM σ ε (List Node)) :
    Prop :=
  Concurs (.keeping (Interchanged names)) (List.Forall₂ SameOutline) left right

namespace Interchanges

variable [Setoid σ] {names : List String} {left middle right : DispatchM σ ε (List Node)}

theorem symm (h : Interchanges names left right) : Interchanges names right left :=
  Concurs.symm Interchanged.equivalence h fun _ _ => forall₂_sameOutline_symm

theorem trans (h : Interchanges names left middle) (h' : Interchanges names middle right) :
    Interchanges names left right :=
  Concurs.trans Interchanged.equivalence h h' fun _ _ _ => forall₂_sameOutline_trans

end Interchanges

section FlatMap

variable {m : Type → Type} [Monad m] [LawfulMonad m] {α β : Type}

theorem flatMapM_append (f : α → m (List β)) (front back : List α) :
    (front ++ back).flatMapM f =
      (do let here ← front.flatMapM f; let others ← back.flatMapM f; return here ++ others) := by
  induction front with
  | nil => simp
  | cons item front ih =>
      rw [List.cons_append, List.flatMapM_cons, ih, List.flatMapM_cons]
      simp only [bind_assoc, pure_bind, List.append_assoc]

theorem flatMapM_singleton (f : α → m (List β)) (item : α) : [item].flatMapM f = f item := by
  simp [List.flatMapM_cons]

theorem flatMapM_pure (items : List α) :
    (items.flatMapM fun item => (pure [item] : m (List α))) = pure items := by
  induction items with
  | nil => rw [List.flatMapM_nil]
  | cons item items ih =>
      rw [List.flatMapM_cons, ih, pure_bind, pure_bind, List.singleton_append]

end FlatMap

section Offers

variable [Setoid σ] [Setoid τ] {part : Part σ τ} (hpart : part.Proper) {rule : Rule τ ε Node}
  {left right : Node}

include hpart

theorem Rule.ask_on (node : Node) : (rule.on part).ask node = part.zoomRule (rule.ask node) := by
  funext workspace
  change ((rule.on part).ask node).run workspace = _
  rcases hasked : (rule.wants node).run (part.get workspace.shared) with ⟨answer, small⟩
  have hasked' : ((rule.on part).wants node).run workspace.shared =
      (answer, part.set small workspace.shared) := by
    change (((rule.wants node).run (part.get workspace.shared)).1,
      part.set ((rule.wants node).run (part.get workspace.shared)).2 workspace.shared) = _
    rw [hasked]
  rw [Part.zoomRule]
  cases answer with
  | false => rw [run_ask_of_unwanted hasked', run_ask_of_unwanted hasked]
  | true =>
      rw [run_ask_of_wanted hasked', run_ask_of_wanted hasked]
      change ((((rule.visit node).run ⟨part.get (part.set small _), _⟩).1.map some),
        Workspace.mk (part.set _ (part.set small _)) _) = _
      rw [hpart.get_set, hpart.set_set]
      rfl

theorem Rule.run_ask_on (node : Node) (workspace : Workspace σ) :
    let asked := (rule.ask node).run ⟨part.get workspace.shared, workspace.supply⟩
    ((rule.on part).ask node).run workspace =
      (asked.1, ⟨part.set asked.2.shared workspace.shared, asked.2.supply⟩) := by
  rw [Rule.ask_on hpart]
  rfl

theorem offer_within (blind : rule.Blind (· ≈ ·)) (h : SameOutline left right) :
    Concurs (.within hpart) (List.Forall₂ SameOutline) (offer (rule.on part) left)
      (offer (rule.on part) right) := by
  intro run run' hsame
  obtain ⟨_, _, hshared, hresult⟩ := blind.ask h
    ⟨part.get run.workspace.shared, run.workspace.supply⟩
    ⟨part.get run'.workspace.shared, run'.workspace.supply⟩ hsame
  rw [run_offer, run_offer, Rule.run_ask_on hpart, Rule.run_ask_on hpart]
  generalize (rule.ask left).run ⟨part.get run.workspace.shared, run.workspace.supply⟩ = asked
    at hshared hresult ⊢
  generalize (rule.ask right).run ⟨part.get run'.workspace.shared, run'.workspace.supply⟩ = asked'
    at hshared hresult ⊢
  obtain ⟨error | replacement, after⟩ := asked <;>
    obtain ⟨error' | replacement', after'⟩ := asked'
  · exact .halt
  · cases hresult
  · cases hresult
  · cases hresult with
    | ok hreplacement =>
        obtain ⟨houtlines, hevents⟩ := offer_alike h hreplacement
        refine .ok ⟨forall₂_sameOutline_iff.mpr houtlines, ?_⟩
        change Abreast part run run' _ _
        rw [Rule.name_on, hevents]
        exact .intro after.supply after'.supply _ hshared

/-- An offer that is declined leaves no trace but that the rule was asked. -/
theorem offer_declined {names : List String} (hname : rule.name ∈ names)
    (hwants : rule.wants left = pure false) (h : SameOutline left right) :
    Interchanges names (offer (rule.on part) left) (pure [right]) := by
  intro run run' hfit
  have hasked (small : τ) : (rule.wants left).run small = (false, small) := by
    rw [hwants]
    rfl
  rw [run_offer, Rule.run_ask_on hpart, Rule.run_ask_of_unwanted (hasked _)]
  refine .ok ⟨.cons h .nil, hfit.advance ?_ (Event.reordered_offered hname)⟩
  change part.set (part.get run.workspace.shared) run.workspace.shared ≈ run'.workspace.shared
  rw [hpart.set_get]
  exact hfit.shared

end Offers

/-- A rule that wants the nodes with the property of its own, whatever its state is, emits none with
the property of the other, and does not look at identities. -/
structure Rule.Neighbourly [Setoid τ] (rule : Rule τ ε Node) (own other : Node → Bool) : Prop where
  wants : ∀ node, rule.wants node = pure (own node)
  emits : ∀ node, rule.Emits node fun emitted => other emitted = false
  blind : rule.Blind (· ≈ ·)

theorem Rule.Neighbourly.own_eq [Setoid τ] {rule : Rule τ ε Node} {own other : Node → Bool}
    (h : rule.Neighbourly own other) (state : τ) {left right : Node}
    (hsame : SameOutline left right) : own left = own right := by
  have hanswer := (h.blind.wants (Setoid.refl state) hsame).1
  rw [h.wants, h.wants] at hanswer
  exact hanswer

section Rounds

/-- Offers every node to one of two rules: to the first one if it has the property. -/
def offerEither (first second : Rule σ ε Node) (p : Node → Bool) (node : Node) :
    DispatchM σ ε (List Node) :=
  if p node then offer first node else offer second node

/-- Two rounds, one after the other. -/
def offerBoth (first second : Rule σ ε Node) (nodes : List Node) : DispatchM σ ε (List Node) := do
  let passed ← nodes.flatMapM (offer first)
  passed.flatMapM (offer second)

variable [Setoid σ] [Setoid τ] [Setoid υ] {part : Part σ τ} {other : Part σ υ}
  (hpart : part.Proper) (hother : other.Proper) {first : Rule τ ε Node} {second : Rule υ ε Node}
  {p q : Node → Bool} (hfirst : first.Neighbourly p q) (hsecond : second.Neighbourly q p)
  {names : List String}

include hpart hother hfirst hsecond

theorem offer_offer_concurs (hnames : first.name ∈ names ∧ second.name ∈ names)
    {left right : Node} (h : SameOutline left right) :
    Interchanges names
      (do let here ← offer (first.on part) left; here.flatMapM (offer (second.on other)))
      (offerEither (first.on part) (second.on other) p right) := by
  intro run run' hfit
  have hown := hfirst.own_eq (part.get run.workspace.shared) h
  refine (?_ : Concurs _ _ _ _) run run' hfit
  rw [offerEither, ← hown]
  cases hp : p left with
  | true =>
      have hreturns (run : Run σ) (nodes : List Node) (after : Run σ)
          (hrun : (offer (first.on part) left).run run = (.ok nodes, after)) :
          ∀ node ∈ nodes, q node = false := by
        obtain ⟨replacement, workspace, hask, rfl, -⟩ := offer_ok_iff.mp hrun
        have hanswers : Answers (first.on part) run.workspace ⟨left, replacement⟩ workspace := hask
        refine hanswers.forall_mem_nodes ((hfirst.emits left).on part) fun shared _ hrefused => ?_
        have hanswer : ((first.wants left).run (part.get shared)).1 = false :=
          congrArg Prod.fst hrefused
        rw [hfirst.wants, hp] at hanswer
        cases hanswer
      rw [if_pos rfl, ← bind_pure (offer (first.on part) right)]
      refine ((offer_within hpart hfirst.blind h).keeping.returns hreturns).bind
        fun here here' hhere => ?_
      have hitems := (List.forall₂_and_left _ _).mpr ⟨hhere.2, hhere.1⟩
      rw [← flatMapM_pure here']
      refine Concurs.flatMapM hitems fun node node' hnode => ?_
      exact offer_declined hother hnames.2 (by rw [hsecond.wants, hnode.1]) hnode.2
  | false =>
      have hdeclined := offer_declined hpart hnames.1 (by rw [hfirst.wants, hp]) h
      have hboth := hdeclined.bind fun here here' hhere => Concurs.flatMapM hhere
        fun _ _ hnode => (offer_within hother hsecond.blind hnode).keeping
      rw [pure_bind, flatMapM_singleton] at hboth
      rw [if_neg Bool.false_ne_true]
      exact hboth

/-- What the first rule does to the other nodes changes places with what the second one does to
those at the head. -/
theorem rounds_swap (hapart : part.Apart other) {here here' : List Node}
    (h : List.Forall₂ SameOutline here here') (rest : List Node) :
    Interchanges names
      (do
        let passed ← rest.flatMapM (offer (first.on part))
        let front ← here.flatMapM (offer (second.on other))
        let back ← passed.flatMapM (offer (second.on other))
        return front ++ back)
      (do
        let front ← here'.flatMapM (offer (second.on other))
        let passed ← rest.flatMapM (offer (first.on part))
        let back ← passed.flatMapM (offer (second.on other))
        return front ++ back) := by
  have hpassed : Concurs (.within hpart) (List.Forall₂ SameOutline)
      (rest.flatMapM (offer (first.on part))) (rest.flatMapM (offer (first.on part))) :=
    Concurs.flatMapM (forall₂_sameOutline_refl rest) fun _ _ => offer_within hpart hfirst.blind
  have hfront : Concurs (.within hother) (List.Forall₂ SameOutline)
      (here.flatMapM (offer (second.on other))) (here'.flatMapM (offer (second.on other))) :=
    Concurs.flatMapM h fun _ _ => offer_within hother hsecond.blind
  refine Concurs.swap hpart hother hapart hpassed hfront
    fun passed passed' front front' hrest hhere => ?_
  have hback : Concurs (.within hother) (List.Forall₂ SameOutline)
      (passed.flatMapM (offer (second.on other))) (passed'.flatMapM (offer (second.on other))) :=
    Concurs.flatMapM hrest fun _ _ => offer_within hother hsecond.blind
  exact hback.keeping.bind fun _ _ hrest => .pure (List.rel_append hhere hrest)

/-- **Two rounds do what one round does that chooses between the rules.** -/
theorem offerBoth_concurs (hapart : part.Apart other)
    (hnames : first.name ∈ names ∧ second.name ∈ names) {lefts rights : List Node}
    (h : List.Forall₂ SameOutline lefts rights) :
    Interchanges names
      (offerBoth (first.on part) (second.on other) lefts)
      (rights.flatMapM (offerEither (first.on part) (second.on other) p)) := by
  induction h with
  | nil =>
      rw [offerBoth, List.flatMapM_nil, pure_bind]
      exact .pure .nil
  | @cons left right lefts rights hhead htail ih =>
      have hleft : offerBoth (first.on part) (second.on other) (left :: lefts) =
          (do
            let here ← offer (first.on part) left
            let passed ← lefts.flatMapM (offer (first.on part))
            let front ← here.flatMapM (offer (second.on other))
            let back ← passed.flatMapM (offer (second.on other))
            return front ++ back : DispatchM σ ε (List Node)) := by
        simp only [offerBoth, List.flatMapM_cons, bind_assoc, pure_bind, flatMapM_append]
      have hright : (right :: rights).flatMapM (offerEither (first.on part) (second.on other) p) =
          (do
            let front ← offerEither (first.on part) (second.on other) p right
            let back ← rights.flatMapM (offerEither (first.on part) (second.on other) p)
            return front ++ back : DispatchM σ ε (List Node)) := List.flatMapM_cons
      have hswap : Interchanges names
          (offerBoth (first.on part) (second.on other) (left :: lefts))
          (do
            let here ← offer (first.on part) left
            let front ← here.flatMapM (offer (second.on other))
            let back ← offerBoth (first.on part) (second.on other) lefts
            return front ++ back : DispatchM σ ε (List Node)) := by
        rw [hleft]
        have hhead : Concurs (.within hpart) (List.Forall₂ SameOutline)
            (offer (first.on part) left) (offer (first.on part) left) :=
          offer_within hpart hfirst.blind rfl
        refine hhead.keeping.bind fun here here' hhere => ?_
        simp only [offerBoth, bind_assoc]
        exact rounds_swap hpart hother hfirst hsecond hapart hhere lefts
      refine hswap.trans ?_
      rw [hright, ← bind_assoc]
      exact (offer_offer_concurs hpart hother hfirst hsecond hnames hhead).bind
        fun _ _ hfront => ih.bind fun _ _ hback => .pure (List.rel_append hfront hback)

/-- As no node has both properties, it does not matter which rule is chosen first. -/
theorem offerEither_comm (hdisjoint : ∀ node, p node = true → q node = false)
    (hnames : first.name ∈ names ∧ second.name ∈ names) {left right : Node}
    (h : SameOutline left right) :
    Interchanges names
      (offerEither (first.on part) (second.on other) p left)
      (offerEither (second.on other) (first.on part) q right) := by
  intro run run' hfit
  have hown := hsecond.own_eq (other.get run.workspace.shared) h
  refine (?_ : Concurs _ _ _ _) run run' hfit
  rw [offerEither, offerEither, ← hown]
  cases hp : p left with
  | true =>
      rw [if_pos rfl, hdisjoint left hp, if_neg Bool.false_ne_true]
      exact (offer_within hpart hfirst.blind h).keeping
  | false =>
      rw [if_neg Bool.false_ne_true]
      cases hq : q left with
      | true =>
          rw [if_pos rfl]
          exact (offer_within hother hsecond.blind h).keeping
      | false =>
          have hright : p right = false := by
            rw [← hfirst.own_eq (part.get run.workspace.shared) h]
            exact hp
          rw [if_neg Bool.false_ne_true]
          have hleft := offer_declined hother hnames.2 (by rw [hsecond.wants, hq]) h
          have hright := offer_declined hpart hnames.1 (by rw [hfirst.wants, hright])
            (rfl : SameOutline right right)
          exact hleft.trans hright.symm

/-- **The two rounds may change places.** -/
theorem offerBoth_comm (hapart : part.Apart other)
    (hdisjoint : ∀ node, p node = true → q node = false)
    (hnames : first.name ∈ names ∧ second.name ∈ names) {lefts rights : List Node}
    (h : List.Forall₂ SameOutline lefts rights) :
    Interchanges names
      (offerBoth (first.on part) (second.on other) lefts)
      (offerBoth (second.on other) (first.on part) rights) := by
  have hleft := offerBoth_concurs hpart hother hfirst hsecond hapart hnames h
  have hmiddle := Concurs.flatMapM (forall₂_sameOutline_refl rights) fun _ _ =>
    offerEither_comm hpart hother hfirst hsecond hdisjoint hnames
  have hright := offerBoth_concurs hother hpart hsecond hfirst hapart.symm hnames.symm
    (forall₂_sameOutline_refl rights)
  exact (hleft.trans hmiddle).trans hright.symm

end Rounds

end TreeRules
