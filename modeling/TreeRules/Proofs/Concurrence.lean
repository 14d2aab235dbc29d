import TreeRules.Proofs.Bookkeeping
import TreeRules.Proofs.Conduct

/-!
# Runs that succeed together

Two actions concur when, from runs that fit, either both succeed, with related results and in runs
that fit again, or neither succeeds. An action is confined to a part of the state when it depends on
nothing else of the state and leaves the rest alone. Two actions that are confined to parts apart
may change places: what they record is the same up to its order.
-/

namespace TreeRules

open Dispatch DispatchM

variable {σ τ υ ε α β γ δ : Type}

section Recording

namespace Dispatch.Event

/-- Whether the event is anything but an offer to one of the rules. -/
def matters (names : List String) : Event → Bool
  | offered rule => rule ∉ names
  | _ => true

/-- The same events in another order, apart from offers to the rules. -/
def Reordered (names : List String) (events events' : List Event) : Prop :=
  (events.filter (matters names)).Perm (events'.filter (matters names))

variable {names : List String} {events events' : List Event}

theorem Reordered.of_perm (h : events.Perm events') : Reordered names events events' := h.filter _

theorem reordered_offered {rule : String} (h : rule ∈ names) :
    Reordered names [.offered rule] [] := by
  have hmatters : matters names (.offered rule) = false := decide_eq_false (not_not_intro h)
  rw [Reordered, List.filter_cons_of_neg (by rw [hmatters]; exact Bool.false_ne_true)]

theorem Reordered.sum_map_eq (h : Reordered names events events') {part : Event → Nat}
    (hpart : ∀ rule ∈ names, part (.offered rule) = 0) :
    (events.map part).sum = (events'.map part).sum := by
  have hfilter (list : List Event) :
      (list.map part).sum = ((list.filter (matters names)).map part).sum := by
    induction list with
    | nil => rfl
    | cons event list ih =>
        cases hmatters : matters names event with
        | true =>
            rw [List.filter_cons_of_pos hmatters, List.map_cons, List.map_cons, List.sum_cons,
              List.sum_cons, ih]
        | false =>
            have hzero : part event = 0 := by
              cases event with
              | offered rule => exact hpart rule (not_not.mp (of_decide_eq_false hmatters))
              | _ => cases hmatters
            rw [List.filter_cons_of_neg (by rw [hmatters]; exact Bool.false_ne_true),
              List.map_cons, List.sum_cons, hzero, Nat.zero_add, ih]
  rw [hfilter events, hfilter events', (h.map part).sum_eq]

end Dispatch.Event

/-- Two records that differ in nothing but how often the rules were asked. -/
structure Statistics.Interchanged (names : List String) (left right : Statistics) : Prop where
  dispatched_eq : left.dispatched = right.dispatched
  deleted_eq : left.deleted = right.deleted
  inserted_eq : left.inserted = right.inserted
  matched_eq : ∀ name, (left.counts name).matched = (right.counts name).matched
  emitted_eq : ∀ name, (left.counts name).emitted = (right.counts name).emitted
  offered_eq : ∀ name ∉ names, (left.counts name).offered = (right.counts name).offered

namespace Statistics.Interchanged

variable {names : List String} {left right third : Statistics}

theorem refl (statistics : Statistics) : statistics.Interchanged names statistics :=
  ⟨rfl, rfl, rfl, fun _ => rfl, fun _ => rfl, fun _ _ => rfl⟩

theorem symm (h : left.Interchanged names right) : right.Interchanged names left where
  dispatched_eq := h.dispatched_eq.symm
  deleted_eq := h.deleted_eq.symm
  inserted_eq := h.inserted_eq.symm
  matched_eq name := (h.matched_eq name).symm
  emitted_eq name := (h.emitted_eq name).symm
  offered_eq name hname := (h.offered_eq name hname).symm

theorem trans (h : left.Interchanged names right) (h' : right.Interchanged names third) :
    left.Interchanged names third where
  dispatched_eq := h.dispatched_eq.trans h'.dispatched_eq
  deleted_eq := h.deleted_eq.trans h'.deleted_eq
  inserted_eq := h.inserted_eq.trans h'.inserted_eq
  matched_eq name := (h.matched_eq name).trans (h'.matched_eq name)
  emitted_eq name := (h.emitted_eq name).trans (h'.emitted_eq name)
  offered_eq name hname := (h.offered_eq name hname).trans (h'.offered_eq name hname)

theorem foldl_record (h : left.Interchanged names right) {events events' : List Event}
    (hevents : Event.Reordered names events events') :
    (events.foldl Event.record left).Interchanged names (events'.foldl Event.record right) := by
  have hleft := tallied_foldl left events
  have hright := tallied_foldl right events'
  exact
    { dispatched_eq := by
        rw [hleft.dispatched, hright.dispatched, h.dispatched_eq, hevents.sum_map_eq fun _ _ => rfl]
      deleted_eq := by
        rw [hleft.deleted, hright.deleted, h.deleted_eq, hevents.sum_map_eq fun _ _ => rfl]
      inserted_eq := by
        rw [hleft.inserted, hright.inserted, h.inserted_eq, hevents.sum_map_eq fun _ _ => rfl]
      matched_eq := fun name => by
        rw [hleft.matched, hright.matched, h.matched_eq, hevents.sum_map_eq fun _ _ => rfl]
      emitted_eq := fun name => by
        rw [hleft.emitted, hright.emitted, h.emitted_eq, hevents.sum_map_eq fun _ _ => rfl]
      offered_eq := fun name hname => by
        have hzero : ∀ rule ∈ names, Event.offers name (.offered rule) = 0 := fun rule hrule =>
          if_neg (ne_of_mem_of_not_mem hrule hname).symm
        rw [hleft.offered, hright.offered, h.offered_eq name hname, hevents.sum_map_eq hzero] }

end Statistics.Interchanged

/-- Two runs in the same state, with records that differ in nothing but how often the rules were
asked. -/
structure Interchanged [Setoid σ] (names : List String) (run run' : Run σ) : Prop where
  shared : run.workspace.shared ≈ run'.workspace.shared
  statistics : run.statistics.Interchanged names run'.statistics

namespace Interchanged

variable [Setoid σ] {names : List String}

theorem equivalence : Equivalence (Interchanged names : Run σ → Run σ → Prop) where
  refl _ := ⟨Setoid.refl _, .refl _⟩
  symm h := ⟨Setoid.symm h.shared, h.statistics.symm⟩
  trans h h' := ⟨Setoid.trans h.shared h'.shared, h.statistics.trans h'.statistics⟩

theorem advance {run run' : Run σ} (h : Interchanged names run run')
    {workspace workspace' : Workspace σ} (hshared : workspace.shared ≈ workspace'.shared)
    {events events' : List Event} (hevents : Event.Reordered names events events') :
    Interchanged names (run.advance workspace events) (run'.advance workspace' events') :=
  ⟨hshared, h.statistics.foldl_record hevents⟩

end Interchanged

end Recording

/-- Both succeed, in a way that is related, or neither does. -/
inductive Concur {S T : Type} (related : α → S → β → T → Prop) :
    Except ε α × S → Except ε β × T → Prop where
  | ok {left : α} {right : β} {after : S} {after' : T} : related left after right after' →
      Concur related (.ok left, after) (.ok right, after')
  | halt {error error' : ε} {after : S} {after' : T} :
      Concur related (.error error, after) (.error error', after')

namespace Concur

theorem of_agree {S T : Type} {post : α → β → Prop} {related : α → S → β → T → Prop}
    {here : Except ε α × S} {there : Except ε β × T} (h : Agree post here.1 there.1)
    (himp : ∀ left right, post left right → related left here.2 right there.2) :
    Concur related here there := by
  obtain ⟨result, after⟩ := here
  obtain ⟨result', after'⟩ := there
  cases h with
  | ok hpost => exact .ok (himp _ _ hpost)
  | error error => exact .halt

variable {S T : Type} {related : α → S → β → T → Prop} {left : α} {right : β} {after : S}
  {after' : T}

theorem of_ok_left {there : Except ε β × T} (h : Concur related (.ok left, after) there) :
    ∃ right after', there = (.ok right, after') ∧ related left after right after' := by
  cases h with
  | ok hrelated => exact ⟨_, _, rfl, hrelated⟩

theorem of_ok_right {here : Except ε α × S} (h : Concur related here (.ok right, after')) :
    ∃ left after, here = (.ok left, after) ∧ related left after right after' := by
  cases h with
  | ok hrelated => exact ⟨_, _, rfl, hrelated⟩

theorem of_error_left {error : ε} {there : Except ε β × T}
    (h : Concur related (.error error, after) there) :
    ∃ error' after', there = (.error error', after') := by
  cases h with
  | halt => exact ⟨_, _, rfl⟩

theorem of_error_right {error : ε} {here : Except ε α × S}
    (h : Concur related here (.error error, after')) :
    ∃ error' after, here = (.error error', after) := by
  cases h with
  | halt => exact ⟨_, _, rfl⟩

theorem imp {weaker : α → S → β → T → Prop} {here : Except ε α × S} {there : Except ε β × T}
    (h : Concur related here there) (himp : ∀ left after right after',
      related left after right after' → weaker left after right after') :
    Concur weaker here there := by
  cases h with
  | ok hrelated => exact .ok (himp _ _ _ _ hrelated)
  | halt => exact .halt

theorem symm {weaker : β → T → α → S → Prop} {here : Except ε α × S} {there : Except ε β × T}
    (h : Concur related here there) (himp : ∀ left after right after',
      related left after right after' → weaker right after' left after) :
    Concur weaker there here := by
  cases h with
  | ok hrelated => exact .ok (himp _ _ _ _ hrelated)
  | halt => exact .halt

theorem trans {U : Type} {related' : β → T → γ → U → Prop} {weaker : α → S → γ → U → Prop}
    {here : Except ε α × S} {middle : Except ε β × T} {there : Except ε γ × U}
    (h : Concur related here middle) (h' : Concur related' middle there)
    (himp : ∀ left after value mid right after', related left after value mid →
      related' value mid right after' → weaker left after right after') :
    Concur weaker here there := by
  cases h with
  | ok hrelated =>
      cases h' with
      | ok hrelated' => exact .ok (himp _ _ _ _ _ _ hrelated hrelated')
  | halt =>
      cases h' with
      | halt => exact .halt

end Concur

/-- How two runs may go on side by side, from where they fit. -/
structure Passage (σ : Type) where
  fit : Run σ → Run σ → Prop
  leads : Run σ → Run σ → Run σ → Run σ → Prop
  refl : ∀ {run run'}, fit run run' → leads run run' run run'
  trans : ∀ {run run' mid mid' after after'}, leads run run' mid mid' →
    leads mid mid' after after' → leads run run' after after'
  fit_of_leads : ∀ {run run' after after'}, fit run run' → leads run run' after after' →
    fit after after'

/-- Wherever two runs that fit go, they have to fit again. -/
def Passage.keeping (Fit : Run σ → Run σ → Prop) : Passage σ where
  fit := Fit
  leads _ _ after after' := Fit after after'
  refl h := h
  trans _ h := h
  fit_of_leads _ h := h

/-- From runs that fit both actions succeed, with related results and as the passage allows, or
neither does. -/
def Concurs (passage : Passage σ) (post : α → β → Prop) (left : DispatchM σ ε α)
    (right : DispatchM σ ε β) : Prop :=
  ∀ run run', passage.fit run run' → Concur (fun value after value' after' =>
    post value value' ∧ passage.leads run run' after after') (left.run run) (right.run run')

namespace Concurs

variable {passage : Passage σ} {post : α → β → Prop}

theorem pure {left : α} {right : β} (h : post left right) :
    Concurs passage post (pure left : DispatchM σ ε α) (pure right) :=
  fun _ _ hfit => .ok ⟨h, passage.refl hfit⟩

theorem bind {last : γ → δ → Prop} {left : DispatchM σ ε α} {right : DispatchM σ ε β}
    {next : α → DispatchM σ ε γ} {next' : β → DispatchM σ ε δ} (h : Concurs passage post left right)
    (hnext : ∀ value value', post value value' → Concurs passage last (next value) (next' value')) :
    Concurs passage last (left >>= next) (right >>= next') := by
  intro run run' hfit
  have hconcur := h run run' hfit
  rw [run_bind, run_bind]
  generalize left.run run = here at hconcur ⊢
  generalize right.run run' = there at hconcur ⊢
  cases hconcur with
  | halt => exact .halt
  | ok hrelated =>
      obtain ⟨hpost, hleads⟩ := hrelated
      have hrest := hnext _ _ hpost _ _ (passage.fit_of_leads hfit hleads)
      exact hrest.imp fun _ _ _ _ h => ⟨h.1, passage.trans hleads h.2⟩

/-- What the first action returns whenever it succeeds may be relied on. -/
theorem returns {returned : α → Prop} {left : DispatchM σ ε α} {right : DispatchM σ ε β}
    (h : Concurs passage post left right)
    (hreturns : ∀ run value after, left.run run = (.ok value, after) → returned value) :
    Concurs passage (fun value value' => post value value' ∧ returned value) left right := by
  intro run run' hfit
  have hconcur := h run run' hfit
  have hvalue := hreturns run
  generalize left.run run = here at hconcur hvalue ⊢
  generalize right.run run' = there at hconcur ⊢
  cases hconcur with
  | ok hrelated => exact .ok ⟨⟨hrelated.1, hvalue _ _ rfl⟩, hrelated.2⟩
  | halt => exact .halt

section Lists

variable {before : α → β → Prop} {after : γ → δ → Prop} {as : List α} {bs : List β}
  (hitems : List.Forall₂ before as bs)

include hitems

theorem mapM {f : α → DispatchM σ ε γ} {g : β → DispatchM σ ε δ}
    (h : ∀ a b, before a b → Concurs passage after (f a) (g b)) :
    Concurs passage (List.Forall₂ after) (as.mapM f) (bs.mapM g) := by
  induction hitems with
  | nil => exact pure .nil
  | cons hhead _ ih =>
      rw [List.mapM_cons, List.mapM_cons]
      refine (h _ _ hhead).bind fun _ _ hhere => ih.bind fun _ _ hothers => pure ?_
      exact .cons hhere hothers

theorem flatMapM {f : α → DispatchM σ ε (List γ)} {g : β → DispatchM σ ε (List δ)}
    (h : ∀ a b, before a b → Concurs passage (List.Forall₂ after) (f a) (g b)) :
    Concurs passage (List.Forall₂ after) (as.flatMapM f) (bs.flatMapM g) := by
  induction hitems with
  | nil => exact pure .nil
  | cons hhead _ ih =>
      rw [List.flatMapM_cons, List.flatMapM_cons]
      refine (h _ _ hhead).bind fun _ _ hhere => ih.bind fun _ _ hothers => pure ?_
      exact List.rel_append hhere hothers

end Lists

section Equivalence

variable {Fit : Run σ → Run σ → Prop} (hfit : Equivalence Fit)

include hfit

theorem symm {left : DispatchM σ ε α} {right : DispatchM σ ε β} {weaker : β → α → Prop}
    (h : Concurs (.keeping Fit) post left right) (himp : ∀ a b, post a b → weaker b a) :
    Concurs (.keeping Fit) weaker right left := by
  intro run run' hrun
  refine (h run' run (hfit.symm hrun)).symm fun _ _ _ _ hrelated => ?_
  exact ⟨himp _ _ hrelated.1, hfit.symm hrelated.2⟩

theorem trans {other : β → γ → Prop} {weaker : α → γ → Prop} {left : DispatchM σ ε α}
    {middle : DispatchM σ ε β} {right : DispatchM σ ε γ}
    (h : Concurs (.keeping Fit) post left middle) (h' : Concurs (.keeping Fit) other middle right)
    (himp : ∀ a b c, post a b → other b c → weaker a c) :
    Concurs (.keeping Fit) weaker left right := by
  intro run run' hrun
  refine (h run run' hrun).trans (h' run' run' (hfit.refl run'))
    fun _ _ _ _ _ _ hrelated hrelated' => ?_
  exact ⟨himp _ _ _ hrelated.1 hrelated'.1, hfit.trans hrelated.2 hrelated'.2⟩

end Equivalence

end Concurs

/-- A part that is read and written on its own, and is the same in states that are the same. -/
structure Part.Proper [Setoid σ] [Setoid τ] (part : Part σ τ) : Prop where
  get_set : ∀ small whole, part.get (part.set small whole) = small
  set_get : ∀ whole, part.set (part.get whole) whole = whole
  set_set : ∀ small small' whole, part.set small (part.set small' whole) = part.set small whole
  get_same : ∀ {whole whole'}, whole ≈ whole' → part.get whole ≈ part.get whole'
  set_same : ∀ {small small' whole whole'}, small ≈ small' → whole ≈ whole' →
    part.set small whole ≈ part.set small' whole'

/-- Two parts neither of which holds anything of the other. -/
structure Part.Apart (part : Part σ τ) (other : Part σ υ) : Prop where
  get_set : ∀ small whole, part.get (other.set small whole) = part.get whole
  get_set_other : ∀ small whole, other.get (part.set small whole) = other.get whole
  set_comm : ∀ small small' whole,
    part.set small (other.set small' whole) = other.set small' (part.set small whole)

theorem Part.Apart.symm {part : Part σ τ} {other : Part σ υ} (h : part.Apart other) :
    other.Apart part :=
  ⟨h.get_set_other, h.get_set, fun small small' whole => (h.set_comm small' small whole).symm⟩

/-- Two runs went on by the same events and wrote the same into the part. -/
inductive Abreast [Setoid τ] (part : Part σ τ) (run run' : Run σ) : Run σ → Run σ → Prop where
  | intro {small small' : τ} (supply supply' : Supply) (events : List Event) : small ≈ small' →
      Abreast part run run'
        (run.advance ⟨part.set small run.workspace.shared, supply⟩ events)
        (run'.advance ⟨part.set small' run'.workspace.shared, supply'⟩ events)

section Parts

variable [Setoid σ] [Setoid τ] [Setoid υ] {part : Part σ τ} (hpart : part.Proper)

/-- Two runs that agree on the part go on alike in it, and leave the rest of the state alone. -/
def Passage.within : Passage σ where
  fit run run' := part.get run.workspace.shared ≈ part.get run'.workspace.shared
  leads := Abreast part
  refl {run run'} hsame := by
    have habreast : Abreast part run run' _ _ :=
      .intro run.workspace.supply run'.workspace.supply [] hsame
    rw [hpart.set_get, hpart.set_get] at habreast
    exact habreast
  trans := by
    rintro run run' _ _ _ _ ⟨supply, supply', events, hsmall⟩ ⟨supply₂, supply₂', events₂, hsmall₂⟩
    have habreast : Abreast part run run' _ _ := .intro supply₂ supply₂' (events ++ events₂) hsmall₂
    rw [Run.advance_advance, Run.advance_advance, Run.workspace_advance, Run.workspace_advance,
      hpart.set_set, hpart.set_set]
    exact habreast
  fit_of_leads := by
    rintro run run' _ _ - ⟨supply, supply', events, hsmall⟩
    rw [Run.workspace_advance, Run.workspace_advance, hpart.get_set, hpart.get_set]
    exact hsmall

/-- Actions that are confined to a part keep all that interchanged runs have in common. -/
theorem Concurs.keeping {names : List String} {post : α → β → Prop} {left : DispatchM σ ε α}
    {right : DispatchM σ ε β} (h : Concurs (.within hpart) post left right) :
    Concurs (.keeping (Interchanged names)) post left right := by
  intro run run' hfit
  refine (h run run' (hpart.get_same hfit.shared)).imp fun _ _ _ _ hrelated => ⟨hrelated.1, ?_⟩
  obtain ⟨-, supply, supply', events, hsmall⟩ := hrelated
  exact hfit.advance (hpart.set_same hsmall hfit.shared) (.of_perm (.refl _))

variable {other : Part σ υ} (hother : other.Proper) (hapart : part.Apart other)

include hapart

omit [Setoid σ] [Setoid υ] in
theorem Abreast.get_other {run run' after after' : Run σ} (h : Abreast part run run' after after') :
    other.get after.workspace.shared = other.get run.workspace.shared ∧
      other.get after'.workspace.shared = other.get run'.workspace.shared := by
  obtain ⟨supply, supply', events, -⟩ := h
  exact ⟨hapart.get_set_other _ _, hapart.get_set_other _ _⟩

/-- **Confined actions change places.** -/
theorem Concurs.swap {names : List String} {α' β' : Type} {post : α → α' → Prop}
    {post' : β → β' → Prop} {last : γ → δ → Prop} {first : DispatchM σ ε α}
    {first' : DispatchM σ ε α'}
    {second : DispatchM σ ε β} {second' : DispatchM σ ε β'} {next : α → β → DispatchM σ ε γ}
    {next' : α' → β' → DispatchM σ ε δ} (hfirst : Concurs (.within hpart) post first first')
    (hsecond : Concurs (.within hother) post' second second')
    (hnext : ∀ a a' b b', post a a' → post' b b' →
      Concurs (.keeping (Interchanged names)) last (next a b) (next' a' b')) :
    Concurs (.keeping (Interchanged names)) last
      (do let a ← first; let b ← second; next a b)
      (do let b ← second'; let a ← first'; next' a b) := by
  intro run run' hfit
  have hsame := hpart.get_same hfit.shared
  have hsame' := hother.get_same hfit.shared
  -- The second action finds its part as it would before the first one.
  have hlater {a : α} {mid : Run σ} (hleft : first.run run = (.ok a, mid)) :
      Concur (fun b after b' after' => post' b b' ∧ Abreast other mid run' after after')
        (second.run mid) (second'.run run') := by
    have hpair := hfirst run run' hsame
    rw [hleft] at hpair
    obtain ⟨_, _, -, -, habreast⟩ := hpair.of_ok_left
    refine hsecond mid run' (?_ : other.get _ ≈ other.get _)
    rw [(habreast.get_other hapart).1]
    exact hsame'
  rw [run_bind, run_bind]
  rcases hright : second'.run run' with ⟨error' | b', mid'⟩
  · rcases hleft : first.run run with ⟨error | a, mid⟩
    · exact .halt
    · have hpair := hlater hleft
      rw [hright] at hpair
      obtain ⟨_, _, hhalt⟩ := hpair.of_error_right
      change Concur _ ((second >>= next a).run mid) _
      rw [run_bind, hhalt]
      exact .halt
  · have hpair := hsecond run run' hsame'
    rw [hright] at hpair
    obtain ⟨_, _, -, -, habreast⟩ := hpair.of_ok_right
    -- So does the first action behind the second one.
    have hpair : Concur (fun a after a' after' => post a a' ∧ Abreast part run mid' after after')
        (first.run run) (first'.run mid') := by
      refine hfirst run mid' (?_ : part.get _ ≈ part.get _)
      rw [(habreast.get_other hapart.symm).2]
      exact hsame
    rcases hleft : first.run run with ⟨error | a, mid⟩ <;> rw [hleft] at hpair
    · obtain ⟨_, _, hhalt⟩ := hpair.of_error_left
      change Concur _ _ ((first' >>= fun a' => next' a' b').run mid')
      rw [run_bind, hhalt]
      exact .halt
    · obtain ⟨a', last', hrun', hpost, habreast⟩ := hpair.of_ok_left
      have hpair := hlater hleft
      rw [hright] at hpair
      obtain ⟨b, last, hrun, hpost', habreast'⟩ := hpair.of_ok_right
      change Concur _ ((second >>= next a).run mid) ((first' >>= fun a' => next' a' b').run mid')
      rw [run_bind, run_bind, hrun, hrun']
      refine hnext a a' b b' hpost hpost' last last' (?_ : Interchanged names last last')
      obtain ⟨_, _, events, hsmall⟩ := habreast
      obtain ⟨_, _, events', hsmall'⟩ := habreast'
      rw [Run.advance_advance, Run.advance_advance]
      refine hfit.advance ?_ (.of_perm List.perm_append_comm)
      change other.set _ (part.set _ _) ≈ part.set _ (other.set _ _)
      rw [hapart.set_comm]
      exact hother.set_same hsmall' (hpart.set_same hsmall hfit.shared)

end Parts

end TreeRules
