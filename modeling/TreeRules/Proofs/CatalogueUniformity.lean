import TreeRules.Proofs.Building
import TreeRules.Proofs.CatalogueConduct
import TreeRules.Proofs.Uniformity

/-!
# The rules of the catalogue are uniform

Building a tree uses the supply for names only, and no rule of the catalogue compares objects or
looks at the one that the context holds.
-/

namespace TreeRules

open Dispatch

variable {σ ε α β γ δ ζ : Type}

/-- Making something on either side takes the supplies of the matching to those of a later one. -/
def Matching.Makes (m : Matching) (make : StateM Supply β) (make' : StateM Supply γ)
    (post : Matching → β → γ → Prop) : Prop :=
  ∃ later, m ≤ later ∧ (make.run m.left).2 = later.left ∧ (make'.run m.right).2 = later.right ∧
    post later (make.run m.left).1 (make'.run m.right).1

namespace RuleM

variable {same : Matching → σ → σ → Prop} {m : Matching}

theorem shared_uniform : Paired (Workspace.Alike same) same m (shared : RuleM σ ε σ) shared :=
  fun _ _ halike => ⟨m, le_rfl, halike, .ok halike.same⟩

theorem update_uniform {change : σ → σ}
    (h : ∀ m state state', same m state state' → same m (change state) (change state')) :
    Paired (Workspace.Alike same) (fun _ _ _ => True) m (update change : RuleM σ ε Unit)
      (update change) :=
  fun _ _ halike => ⟨m, le_rfl, ⟨halike.left, halike.right, h _ _ _ halike.same⟩, .ok trivial⟩

end RuleM

namespace Matching

variable {m : Matching} {post : Matching → β → γ → Prop}

namespace Makes

theorem pure {value : β} {value' : γ} (h : post m value value') :
    m.Makes (pure value) (pure value') post :=
  ⟨m, le_rfl, rfl, rfl, h⟩

theorem bind {make : StateM Supply β} {make' : StateM Supply γ} {next : β → StateM Supply δ}
    {next' : γ → StateM Supply ζ} {last : Matching → δ → ζ → Prop} (h : m.Makes make make' post)
    (hnext : ∀ later, m ≤ later → ∀ value value', post later value value' →
      later.Makes (next value) (next' value') last) :
    m.Makes (make >>= next) (make' >>= next') last := by
  obtain ⟨mid, hmid, hleft, hright, hpost⟩ := h
  obtain ⟨later, hlater, hleft', hright', hlast⟩ := hnext mid hmid _ _ hpost
  rw [← hleft] at hleft' hlast
  rw [← hright] at hright' hlast
  exact ⟨later, hmid.trans hlater, hleft', hright', hlast⟩

theorem create {same : Matching → σ → σ → Prop} (hmono : Monotone same) {make : StateM Supply β}
    {make' : StateM Supply γ} (h : m.Makes make make' post) :
    Paired (Workspace.Alike same) post m (RuleM.create make : RuleM σ ε β)
      (RuleM.create make' : RuleM σ ε γ) := by
  rintro ⟨shared, supply⟩ ⟨shared', supply'⟩ ⟨hleft, hright, hsame⟩
  obtain rfl : supply = m.left := hleft
  obtain rfl : supply' = m.right := hright
  obtain ⟨later, hlater, hsupply, hsupply', hpost⟩ := h
  exact ⟨later, hlater, ⟨hsupply, hsupply', hmono hlater _ _ hsame⟩, .ok hpost⟩

end Makes

theorem makes_create (label : α) {children children' : List (Tree α)}
    (hchildren : AllMatched m children children') :
    m.Makes (Tree.create label children) (Tree.create label children')
      fun later => Tree.Matched later.pairs :=
  ⟨m.add, m.le_add, rfl, rfl,
    .node label (.inr ⟨rfl, rfl⟩) (AllMatched.mono m.le_add _ _ hchildren)⟩

theorem makes_wrap (label : α) (count : Nat) {tree tree' : Tree α}
    (h : Tree.Matched m.pairs tree tree') :
    m.Makes (Blueprint.wrap label count tree) (Blueprint.wrap label count tree')
      fun later => Tree.Matched later.pairs := by
  induction count generalizing m tree tree' with
  | zero => exact .pure h
  | succ count ih =>
      refine (makes_create label (.cons h .nil)).bind fun _ _ _ _ hwrapped => ?_
      exact ih hwrapped

mutual

/-- **What is built twice from one blueprint is matched.** -/
theorem makes_build (m : Matching) : (blueprint : Blueprint α) →
    m.Makes blueprint.build blueprint.build fun later => Tree.Matched later.pairs
  | .node label children => by
      refine (makes_buildEach m children).bind fun _ _ _ _ htrees => ?_
      exact makes_create label htrees
  | .chain label count inner => by
      refine (makes_build m inner).bind fun _ _ _ _ htree => ?_
      exact makes_wrap label count htree
  | .shared label count child => by
      refine (makes_build m child).bind fun later _ tree tree' htree => ?_
      have hchildren : AllMatched later (List.replicate count tree) (List.replicate count tree') := by
        induction count with
        | zero => exact .nil
        | succ count ih => exact .cons htree ih
      exact makes_create label hchildren
  | .relabel change tree => by
      refine (makes_build m tree).bind fun _ _ tree tree' htree => ?_
      rw [Tree.relabel, Tree.relabel, htree.label_eq]
      exact makes_create _ htree.children
  | .withChildren tree children => by
      refine (makes_build m tree).bind fun later _ tree tree' htree => ?_
      refine (makes_buildEach later children).bind fun _ _ _ _ htrees => ?_
      rw [htree.label_eq]
      exact makes_create _ htrees

theorem makes_buildEach (m : Matching) : (blueprints : List (Blueprint α)) →
    m.Makes (Blueprint.buildEach blueprints) (Blueprint.buildEach blueprints) AllMatched
  | [] => .pure .nil
  | blueprint :: rest => by
      refine (makes_build m blueprint).bind fun later _ _ _ htree => ?_
      refine (makes_buildEach later rest).bind fun _ hlast _ _ htrees => .pure ?_
      exact .cons (htree.mono hlast.keeps) htrees

end

end Matching

namespace Catalogue

/-- Contexts that are equal but for the names of objects. -/
structure Context.Matched (m : Matching) (context context' : Context) : Prop where
  compilation_eq : context.compilation = context'.compilation
  message_eq : context.message = context'.message
  fileName_eq : context.fileName = context'.fileName
  root : Option.Rel (Tree.Matched m.pairs) context.root context'.root
  unitsSeen_eq : context.unitsSeen = context'.unitsSeen
  offered_eq : context.offered = context'.offered

namespace Context.Matched

variable {m : Matching}

theorem mono : Monotone Context.Matched := by
  intro m later hle context context' h
  refine { h with root := ?_ }
  have hroot := h.root
  generalize context.root = root at hroot ⊢
  generalize context'.root = root' at hroot ⊢
  cases hroot with
  | some hmatched => exact .some (hmatched.mono hle.keeps)
  | none => exact .none

theorem blurs (m : Matching) : Context.Blurs (Context.Matched m) where
  akin h := ⟨h.message_eq, h.fileName_eq⟩
  count h := { h with offered_eq := congrArg (· + 1) h.offered_eq }

end Context.Matched

namespace Entry

section Uniform

variable {same : Matching → Context → Context → Prop} (hmono : Monotone same)
  (hblurs : ∀ m, Context.Blurs (same m)) {m : Matching} {node node' : Node}
  (hnode : Tree.Matched m.pairs node node')

theorem sameState_mono (hmono : Monotone same) : Monotone fun m => SameState (same m) :=
  fun _ _ hle _ _ h => ⟨hmono hle _ _ h.1, h.2⟩

include hnode

theorem kind_eq_of_matched : node.kind = node'.kind := congrArg Label.kind hnode.label_eq

theorem textOrEmpty_eq_of_matched : node.textOrEmpty = node'.textOrEmpty :=
  congrArg (fun label : Label => label.text.getD "") hnode.label_eq

include hmono

theorem retext_uniform (text : String) :
    Paired (Workspace.Alike fun m => SameState (same m)) AllMatched m (retext text node)
      (retext text node') := by
  have hmade : m.Makes (node.withText text) (node'.withText text)
      fun later => Tree.Matched later.pairs := by
    rw [Node.withText, Node.withText, kind_eq_of_matched hnode]
    exact Matching.makes_create _ hnode.children
  exact (Matching.Makes.create (sameState_mono hmono) hmade).bind
    fun _ _ _ _ hnew => .pure (.cons hnew .nil)

include hblurs

theorem visit_uniform (entry : Entry) :
    Paired (Workspace.Alike fun m => SameState (same m)) AllMatched m (entry.visit node)
      (entry.visit node') := by
  have htext : node.textOrEmpty = node'.textOrEmpty := textOrEmpty_eq_of_matched hnode
  have hmono' := sameState_mono hmono
  cases entry with
  | appendMessage =>
      refine RuleM.shared_uniform.bind fun later _ state state' hsame => ?_
      have hmessage : state.1.message = state'.1.message :=
        ((hblurs later).akin hsame.1).message_eq
      simp only [htext, hmessage]
      exact (Matching.Makes.create hmono' (Matching.makes_create _ .nil)).bind
        fun _ _ _ _ hnew => .pure (.cons hnew .nil)
  | transferValue =>
      refine (Matching.Makes.create hmono' (Matching.makes_build m _)).bind
        fun _ hlater _ _ hnew => .pure ?_
      exact .cons (hnode.mono hlater.keeps) (.cons hnew .nil)
  | deleteExport | deleteIdentifier | deleteString => exact .pure .nil
  | addExport =>
      refine (Matching.Makes.create hmono' (Matching.makes_build m _)).bind
        fun later hlater _ _ hlast => ?_
      have hchildren := AllMatched.mono hlater _ _ hnode.children
      rw [Node.copyWith, Node.copyWith, hnode.label_eq]
      exact (Matching.Makes.create hmono' (Matching.makes_create _
        (List.rel_append hchildren (.cons hlast .nil)))).bind
          fun _ _ _ _ hnew => .pure (.cons hnew .nil)
  | uppercaseIdentifier =>
      simp only [visit, htext]
      exact retext_uniform hmono hnode _
  | duplicateStatement => exact .pure (.cons hnode (.cons hnode .nil))
  | triplicateNumber => exact .pure (.cons hnode (.cons hnode (.cons hnode .nil)))
  | observe => exact .throw _
  | numberIdentifiers =>
      simp only [visit, htext]
      refine RuleM.shared_uniform.bind fun later hlater state state' hsame => ?_
      obtain ⟨_, memory⟩ := state
      obtain ⟨_, memory'⟩ := state'
      obtain rfl : memory = memory' := hsame.2
      refine (RuleM.update_uniform fun _ _ _ hsame => ⟨hsame.1, rfl⟩).bind
        fun last hlast _ _ _ => ?_
      exact retext_uniform hmono (hnode.mono (hlater.trans hlast).keeps) _
  | stampFileName =>
      simp only [visit, htext]
      refine RuleM.shared_uniform.bind fun later hlater state state' hsame => ?_
      have hfileName : state.1.fileName = state'.1.fileName :=
        ((hblurs later).akin hsame.1).fileName_eq
      simp only [hfileName]
      cases state'.1.fileName with
      | none => exact .throw _
      | some fileName => exact retext_uniform hmono (hnode.mono hlater.keeps) _
  | rejectNumbers =>
      simp only [visit, htext]
      exact .throw _

end Uniform

theorem uniform {same : Matching → Context → Context → Prop} (hmono : Monotone same)
    (hblurs : ∀ m, Context.Blurs (same m)) (scope : String) (entry : Entry) :
    (entry.ruleType scope).rule.Uniform fun m => SameState (same m) where
  wants := by
    intro m state state' node node' hsame hnode
    exact wants_mirrors hnode.outline_eq (hblurs m) entry hsame
  visit hnode := visit_uniform hmono hblurs hnode entry

end Entry

end Catalogue

end TreeRules
