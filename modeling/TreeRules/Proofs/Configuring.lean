import Mathlib.Data.List.Basic
import TreeRules.Catalogue.Context

/-!
# Configurations of the catalogue's context

The context of the catalogue is configured by a greeting. A greeting is read from an object by the
name of its only field and from an array by the place of it. Nothing at all stands for an object
without fields, but only where the whole configuration is missing.
-/

namespace TreeRules

namespace Json

/-- What an object holds under a name, in the order of its fields. -/
def heldUnder (name : String) (fields : Fields) : List Json :=
  (fields.filter (·.1 = name)).map Prod.snd

variable {name : String} {fields : Fields}

theorem heldUnder_cons_self (value : Json) :
    heldUnder name ((name, value) :: fields) = value :: heldUnder name fields := by
  simp [heldUnder]

theorem heldUnder_cons_of_ne {other : String} (h : other ≠ name) (value : Json) :
    heldUnder name ((other, value) :: fields) = heldUnder name fields := by
  simp [heldUnder, h]

/-- An object without repeated names holds what the name is looked up to. -/
theorem heldUnder_eq_toList (h : (fields.map Prod.fst).Nodup) :
    heldUnder name fields = (fields.lookup name).toList := by
  induction fields with
  | nil => rfl
  | cons field rest ih =>
      obtain ⟨other, value⟩ := field
      obtain ⟨hother, hrest⟩ := List.nodup_cons.mp h
      rcases eq_or_ne other name with rfl | hne
      · have hnone : heldUnder other rest = [] := by
          rw [heldUnder, List.map_eq_nil_iff, List.filter_eq_nil_iff]
          intro field hfield hname
          have hsame : field.1 = other := of_decide_eq_true hname
          exact hother (List.mem_map.mpr ⟨field, hfield, hsame⟩)
        rw [heldUnder_cons_self, hnone, List.lookup_cons_self]
        rfl
      · rw [heldUnder_cons_of_ne hne, ih hrest, List.lookup_cons, beq_false_of_ne hne.symm]

end Json

namespace Configuration

section Read

variable {α : Type} {target : String} {decode : Decoder α} {configuration : Json} {result : α}

def orEmpty : Json → Json
  | .null => .obj []
  | value => value

theorem read_eq_mapError : read target decode configuration =
    (decode (orEmpty configuration)).mapError (Error.mk target) := by
  unfold read
  rcases hdecoded : decode (orEmpty configuration) with cause | result <;>
    cases configuration <;> simp only [orEmpty] at hdecoded <;> simp only [hdecoded] <;> rfl

theorem read_eq_ok_iff : read target decode configuration = .ok result ↔
    decode (orEmpty configuration) = .ok result := by
  rw [read_eq_mapError]
  cases decode (orEmpty configuration) <;> simp [Except.mapError]

theorem target_eq_of_read_eq_error {error : Error}
    (h : read target decode configuration = .error error) : error.target = target := by
  rw [read_eq_mapError] at h
  cases hdecode : decode (orEmpty configuration) <;> rw [hdecode] at h <;> cases h
  rfl

end Read

namespace Greeting

attribute [ext] Greeting

variable {fields : Json.Fields} {value configuration : Json} {message target typeName : String}
  {greeting greeting' : Greeting}

/-- The configurations that hold a greeting, each with its message: nothing at all, an object with
texts only under the name of the message, and an array of no item or of a text. (An object holds no
name twice; if one did, the last text would count.) -/
inductive Holds : Json → String → Prop where
  | nothing : Holds .null ""
  | named {fields : Json.Fields} (texts : List String) :
      Json.heldUnder "message" fields = texts.map .str → Holds (.obj fields) (texts.getLastD "")
  | empty : Holds (.arr []) ""
  | placed (text : String) : Holds (.arr [.str text]) text

theorem holds_obj_iff : Holds (.obj fields) message ↔
    ∃ texts : List String, Json.heldUnder "message" fields = texts.map .str ∧
      message = texts.getLastD "" := by
  constructor
  · rintro ⟨⟩
    exact ⟨_, ‹_›, rfl⟩
  · rintro ⟨texts, htexts, rfl⟩
    exact .named texts htexts

/-- Without repeated names, a message is missing or is a text. -/
theorem holds_obj_iff_of_nodup (h : (fields.map Prod.fst).Nodup) :
    Holds (.obj fields) message ↔
      fields.lookup "message" = none ∧ message = "" ∨
      fields.lookup "message" = some (.str message) := by
  rw [holds_obj_iff, Json.heldUnder_eq_toList h]
  cases fields.lookup "message" with
  | none => simp
  | some held =>
      constructor
      · rintro ⟨_ | ⟨text, _ | ⟨next, others⟩⟩, htexts, rfl⟩ <;> cases htexts
        exact .inr rfl
      · rintro (⟨hnone, -⟩ | hheld)
        · cases hnone
        · cases hheld
          exact ⟨[message], rfl, rfl⟩

def store (value : Json) (greeting : Greeting) : Except DecodeError Greeting := do
  return { greeting with message := ← Decoder.string value }

theorem store_eq_ok_iff :
    store value greeting = .ok greeting' ↔ value = .str greeting'.message := by
  cases value <;> simp [store, Decoder.string, Decoder.fail, Greeting.ext_iff]

theorem readFields_eq_foldlM : (shape typeName).readFields fields greeting =
    (Json.heldUnder "message" fields).foldlM (fun greeting value => store value greeting)
      greeting := by
  induction fields generalizing greeting with
  | nil => rfl
  | cons field rest ih =>
      obtain ⟨name, value⟩ := field
      rcases eq_or_ne name "message" with rfl | hname
      · rw [Json.heldUnder_cons_self, List.foldlM_cons]
        exact bind_congr fun greeting => ih
      · have hnone : (shape typeName).fields.find? (·.name == name) = none := by
          simp [shape, hname.symm]
        rw [Json.heldUnder_cons_of_ne hname, Shape.readFields, hnone, ← ih]
        rfl

/-- Each text takes the place of the one before. -/
theorem foldlM_store_eq_ok_iff {held : List Json} :
    held.foldlM (fun greeting value => store value greeting) greeting = .ok greeting' ↔
      ∃ texts : List String, held = texts.map .str ∧
        greeting'.message = texts.getLastD greeting.message := by
  induction held generalizing greeting with
  | nil =>
      constructor
      · rintro ⟨⟩
        exact ⟨[], rfl, rfl⟩
      · rintro ⟨_ | ⟨text, texts⟩, htexts, hmessage⟩ <;> cases htexts
        exact congrArg _ (Greeting.ext hmessage).symm
  | cons value held ih =>
      rw [List.foldlM_cons]
      constructor
      · intro h
        rcases hstored : store value greeting with _ | stored <;> rw [hstored] at h
        · cases h
        · obtain ⟨texts, rfl, hmessage⟩ := ih.mp h
          rw [store_eq_ok_iff.mp hstored]
          exact ⟨stored.message :: texts, rfl, hmessage.trans List.getLastD_cons.symm⟩
      · rintro ⟨_ | ⟨text, texts⟩, htexts, hmessage⟩ <;> cases htexts
        exact ih.mpr ⟨texts, rfl, hmessage.trans List.getLastD_cons⟩

theorem decode_obj_eq_ok_iff :
    (shape typeName).decode (.obj fields) = .ok greeting ↔ Holds (.obj fields) greeting.message := by
  have hdecode : (shape typeName).decode (.obj fields) =
      (Json.heldUnder "message" fields).foldlM (fun greeting value => store value greeting) {} := by
    rw [← readFields_eq_foldlM]
    exact bind_pure _
  rw [hdecode, foldlM_store_eq_ok_iff, holds_obj_iff]

theorem decode_arr_eq_ok_iff {items : List Json} :
    (shape typeName).decode (.arr items) = .ok greeting ↔ Holds (.arr items) greeting.message := by
  rcases items with _ | ⟨item, _ | ⟨next, others⟩⟩
  · constructor
    · rintro ⟨⟩
      exact .empty
    · generalize hmessage : greeting.message = message
      rintro ⟨⟩
      exact congrArg _ (Greeting.ext hmessage.symm)
  · have hdecode : (shape typeName).decode (.arr [item]) = store item {} := bind_pure _
    rw [hdecode, store_eq_ok_iff]
    constructor
    · rintro rfl
      exact .placed _
    · generalize greeting.message = message
      rintro ⟨⟩
      rfl
  · have hdecode : (shape typeName).decode (.arr (item :: next :: others)) =
        (store item {}).bind fun _ => .error (.wrongLength (others.length + 2)
          "fewer elements in array") := rfl
    rw [hdecode]
    constructor
    · intro h
      rcases hstored : store item {} with _ | stored <;> rw [hstored] at h <;> cases h
    · rintro ⟨⟩

/-- A greeting is read from the configurations that hold it, and from no other. -/
theorem read_shape_eq_ok_iff :
    read target (shape typeName).decode configuration = .ok greeting ↔
      Holds configuration greeting.message := by
  cases configuration with
  | null =>
      constructor
      · rintro ⟨⟩
        exact .nothing
      · generalize hmessage : greeting.message = message
        rintro ⟨⟩
        exact congrArg _ (Greeting.ext hmessage.symm)
  | obj fields => exact read_eq_ok_iff.trans decode_obj_eq_ok_iff
  | arr items => exact read_eq_ok_iff.trans decode_arr_eq_ok_iff
  | bool _ | int _ | float _ | str _ => constructor <;> rintro ⟨⟩

end Greeting

end Configuration

namespace Pipeline

variable {γ ε N : Type} {pipeline : Pipeline γ ε N} {program : pipeline.context.Program}
  {configuration : Json}

theorem instantiate_of_created {context : γ}
    (h : pipeline.context.create program configuration = .ok context) (bench : Bench) :
    ((pipeline.instantiate program configuration).run bench).1 = .ok { context } := by
  rw [instantiate, h]
  rfl

theorem instantiate_of_refused {error : CreationError ε}
    (h : pipeline.context.create program configuration = .error error) (bench : Bench) :
    ((pipeline.instantiate program configuration).run bench).1 =
      .error (.ofCreation pipeline.context.name error) := by
  rw [instantiate, h]
  rfl

end Pipeline

namespace Catalogue

open TreeRules.Configuration (Greeting)

variable {scope : String} {program : Program} {configuration : Json}

theorem create_of_holds {message : String} (h : Greeting.Holds configuration message) :
    Context.create scope program configuration =
      .ok { compilation := program.name, message } := by
  have hread : Configuration.read (qualified scope "TestedConfiguration")
      (Greeting.shape "TestedConfiguration").decode configuration = .ok ⟨message⟩ :=
    Greeting.read_shape_eq_ok_iff.mpr h
  rw [Context.create, hread]

theorem create_of_not_holds (h : ∀ message, ¬ Greeting.Holds configuration message) :
    ∃ cause, Context.create scope program configuration =
      .error (.configuration { target := qualified scope "TestedConfiguration", cause }) := by
  rw [Context.create]
  generalize hread : Configuration.read _ _ configuration = outcome
  cases outcome with
  | ok greeting => exact absurd (Greeting.read_shape_eq_ok_iff.mp hread) (h _)
  | error error =>
      have htarget := Configuration.target_eq_of_read_eq_error hread
      exact ⟨error.cause, by rw [← htarget]⟩

/-- **A context is made from the configurations that hold a greeting, and from no other.** It starts
with the message and with nothing counted. Any other configuration is reported as an invalid one,
with the names of the context and of what could not be read. -/
theorem instantiate_accepts_greetings (scope : String) (rules : List (RuleType Context Error Node))
    (program : Program) (configuration : Json) (bench : Bench) :
    let pipeline : Pipeline Context Error Node := ⟨Context.type scope, rules⟩
    let outcome := ((pipeline.instantiate program configuration).run bench).1
    ((∃ transformer, outcome = .ok transformer) ↔
      ∃ message, Greeting.Holds configuration message) ∧
    (∀ message, Greeting.Holds configuration message →
      outcome = .ok
        { context :=
            { compilation := program.name
              message
              fileName := none
              root := none
              unitsSeen := 0
              offered := 0 }
          lastStatistics := none }) ∧
    ((¬ ∃ message, Greeting.Holds configuration message) →
      ∃ cause, outcome = .error (.invalidConfiguration (qualified scope "TestedContext")
        { target := qualified scope "TestedConfiguration", cause })) := by
  intro pipeline outcome
  have haccept (message) (h : Greeting.Holds configuration message) :
      outcome = .ok { context := { compilation := program.name, message } } := by
    have hcreate : pipeline.context.create program configuration = _ := create_of_holds h
    exact Pipeline.instantiate_of_created hcreate bench
  have hreject (h : ¬ ∃ message, Greeting.Holds configuration message) :
      ∃ cause, outcome = .error (.invalidConfiguration (qualified scope "TestedContext")
        { target := qualified scope "TestedConfiguration", cause }) := by
    obtain ⟨cause, hcreate⟩ := create_of_not_holds (not_exists.mp h)
    have hcreate : pipeline.context.create program configuration = _ := hcreate
    exact ⟨cause, Pipeline.instantiate_of_refused hcreate bench⟩
  refine ⟨⟨?_, fun ⟨message, h⟩ => ⟨_, haccept message h⟩⟩, haccept, hreject⟩
  rintro ⟨transformer, hok⟩
  by_contra hnone
  obtain ⟨cause, herror⟩ := hreject hnone
  cases hok.symm.trans herror

end Catalogue

end TreeRules
