import Blockwright.Failure
import Blockwright.Json.Print
import Blockwright.Json.Record
import Blockwright.Script.Program

/-!
# Programs as documents

Every program can be written as a document, and a document of the right shape can be read back.
An action is an object whose member `type` says what sort of action it is, or a list that starts
with that tag.
-/

namespace Blockwright.Script

open Blockwright.Json

/-- A list of texts. -/
def textsValue (texts : List String) : Value := .list (texts.map .text)

/-! ### Actions -/

namespace ActionKind

/-- The fields of a sort of action in declared order. -/
def fields : ActionKind → List Field
  | setProperty => [needed "component", needed "property", needed "value"]
  | assign => [needed "variable", needed "value"]
  | call => [needed "component", needed "method", optional "parameters"]
  | define => [needed "variable", needed "value"]
  | branch => [needed "condition", optional "actions", optional "elseActions"]
  | loop => [needed "condition", optional "actions"]
  | forEach => [needed "item", needed "list", optional "actions"]

/-- What messages call a sort of action. -/
def title : ActionKind → String
  | setProperty => "struct variant Action::SetProperty"
  | assign => "struct variant Action::Assign"
  | call => "struct variant Action::Call"
  | define => "struct variant Action::Define"
  | branch => "struct variant Action::If"
  | loop => "struct variant Action::While"
  | forEach => "struct variant Action::ForEach"

/-- The sort of action that a tag names. -/
def ofTag (tag : String) : Except Error ActionKind :=
  match all.find? (fun kind ↦ kind.tag == tag) with
  | some kind => .ok kind
  | none => .error (.problem (.unknownTag tag (all.map ActionKind.tag)))

/-- The sort of action at a position among all sorts. -/
def ofPosition (position : Int) : Except Error ActionKind :=
  match all[position.toNat]? with
  | some kind => .ok kind
  | none =>
    .error (.problem (.wrongValue (.number (.integer position)) "variant index 0 <= i < 7"))

/-- The sort of action that a tag's value names. Inside another action the tag may also be the
sort's position. -/
def ofValue (inside : Bool) : Value → Except Error ActionKind
  | .text tag => ofTag tag
  | .number (.integer n) =>
    if inside && 0 ≤ n then ofPosition n
    else (Value.number (.integer n)).mismatch "variant identifier"
  | value => value.mismatch "variant identifier"

end ActionKind

/-- The fields of all sorts of actions together. -/
structure ActionFields where
  component : String := ""
  property : String := ""
  value : String := ""
  target : String := ""
  method : String := ""
  parameters : List String := []
  condition : String := ""
  item : String := ""
  list : String := ""
  actions : List Action := []
  elseActions : List Action := []

/-- The action of a sort with the given fields. -/
def ActionFields.action (f : ActionFields) : ActionKind → Action
  | .setProperty => .setProperty f.component f.property f.value
  | .assign => .assign f.target f.value
  | .call => .call f.component f.method f.parameters
  | .define => .define f.target f.value
  | .branch => .branch f.condition f.actions f.elseActions
  | .loop => .loop f.condition f.actions
  | .forEach => .forEach f.item f.list f.actions

/-- Gives one field. `body` converts the items of a body. -/
def ActionFields.set (body : Value → Except Error Action) (key : String) (v : Value)
    (f : ActionFields) : Except Error ActionFields :=
  match key with
  | "component" => return { f with component := ← v.asText }
  | "property" => return { f with property := ← v.asText }
  | "value" => return { f with value := ← v.asText }
  | "variable" => return { f with target := ← v.asText }
  | "method" => return { f with method := ← v.asText }
  | "parameters" => return { f with parameters := ← v.asList Value.asText }
  | "condition" => return { f with condition := ← v.asText }
  | "item" => return { f with item := ← v.asText }
  | "list" => return { f with list := ← v.asText }
  | "actions" => return { f with actions := ← v.asList body }
  | "elseActions" => return { f with elseActions := ← v.asList body }
  | _ => .ok f

/-- The record of a sort of action. -/
def ActionKind.record (body : Value → Except Error Action) (kind : ActionKind) :
    Record Value ActionFields where
  name := kind.title
  fields := kind.fields
  blank := {}
  set := ActionFields.set body

namespace Action

mutual

/-- An action as a value; its tag comes first. -/
def toValue : Action → Value
  | setProperty component property value =>
    .object [("type", .text "set_property"), ("component", .text component),
      ("property", .text property), ("value", .text value)]
  | assign target value =>
    .object [("type", .text "assign"), ("variable", .text target), ("value", .text value)]
  | call component method arguments =>
    .object [("type", .text "call"), ("component", .text component), ("method", .text method),
      ("parameters", textsValue arguments)]
  | define target value =>
    .object [("type", .text "define"), ("variable", .text target), ("value", .text value)]
  | branch condition body otherwise =>
    .object [("type", .text "if"), ("condition", .text condition),
      ("actions", .list (bodyValues body)), ("elseActions", .list (bodyValues otherwise))]
  | loop condition body =>
    .object [("type", .text "while"), ("condition", .text condition),
      ("actions", .list (bodyValues body))]
  | forEach item list body =>
    .object [("type", .text "for_each"), ("item", .text item), ("list", .text list),
      ("actions", .list (bodyValues body))]

/-- The actions of a body as values. -/
def bodyValues : List Action → List Value
  | [] => []
  | action :: actions => toValue action :: bodyValues actions

end

/-- The action that a value holds, if lists and objects in it are nested at most `levels` deep.
`inside` tells that the value stands inside another action. -/
def ofValueWithin (inside : Bool) : Nat → Value → Except Error Action
  | levels + 1, .object members => do
    let tag ← (Ordered.get? "type" members).elim (.error (.problem (.missingField "type"))) .ok
    let kind ← ActionKind.ofValue inside tag
    let others := members.filter (fun member ↦ member.1 != "type")
    let fields ← (kind.record (ofValueWithin true levels)).ofMembers others
    return fields.action kind
  | levels + 1, .list (tag :: items) => do
    let kind ← ActionKind.ofValue inside tag
    let fields ← (kind.record (ofValueWithin true levels)).ofItems
      (Record.elements kind.fields.length ++ " in sequence") items
    return fields.action kind
  | _ + 1, .list [] => .error (.problem (.missingField "type"))
  | _, value => value.mismatch "internally tagged enum Action"

/-- The action that a value holds. -/
def ofValue (value : Value) : Except Error Action := ofValueWithin false (value.depth + 1) value

/-- The action that a text holds. -/
def load (text : String) : Except Error Action := do
  ofValue (← (Value.read text.toList).mapError .fault)

end Action

/-! ### Programs -/

/-- A handler as a value. -/
def Event.toValue (e : Event) : Value :=
  .object [("component", .text e.component), ("event", .text e.event),
    ("actions", .list (Action.bodyValues e.actions))]

/-- A variable as a value. -/
def Variable.toValue (v : Variable) : Value :=
  .object [("name", .text v.name), ("value", .text v.value)]

/-- A procedure as a value. -/
def Procedure.toValue (p : Procedure) : Value :=
  .object [("name", .text p.name), ("parameters", textsValue p.parameters),
    ("actions", .list (Action.bodyValues p.actions))]

/-- A diagnostic as a value. -/
def Diagnostic.toValue (d : Diagnostic) : Value :=
  .object [("line", .number (.integer d.line)), ("message", .text d.message)]

/-- How a handler is read. -/
def Event.record : Record Value Event where
  name := "struct Event"
  fields := [needed "component", needed "event", optional "actions"]
  blank := ⟨"", "", []⟩
  set key v e :=
    match key with
    | "component" => return { e with component := ← v.asText }
    | "event" => return { e with event := ← v.asText }
    | "actions" => return { e with actions := ← v.asList Action.ofValue }
    | _ => .ok e

/-- How a variable is read. -/
def Variable.record : Record Value Variable where
  name := "struct Variable"
  fields := [needed "name", needed "value"]
  blank := ⟨"", ""⟩
  set key v x :=
    match key with
    | "name" => return { x with name := ← v.asText }
    | "value" => return { x with value := ← v.asText }
    | _ => .ok x

/-- How a procedure is read. -/
def Procedure.record : Record Value Procedure where
  name := "struct Procedure"
  fields := [needed "name", optional "parameters", optional "actions"]
  blank := ⟨"", [], []⟩
  set key v p :=
    match key with
    | "name" => return { p with name := ← v.asText }
    | "parameters" => return { p with parameters := ← v.asList Value.asText }
    | "actions" => return { p with actions := ← v.asList Action.ofValue }
    | _ => .ok p

/-- How a diagnostic is read. -/
def Diagnostic.record : Record Value Diagnostic where
  name := "struct Diagnostic"
  fields := [needed "line", needed "message"]
  blank := ⟨0, ""⟩
  set key v d :=
    match key with
    | "line" => return { d with line := ← v.asNatural }
    | "message" => return { d with message := ← v.asText }
    | _ => .ok d

namespace Program

/-- A program as a value. -/
def toValue (p : Program) : Value :=
  .object [("events", .list (p.events.map Event.toValue)),
    ("variables", .list (p.globals.map Variable.toValue)),
    ("procedures", .list (p.procedures.map Procedure.toValue)),
    ("components", textsValue p.components),
    ("errors", .list (p.diagnostics.map Diagnostic.toValue))]

/-- The written form of a program. -/
def written (p : Program) : String := String.ofList (p.toValue.pretty 0 [])

/-- How a program is read. -/
def record : Record Value Program where
  name := "struct ParsedCode"
  fields := [needed "events", optional "variables", optional "procedures", needed "components",
    optional "errors"]
  blank := Program.empty
  set key v p :=
    match key with
    | "events" => return { p with events := ← v.asList Event.record.ofValue }
    | "variables" => return { p with globals := ← v.asList Variable.record.ofValue }
    | "procedures" => return { p with procedures := ← v.asList Procedure.record.ofValue }
    | "components" => return { p with components := ← v.asList Value.asText }
    | "errors" => return { p with diagnostics := ← v.asList Diagnostic.record.ofValue }
    | _ => .ok p

/-- Checks that a member is a list. -/
def requireList (field : String) (value : Value) : Except Failure Unit :=
  match value.get? field with
  | some (.list _) => .ok ()
  | _ => .error (.notAList field)

/-- The program that a text holds. Whether the document is an object with its two lists is
checked before anything in it is converted. -/
def load (text : String) : Except Failure Program := do
  let value ← (Value.read text.toList).mapError (fun fault ↦ .document (.fault fault))
  match value with
  | .object _ => pure ()
  | _ => .error .notAnObject
  requireList "events" value
  requireList "components" value
  (record.ofValue value).mapError .document

end Program

end Blockwright.Script
