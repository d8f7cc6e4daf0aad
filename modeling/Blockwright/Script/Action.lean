/-!
# Actions

The steps of a handler or a procedure. Control structures hold the actions inside them, so a
body is a list of trees.
-/

namespace Blockwright.Script

/-- One step of a body. -/
inductive Action where
  /-- Sets a property of a component. -/
  | setProperty (component property value : String)
  /-- Sets a variable. -/
  | assign (target value : String)
  /-- Calls a method of a component, or a procedure, which is named as both. -/
  | call (component method : String) (arguments : List String)
  /-- Records a declaration made inside a body. -/
  | define (target value : String)
  /-- A conditional; further arms are nested in `otherwise`. -/
  | branch (condition : String) (body otherwise : List Action)
  /-- A loop that runs while its condition holds. -/
  | loop (condition : String) (body : List Action)
  /-- A loop over the items of a list. -/
  | forEach (item list : String) (body : List Action)
  deriving Repr

/-- The sorts of actions. -/
inductive ActionKind where
  | setProperty | assign | call | define | branch | loop | forEach
  deriving DecidableEq, Repr

namespace ActionKind

/-- All sorts of actions. -/
def all : List ActionKind := [setProperty, assign, call, define, branch, loop, forEach]

/-- The tag that documents and reports use for a sort of action. -/
def tag : ActionKind → String
  | setProperty => "set_property"
  | assign => "assign"
  | call => "call"
  | define => "define"
  | branch => "if"
  | loop => "while"
  | forEach => "for_each"

end ActionKind

namespace Action

/-- The sort of an action. -/
def kind : Action → ActionKind
  | setProperty .. => .setProperty
  | assign .. => .assign
  | call .. => .call
  | define .. => .define
  | branch .. => .branch
  | loop .. => .loop
  | forEach .. => .forEach

/-- Whether an action names one thing as both component and method. -/
def isProcedureCall : Action → Bool
  | call component method _ => component == method
  | _ => false

/-- The names that an action cannot do without, each with what it is called. -/
def neededNames : Action → List (String × String)
  | setProperty component property _ => [("component", component), ("property", property)]
  | assign target _ => [("variable", target)]
  | define target _ => [("variable", target)]
  | call component method _ => [("component", component), ("method", method)]
  | branch condition _ _ => [("condition", condition)]
  | loop condition _ => [("condition", condition)]
  | forEach item list _ => [("item", item), ("list", list)]

/-- What the first of an action's needed names that is empty is called. -/
def missingName (action : Action) : Option String :=
  (action.neededNames.find? (fun entry ↦ entry.2.isEmpty)).map (·.1)

mutual

/-- Whether two actions are the same. -/
def same : Action → Action → Bool
  | setProperty c p v, setProperty c' p' v' => c == c' && p == p' && v == v'
  | assign t v, assign t' v' => t == t' && v == v'
  | call c m as, call c' m' as' => c == c' && m == m' && as == as'
  | define t v, define t' v' => t == t' && v == v'
  | branch c b o, branch c' b' o' => c == c' && sameBody b b' && sameBody o o'
  | loop c b, loop c' b' => c == c' && sameBody b b'
  | forEach i l b, forEach i' l' b' => i == i' && l == l' && sameBody b b'
  | _, _ => false

/-- Whether two bodies are the same. -/
def sameBody : List Action → List Action → Bool
  | [], [] => true
  | a :: as, b :: bs => same a b && sameBody as bs
  | _, _ => false

end

mutual

/-- The comparison of actions decides their equality. -/
theorem same_iff : (a b : Action) → (same a b = true ↔ a = b)
  | setProperty .., b => by cases b <;> simp [same, and_assoc]
  | assign .., b => by cases b <;> simp [same]
  | call .., b => by cases b <;> simp [same, and_assoc]
  | define .., b => by cases b <;> simp [same]
  | branch _ body other, b => by
    cases b <;> simp [same, and_assoc, sameBody_iff body, sameBody_iff other]
  | loop _ body, b => by cases b <;> simp [same, sameBody_iff body]
  | forEach _ _ body, b => by cases b <;> simp [same, and_assoc, sameBody_iff body]

/-- The comparison of bodies decides their equality. -/
theorem sameBody_iff : (as bs : List Action) → (sameBody as bs = true ↔ as = bs)
  | [], bs => by cases bs <;> simp [sameBody]
  | a :: as, bs => by cases bs <;> simp [sameBody, same_iff a, sameBody_iff as]

end

instance : DecidableEq Action := fun a b ↦ decidable_of_iff _ (same_iff a b)

end Action

end Blockwright.Script
