import Blockwright.Markup

/-!
# What markup shows of blocks

A reading of markup as blocks that knows nothing of how it was made. The shape of a block is what
it does and to what, without the values it is given, and with the shapes of the blocks inside it.
A body is a `statement` that holds the first of its blocks; every further block is in the `next` of
the one before.
-/

namespace Blockwright

/-- What a block does and to what, with what it holds. -/
inductive Shape where
  | setProperty (component property : String)
  | assign (target : String)
  | callProcedure (name : String)
  | callMethod (component method : String)
  | branch (body otherwise : List Shape)
  | loop (body : List Shape)
  | forEach (item list : String) (body : List Shape)
  deriving Repr

/-! ### Parts of an element -/

namespace Element

/-- The tag of an element. -/
def tag : Element → String
  | node tag _ _ => tag
  | leaf tag _ _ => tag

/-- The value of an attribute. -/
def attribute? (key : String) : Element → Option String
  | node _ attributes _ => attributes.lookup key
  | leaf _ attributes _ => attributes.lookup key

/-- The elements that an element holds. -/
def children : Element → List Element
  | node _ _ children => children
  | leaf .. => []

/-- The text that an element holds. -/
def content? : Element → Option String
  | node .. => none
  | leaf _ _ content => some content

/-- The type of a block. -/
def blockType? (e : Element) : Option String :=
  if e.tag = "block" then e.attribute? "type" else none

/-- Whether an element has a tag and a name. -/
def isNamed (tag name : String) (e : Element) : Bool :=
  e.tag == tag && e.attribute? "name" == some name

/-- Whether an element links to following blocks. -/
def isNext (e : Element) : Bool := e.tag == "next"

/-- Whether an element says what shapes a block. -/
def isMutation (e : Element) : Bool := e.tag == "mutation"

/-- The links among the children of an element. -/
def nexts (e : Element) : List Element := e.children.filter isNext

/-- The bodies of some name among the children of an element. -/
def statements (name : String) (e : Element) : List Element :=
  e.children.filter (isNamed "statement" name)

/-- What a block's mutation says about a key. -/
def mutation? (key : String) (e : Element) : Option String :=
  (e.children.find? isMutation).bind (attribute? key)

/-- The text of a block's title of some name. -/
def title? (name : String) (e : Element) : Option String :=
  (e.children.find? (isNamed "title" name)).bind content?

/-- What a block's input of some name holds. -/
def input? (name : String) (e : Element) : Option Element :=
  (e.children.find? (isNamed "value" name)).bind (fun input ↦ input.children.head?)

end Element

/-! ### Shapes of elements -/

open Element

mutual

/-- An element is a block of some shape. -/
inductive Shows : Shape → Element → Prop where
  | setProperty {component property : String} {e : Element}
    (blockType?_eq : e.blockType? = some "component_set_get")
    (mutation?_eq : e.mutation? "instance_name" = some component)
    (title?_eq : e.title? "COMPONENT_SELECTOR" = some component)
    (property_eq : e.mutation? "property_name" = some property) :
    Shows (.setProperty component property) e
  | assign {target : String} {e : Element}
    (blockType?_eq : e.blockType? = some "lexical_variable_set")
    (title?_eq : e.title? "VAR" = some target) : Shows (.assign target) e
  | callProcedure {name : String} {e : Element}
    (blockType?_eq : e.blockType? = some "procedures_callnoreturn")
    (mutation?_eq : e.mutation? "name" = some name)
    (title?_eq : e.title? "PROCNAME" = some name) : Shows (.callProcedure name) e
  | callMethod {component method : String} {e : Element}
    (blockType?_eq : e.blockType? = some "component_method")
    (mutation?_eq : e.mutation? "instance_name" = some component)
    (title?_eq : e.title? "COMPONENT_SELECTOR" = some component)
    (method_eq : e.mutation? "method_name" = some method) : Shows (.callMethod component method) e
  /-- A conditional announces its alternative exactly when it has one. -/
  | branch {body otherwise : List Shape} {e : Element}
    (blockType?_eq : e.blockType? = some "controls_if") (holds_body : Holds "DO0" body e)
    (holds_otherwise : Holds "ELSE" otherwise e)
    (mutation?_eq : e.mutation? "else" = if otherwise.isEmpty then none else some "1") :
    Shows (.branch body otherwise) e
  | loop {body : List Shape} {e : Element}
    (blockType?_eq : e.blockType? = some "controls_whileUntil")
    (holds_body : Holds "DO" body e) : Shows (.loop body) e
  | forEach {item list : String} {body : List Shape} {e : Element}
    (blockType?_eq : e.blockType? = some "controls_forEach")
    (title?_eq : e.title? "VAR" = some item)
    (input?_eq : (e.input? "LIST").bind (title? "VAR") = some list)
    (holds_body : Holds "DO" body e) : Shows (.forEach item list body) e

/-- An element has a body of some name with blocks of some shapes; an empty one is left out. -/
inductive Holds : String → List Shape → Element → Prop where
  | absent {name : String} {e : Element} (statements_eq : e.statements name = []) :
    Holds name [] e
  | present {name : String} {shapes : List Shape} {e first : Element}
    (statements_eq : e.statements name = [.node "statement" [("name", name)] [first]])
    (follows : Follows shapes first) : Holds name shapes e

/-- A block and those that its links lead to have some shapes. A link is the last child of its
block, and the only one. -/
inductive Follows : List Shape → Element → Prop where
  | last {shape : Shape} {e : Element} (shows_shape : Shows shape e) (nexts_eq : e.nexts = []) :
    Follows [shape] e
  | link {shape : Shape} {shapes : List Shape} {e following : Element}
    (shows_shape : Shows shape e) (nexts_eq : e.nexts = [.node "next" [] [following]])
    (getLast?_eq : e.children.getLast? = some (.node "next" [] [following]))
    (follows : Follows shapes following) : Follows (shape :: shapes) e

end

/-! ### Markup shows one shape -/

mutual

/-- An element is a block of at most one shape. -/
theorem Shows.unique {s t : Shape} {e : Element} : Shows s e → Shows t e → s = t
  | .setProperty hb hm _ hp, h => by
    cases h with
    | setProperty _ hm' _ hp' =>
      cases hm.symm.trans hm'
      cases hp.symm.trans hp'
      rfl
    | _ => simp_all
  | .assign hb ht, h => by
    cases h with
    | assign _ ht' =>
      cases ht.symm.trans ht'
      rfl
    | _ => simp_all
  | .callProcedure hb hm _, h => by
    cases h with
    | callProcedure _ hm' =>
      cases hm.symm.trans hm'
      rfl
    | _ => simp_all
  | .callMethod hb hm _ hn, h => by
    cases h with
    | callMethod _ hm' _ hn' =>
      cases hm.symm.trans hm'
      cases hn.symm.trans hn'
      rfl
    | _ => simp_all
  | .branch hb hbody hother _, h => by
    cases h with
    | branch _ hbody' hother' =>
      rw [hbody.unique hbody', hother.unique hother']
    | _ => simp_all
  | .loop hb hbody, h => by
    cases h with
    | loop _ hbody' => rw [hbody.unique hbody']
    | _ => simp_all
  | .forEach hb ht hi hbody, h => by
    cases h with
    | forEach _ ht' hi' hbody' =>
      cases ht.symm.trans ht'
      cases hi.symm.trans hi'
      rw [hbody.unique hbody']
    | _ => simp_all

/-- A body of some name has blocks of at most one list of shapes. -/
theorem Holds.unique {name : String} {s t : List Shape} {e : Element} :
    Holds name s e → Holds name t e → s = t
  | .absent hs, h => by
    cases h with
    | absent => rfl
    | present hs' => rw [hs] at hs'; cases hs'
  | .present hs hf, h => by
    cases h with
    | absent hs' => rw [hs] at hs'; cases hs'
    | present hs' hf' =>
      cases hs.symm.trans hs'
      exact hf.unique hf'

private theorem Follows.unique {s t : List Shape} {e : Element} : Follows s e → Follows t e → s = t
  | .last hs hn, h => by
    cases h with
    | last hs' => rw [hs.unique hs']
    | link _ hn' => rw [hn] at hn'; cases hn'
  | .link hs hn _ hf, h => by
    cases h with
    | last _ hn' => rw [hn] at hn'; cases hn'
    | link hs' hn' _ hf' =>
      cases hn.symm.trans hn'
      rw [hs.unique hs', hf.unique hf']

end

end Blockwright
