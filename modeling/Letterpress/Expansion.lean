import Letterpress.Formula.Evaluation
import Letterpress.Template.Binding

/-! Expanding the body of a template in a scope: the markers are replaced by what their formulas come to,
    then the actions by what they compute. A loop expands its body once more for each of its items, in a
    scope with one more layer. -/

namespace Letterpress
namespace Expansion

open Markup (Node Element Head)

/-! ### Markers -/

/-- The formula of a marker: one of the body's, or else the one that its text writes. A text that is no
    formula has none, and its marker stays. -/
def formula? (t : Template) (text : String) : Option Formula :=
  match t.formula? text with
  | some formula => some formula
  | none => (Formula.parse text).toOption

/-- What the formula of a marker comes to. -/
def evaluate (t : Template) (scope : Scope) (text : String) : Except Error Outcome :=
  match formula? t text with
  | none => .ok .deferred
  | some formula => (formula.eval scope).mapError (.formula text)

/-- The markup that a marker stands for, if its formula is a variable bound to markup. -/
def fragment? (t : Template) (scope : Scope) (text : String) : Option (List Node) :=
  match formula? t text with
  | some (.var path) =>
    match scope.lookup? path with
    | some (.markup e) => some e.children
    | _ => none
  | _ => none

/-- The pieces of an attribute value put together again, their markers replaced. -/
def joinSegments (t : Template) (scope : Scope) : List Segment → Except Error String
  | [] => .ok ""
  | .literal text :: segments => do
    let rest ← joinSegments t scope segments
    return text ++ rest
  | .marker raw formula :: segments => do
    let outcome ← evaluate t scope formula
    let rest ← joinSegments t scope segments
    return outcome.textOr raw ++ rest

/-- An attribute value with its markers replaced. -/
def attributeValue (t : Template) (scope : Scope) (value : String) : Except Error String :=
  joinSegments t scope (Segment.split value)

/-- A text node, unless the text is empty. -/
def textNodes (text : String) : List Node :=
  if text = "" then [] else [.text text]

/-- The nodes for the pieces of a text behind the text that is still pending. Markup takes the place of its
    marker; everything between markup is one text. -/
def spliceSegments (t : Template) (scope : Scope) (pending : String) :
    List Segment → Except Error (List Node)
  | [] => .ok (textNodes pending)
  | .literal text :: segments => spliceSegments t scope (pending ++ text) segments
  | .marker raw formula :: segments =>
    match fragment? t scope formula with
    | some nodes => do
      let rest ← spliceSegments t scope "" segments
      return textNodes pending ++ nodes ++ rest
    | none => do
      let outcome ← evaluate t scope formula
      spliceSegments t scope (pending ++ outcome.textOr raw) segments

/-- The nodes for a text with its markers replaced. A text without markers stays, even if it is empty. -/
def splice (t : Template) (scope : Scope) (text : String) : Except Error (List Node) :=
  if (Segment.markers text).isEmpty then .ok [.text text]
  else spliceSegments t scope "" (Segment.split text)

/-- The attributes with the markers of their values replaced, in order. -/
def substituteAttributes (t : Template) (scope : Scope) :
    List (String × String) → Except Error (List (String × String))
  | [] => .ok []
  | (name, value) :: attributes => do
    let value ← attributeValue t scope value
    let attributes ← substituteAttributes t scope attributes
    return (name, value) :: attributes

/-- The head of an element with the markers of its attributes replaced. -/
def substituteHead (t : Template) (scope : Scope) (head : Head) : Except Error Head := do
  let attributes ← substituteAttributes t scope head.attributes
  return { head with attributes }

mutual

/-- The nodes for a node with its markers replaced. -/
def substituteNode (t : Template) (scope : Scope) : Node → Except Error (List Node)
  | .element head children => do
    let head ← substituteHead t scope head
    let children ← substitute t scope children
    return [.element head children]
  | .text content => splice t scope content
  | node => .ok [node]

/-- The nodes with their markers replaced, in order. -/
def substitute (t : Template) (scope : Scope) : List Node → Except Error (List Node)
  | [] => .ok []
  | node :: nodes => do
    let front ← substituteNode t scope node
    let rest ← substitute t scope nodes
    return front ++ rest

end

/-! ### Actions -/

/-- What a choice can ask about a path, or about nothing. -/
inductive Predicate where
  | sourceFile
  | sourceDirectory
  | file
  | identity
  deriving Repr, DecidableEq

/-- The predicate of this name. -/
def Predicate.ofName? : String → Option Predicate
  | "src-file-exists" => some sourceFile
  | "src-dir-exists" => some sourceDirectory
  | "file-exists" => some file
  | "get" => some identity
  | _ => none

/-- The key that a predicate gives for its argument. -/
def Predicate.key (ctx : Context) (argument : String) : Predicate → String
  | sourceFile => Operator.truth (ctx.hasSourceFile argument)
  | sourceDirectory => Operator.truth (ctx.hasSourceDirectory argument)
  | file => Operator.truth (ctx.hasFile argument)
  | identity => argument

/-- The key by which a choice selects its branch. -/
def choiceKey (ctx : Context) (e : Element) : Except Error String :=
  match e.attribute? "f" with
  | some name =>
    match Predicate.ofName? (Text.trim name) with
    | some predicate => .ok (predicate.key ctx (Text.trim ((e.attribute? "x").getD "")))
    | none => .error (.action .choose (.unknownPredicate (Text.trim name)) e.outer)
  | none =>
    match e.attribute? "value" with
    | some value => .ok (Text.trim value)
    | none => .error (.action .choose .noKey e.outer)

/-- The node is an element of this name. -/
def isNamed (name : String) (node : Node) : Bool :=
  node.element?.any (·.name == name)

/-- The path of the list that a loop runs over, as it is written. -/
def loopList (e : Element) : Except Error String :=
  match e.attribute? "list" with
  | some list => .ok (Text.trim list)
  | none => .error (.action .forEach .noList e.outer)

/-- The name that a loop gives to the number of the iteration. -/
def loopIndex (e : Element) : String :=
  match e.attribute? "i" with
  | some name => Text.trim name
  | none => "__iter"

/-- The items of the list that a path stands for, if it stands for one. -/
def items? (scope : Scope) (path : List String) : Option (List Value) :=
  match scope.lookup? path with
  | some (.list items) => some items
  | _ => none

/-- The name under which a loop over the list binds its items. -/
def itemName (t : Template) (e : Element) (list : String) (path : List String) : Except Error String :=
  match t.declaration? path with
  | some (.list _ _ item) => .ok item.name
  | some _ => .error (.action .forEach (.notDeclaredAsList list) e.outer)
  | none => .error (.action .forEach (.undeclaredList list) e.outer)

/-- The output of a loop around the nodes of its iterations: an element of a class, if it asks for one. -/
def wrap (e : Element) (nodes : List Node) : List Node :=
  match e.attribute? "html-class" with
  | some value => [.element { name := "div", attributes := [("class", value)] } nodes]
  | none => nodes

/-- The scope of one iteration. -/
def iterationScope (scope : Scope) (index item : String) (number : Nat) (value : Value) : Scope :=
  (scope.push.bind index (.text (toString number))).bind item value

/-- The nodes of the iterations for the values, the first of which has this number. -/
def iterate (expand : Scope → Except Error (List Node)) (scope : Scope) (index item : String) :
    Nat → List Value → Except Error (List Node)
  | _, [] => .ok []
  | number, value :: values => do
    let front ← expand (iterationScope scope index item number value)
    let rest ← iterate expand scope index item (number + 1) values
    return front ++ rest

/-- Runs a loop; `expand` expands its body in a scope. -/
def runLoop (t : Template) (expand : Scope → List Node → Except Error (List Node)) (scope : Scope)
    (e : Element) : Except Error (List Node) := do
  let list ← loopList e
  let path := Text.split (· == '.') list
  match items? scope path with
  -- No list stands there: there are no iterations, and no element around them either.
  | none => return []
  | some items =>
    let item ← itemName t e list path
    let nodes ← iterate (fun inner => expand inner e.children) scope (loopIndex e) item 1 items
    return wrap e nodes

mutual

/-- Replaces the actions of a node by their output. -/
def runNode (t : Template) (ctx : Context) (expand : Scope → List Node → Except Error (List Node))
    (scope : Scope) : Node → Except Error (List Node)
  | .element head children =>
    match Action.ofTag? head.name with
    | some .forEach => runLoop t expand scope ⟨head, children⟩
    | some .choose => do
      let key ← choiceKey ctx ⟨head, children⟩
      -- Only the branches of this key count; the others may share a name.
      if 1 < (children.filter (isNamed key)).length then
        throw (.action .choose (.ambiguous key) (Element.mk head children).outer)
      runBranch t ctx expand scope key children
    | none => do
      let children ← runActions t ctx expand scope children
      return [.element head children]
  | node => .ok [node]

/-- Replaces the actions of some nodes by their output, in order. -/
def runActions (t : Template) (ctx : Context)
    (expand : Scope → List Node → Except Error (List Node)) (scope : Scope) :
    List Node → Except Error (List Node)
  | [] => .ok []
  | node :: nodes => do
    let front ← runNode t ctx expand scope node
    let rest ← runActions t ctx expand scope nodes
    return front ++ rest

/-- The output of the first branch with the name of the key. -/
def runBranch (t : Template) (ctx : Context)
    (expand : Scope → List Node → Except Error (List Node)) (scope : Scope) (key : String) :
    List Node → Except Error (List Node)
  | [] => .ok []
  | .element head children :: nodes =>
    -- The markers inside were replaced when those around the choice were.
    if head.name = key then runActions t ctx expand scope children
    else runBranch t ctx expand scope key nodes
  | _ :: nodes => runBranch t ctx expand scope key nodes

end

/-- Expands the nodes of a body in a scope, with loops nested at most so deep. -/
def expand (t : Template) (ctx : Context) : Nat → Scope → List Node → Except Error (List Node)
  | 0, _, _ => .error .loopLimit
  | limit + 1, scope, nodes => do
    -- The body of a loop comes past here with the nodes around it, and again in each iteration.
    let nodes ← substitute t scope nodes
    runActions t ctx (expand t ctx limit) scope nodes

/-- Expands the element that holds a body: the markers of its own attributes are replaced too. -/
def expandElement (t : Template) (ctx : Context) (limit : Nat) (scope : Scope) (e : Element) :
    Except Error Element := do
  let head ← substituteHead t scope e.head
  let children ← expand t ctx limit scope e.children
  return ⟨head, children⟩

end Expansion

namespace Template

open Markup (Element)

/-- The body of the template with the values of an instance in it. -/
def apply (t : Template) (ctx : Context) (e : Element) : Except Error Element := do
  let bound ← t.bind ctx e
  Expansion.expandElement t ctx (ctx.loopLimit + 1) (Scope.ofParams bound) t.content

/-- The markers left in the texts of an element. -/
def unresolved (e : Element) : List String :=
  (textsOfElement e).flatMap Segment.markers

end Template
end Letterpress
