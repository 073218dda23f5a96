import Letterpress.Formula.Parser
import Letterpress.Value

/-! What can go wrong with a template, an instance or a page: the causes, and their wording. -/

namespace Letterpress

/-- Why a declaration is refused. -/
inductive SchemaFault where
  | notParam (markup : String)
  | noName (markup : String)
  | emptyName
  | noType
  | emptyType
  | unknownForm (form : String)
  | unknownType (type : String)
  | badRequired (value : String)
  | listText
  | listSecond (markup : String)
  | listEmpty
  | recordText
  | recordDuplicate (field : String)
  | recordEmpty
  | rootElement (found : String)
  | notTemplate (found : String)
  | textBetweenTemplates
  | unnamedTemplate (markup : String)
  | templateText
  | duplicateParam (param : String)
  | secondContent
  | notDeclaration (found : String)
  | noContent
  deriving Repr, DecidableEq

/-- The fault in words. -/
def SchemaFault.message : SchemaFault → String
  | notParam markup => s!"unexpected element (expected 'param'): {markup}"
  | noName markup => s!"missing 'name' attribute: {markup}"
  | emptyName => "empty 'name' attribute"
  | noType => "missing 'type' attribute"
  | emptyType => "empty 'type' attribute"
  | unknownForm form => s!"invalid text subtype '{form}'"
  | unknownType type => s!"unrecognized param type '{type}'"
  | badRequired value => s!"'required' must be 'true' or 'false', got '{value}'"
  | listText => "list params may only contain a single <param>"
  | listSecond markup => s!"expected only one child for list type: {markup}"
  | listEmpty => "no child type for list"
  | recordText => "struct params may only contain <param> fields"
  | recordDuplicate field => s!"duplicate struct field '{field}'"
  | recordEmpty => "struct has no fields"
  | rootElement found => s!"root element must be <template> or <templates>, found <{found}>"
  | notTemplate found => s!"expected <template>, found <{found}>"
  | textBetweenTemplates => "unexpected text between templates"
  | unnamedTemplate markup => s!"template is missing a 'name' attribute: {markup}"
  | templateText => "unexpected text in template declaration"
  | duplicateParam param => s!"duplicate param '{param}'"
  | secondContent => "more than one <content> element"
  | notDeclaration found => s!"unexpected element <{found}> (expected <param> or <content>)"
  | noContent => "missing <content> element"

/-- Why the content of an instance does not fit its declaration. -/
inductive ContentFault where
  | notText
  | childCount (count : Nat)
  | notInteger (text : String)
  | notFloat (text : String)
  | noFile (text : String)
  | notDate (text : String)
  | malformedMarkdown
  | wrongItem (expected found : String)
  | textItem (expected : String)
  | textField
  | unknownField (field : String)
  | duplicateField (field : String)
  | missingField (field : String)
  | textParam
  | duplicateParam
  deriving Repr, DecidableEq

/-- The fault in words. -/
def ContentFault.message : ContentFault → String
  | notText => "expected plain text"
  | childCount count => s!"expected one child, got {count}"
  | notInteger text => s!"not a valid integer: {text}"
  | notFloat text => s!"not a valid float: {text}"
  | noFile text => s!"file does not exist: {text}"
  | notDate text => s!"not a valid date (expected YYYY-MM-DD): {text}"
  | malformedMarkdown => "markdown produced malformed markup: malformed XML: not well formed"
  | wrongItem expected found => s!"unexpected node (expected '{expected}'): {found}"
  | textItem expected => s!"unexpected text (expected '{expected}')"
  | textField => "unexpected text between struct fields"
  | unknownField field => s!"unknown field '{field}'"
  | duplicateField field => s!"duplicate field '{field}'"
  | missingField field => s!"missing field '{field}'"
  | textParam => "unexpected text in template instance"
  | duplicateParam => "parameter supplied more than once"

/-- Why a formula has no value. -/
inductive FormulaFault where
  | unreadable (fault : Formula.Fault)
  | notRenderable (path : List String) (fault : Value.Fault)
  | notANumber (text : String)
  deriving Repr, DecidableEq

/-- The fault in words. -/
def FormulaFault.message : FormulaFault → String
  | unreadable fault => fault.message
  | notRenderable path fault => s!"'{Formula.pathText path}': {fault.message}"
  | notANumber text => s!"'{text}' is not a number"

/-- Elements of a template that are replaced by what they compute. -/
inductive Action where
  | forEach
  | choose
  deriving Repr, DecidableEq

/-- The name of the elements that stand for an action. -/
def Action.tag : Action → String
  | forEach => "ForEach"
  | choose => "Match"

/-- The action that elements of this name stand for. -/
def Action.ofTag? (tag : String) : Option Action :=
  [forEach, choose].find? (·.tag == tag)

/-- Why an action cannot run. -/
inductive ActionFault where
  | noList
  | notDeclaredAsList (list : String)
  | undeclaredList (list : String)
  | unknownPredicate (name : String)
  | noKey
  | ambiguous (key : String)
  deriving Repr, DecidableEq

/-- The fault in words. -/
def ActionFault.message : ActionFault → String
  | noList => "missing 'list' attribute"
  | notDeclaredAsList list => s!"'{list}' holds a list but is not declared as a list parameter"
  | undeclaredList list => s!"no list parameter named '{list}' is declared"
  | unknownPredicate name => s!"unknown predicate '{name}'"
  | noKey => "requires either an 'f' or a 'value' attribute"
  | ambiguous key => s!"more than one branch matches '{key}'"

/-- Why a document cannot be read. -/
inductive DocumentFault where
  | notWellFormed
  | notAPage (found : String)
  deriving Repr, DecidableEq

/-- The fault in words. -/
def DocumentFault.message : DocumentFault → String
  | notWellFormed => "not well formed"
  | notAPage found => s!"expected a <page> root element, found <{found}>"

/-- What went wrong, and where. The loop limit ends an expansion that nests its loops too deep. -/
inductive Error where
  | schema (name : String) (fault : SchemaFault)
  | content (param type : String) (fault : ContentFault) (markup : String)
  | unknownElement (template tag markup : String)
  | missingParameter (template param : String)
  | formula (text : String) (fault : FormulaFault)
  | duplicateTemplate (name : String)
  | action (act : Action) (fault : ActionFault) (markup : String)
  | recursionLimit (limit : Nat)
  | loopLimit
  | document (fault : DocumentFault)
  deriving Repr, DecidableEq

/-- The error in words. -/
def Error.message : Error → String
  | schema name fault => s!"invalid declaration '{name}': {fault.message}"
  | content param type fault markup =>
    s!"failed to parse parameter '{param}/{type}': {fault.message}\n{markup}"
  | unknownElement template tag markup =>
    s!"unknown element <{tag}> in instance of template '{template}'\n{markup}"
  | missingParameter template param =>
    s!"missing required parameter '{param}' for template '{template}'"
  | formula text fault => s!"invalid formula '{text}': {fault.message}"
  | duplicateTemplate name => s!"template '{name}' is already registered"
  | action act fault markup => s!"{act.tag} failed: {fault.message}\n{markup}"
  | recursionLimit limit =>
    s!"template expansion exceeded the depth limit of {limit} (is a template instantiating itself?)"
  | loopLimit => "loops are nested too deep (does a loop body contain itself?)"
  | document fault => s!"malformed XML: {fault.message}"

end Letterpress
