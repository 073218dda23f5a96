import Letterpress.Template.Loading

/-! Registries of templates under distinct names. The first template of a name keeps it. -/

namespace Letterpress

/-- The registered templates, in the order of their registration. -/
structure Registry where
  templates : List Template := []
  deriving Repr

namespace Registry

/-- The template of this name. -/
def get? (r : Registry) (name : String) : Option Template :=
  r.templates.find? (·.name == name)

/-- The number of templates. -/
def size (r : Registry) : Nat :=
  r.templates.length

/-- Adds a template, unless its name is taken. -/
def register (r : Registry) (t : Template) : Except Error Registry :=
  if (r.get? t.name).isSome then .error (.duplicateTemplate t.name)
  else .ok ⟨r.templates ++ [t]⟩

/-- Adds templates up to the first whose name is taken, which is the error. -/
def registerAll (r : Registry) : List Template → Registry × Except Error Unit
  | [] => (r, .ok ())
  | t :: templates =>
    match r.register t with
    | .ok r => r.registerAll templates
    | .error e => (r, .error e)

/-- Loads a file and adds its templates. A file that cannot be read adds none. -/
def loadFile (r : Registry) (file text : String) : Registry × Except Error (List Template) :=
  match Template.load file text with
  | .error e => (r, .error e)
  | .ok templates =>
    match r.registerAll templates with
    | (r, .ok ()) => (r, .ok templates)
    | (r, .error e) => (r, .error e)

end Registry
end Letterpress
