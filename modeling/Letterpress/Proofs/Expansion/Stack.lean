import Letterpress.Proofs.Expansion.Basic

/-! The expansion on one stack of bindings that all its functions share. A loop pushes a layer for each
    iteration, binds its variables there, and pops the layer when the iteration is over, also if it ended
    in an error. Every function leaves the stack as it found it and comes to what its counterpart comes to
    in a scope of its own. So the nodes of a list and the iterations of a loop know nothing of each other,
    except that an error in a marker of a later node comes before one in an action of an earlier node. -/

namespace Letterpress
namespace Expansion
open Markup (Node Element Head)

/-- A computation on the stack of bindings. It leaves a stack even where it ends in an error. -/
abbrev OnStack (α : Type) := ExceptT Error (StateM Scope) α

namespace OnStack

variable {α β : Type}

/-- The result of the computation from this stack on, and the stack that it leaves. -/
def runFrom (x : OnStack α) (stack : Scope) : Except Error α × Scope :=
  (ExceptT.run x).run stack

/-- What the bindings of the stack come to. -/
def reading (f : Scope → Except Error α) : OnStack α := do
  let stack ← get
  MonadExcept.ofExcept (f stack)

/-- The result of the computation, even if it is an error. -/
def result (x : OnStack α) : OnStack (Except Error α) :=
  ExceptT.lift (ExceptT.run x)

/-! ### Markers

Each function has the name of its counterpart, which is given the scope as an argument. -/

def joinSegments (t : Template) : List Segment → OnStack String
  | [] => return ""
  | .literal text :: segments => do
    let rest ← joinSegments t segments
    return text ++ rest
  | .marker raw formula :: segments => do
    let outcome ← reading fun stack => evaluate t stack formula
    let rest ← joinSegments t segments
    return outcome.textOr raw ++ rest

def spliceSegments (t : Template) (pending : String) : List Segment → OnStack (List Node)
  | [] => return textNodes pending
  | .literal text :: segments => spliceSegments t (pending ++ text) segments
  | .marker raw formula :: segments => do
    match fragment? t (← get) formula with
    | some nodes =>
      let rest ← spliceSegments t "" segments
      return textNodes pending ++ nodes ++ rest
    | none =>
      let outcome ← reading fun stack => evaluate t stack formula
      spliceSegments t (pending ++ outcome.textOr raw) segments

def splice (t : Template) (text : String) : OnStack (List Node) :=
  if (Segment.markers text).isEmpty then return [.text text]
  else spliceSegments t "" (Segment.split text)

def substituteAttributes (t : Template) : List (String × String) → OnStack (List (String × String))
  | [] => return []
  | (name, value) :: attributes => do
    let value ← joinSegments t (Segment.split value)
    let attributes ← substituteAttributes t attributes
    return (name, value) :: attributes

def substituteHead (t : Template) (head : Head) : OnStack Head := do
  let attributes ← substituteAttributes t head.attributes
  return { head with attributes }

mutual

def substituteNode (t : Template) : Node → OnStack (List Node)
  | .element head children => do
    let head ← substituteHead t head
    let children ← substitute t children
    return [.element head children]
  | .text content => splice t content
  | node => return [node]

def substitute (t : Template) : List Node → OnStack (List Node)
  | [] => return []
  | node :: nodes => do
    let front ← substituteNode t node
    let rest ← substitute t nodes
    return front ++ rest

end

/-! ### Actions -/

/-- One iteration of a loop: its variables are bound in a layer of its own, which is dropped before an
    error of the body goes on. -/
def iteration (body : OnStack (List Node)) (index item : String) (number : Nat) (value : Value) :
    OnStack (List Node) := do
  modify Scope.push
  modify fun stack => stack.bind index (.text (toString number))
  modify fun stack => stack.bind item value
  let nodes ← result body
  modify Scope.pop
  MonadExcept.ofExcept nodes

/-- The nodes of the iterations for the values, the first of which has this number. -/
def iterate (body : OnStack (List Node)) (index item : String) : Nat → List Value → OnStack (List Node)
  | _, [] => return []
  | number, value :: values => do
    let front ← iteration body index item number value
    let rest ← iterate body index item (number + 1) values
    return front ++ rest

/-- Runs a loop; `expand` expands its body. -/
def runLoop (t : Template) (expand : List Node → OnStack (List Node)) (e : Element) : OnStack (List Node) := do
  let list ← MonadExcept.ofExcept (loopList e)
  let path := Text.split (· == '.') list
  match items? (← get) path with
  | none => return []
  | some items =>
    let item ← MonadExcept.ofExcept (itemName t e list path)
    let nodes ← iterate (expand e.children) (loopIndex e) item 1 items
    return wrap e nodes

mutual

def runNode (t : Template) (ctx : Context) (expand : List Node → OnStack (List Node)) : Node → OnStack (List Node)
  | .element head children =>
    match Action.ofTag? head.name with
    | some .forEach => runLoop t expand ⟨head, children⟩
    | some .choose => do
      let key ← MonadExcept.ofExcept (choiceKey ctx ⟨head, children⟩)
      if 1 < (children.filter (isNamed key)).length then
        throw (.action .choose (.ambiguous key) (Element.mk head children).outer)
      runBranch t ctx expand key children
    | none => do
      let children ← runActions t ctx expand children
      return [.element head children]
  | node => return [node]

def runActions (t : Template) (ctx : Context) (expand : List Node → OnStack (List Node)) :
    List Node → OnStack (List Node)
  | [] => return []
  | node :: nodes => do
    let front ← runNode t ctx expand node
    let rest ← runActions t ctx expand nodes
    return front ++ rest

def runBranch (t : Template) (ctx : Context) (expand : List Node → OnStack (List Node)) (key : String) :
    List Node → OnStack (List Node)
  | [] => return []
  | .element head children :: nodes =>
    if head.name = key then runActions t ctx expand children
    else runBranch t ctx expand key nodes
  | _ :: nodes => runBranch t ctx expand key nodes

end

def expand (t : Template) (ctx : Context) : Nat → List Node → OnStack (List Node)
  | 0, _ => throw .loopLimit
  | limit + 1, nodes => do
    let nodes ← substitute t nodes
    runActions t ctx (expand t ctx limit) nodes

def expandElement (t : Template) (ctx : Context) (limit : Nat) (e : Element) : OnStack Element := do
  let head ← substituteHead t e.head
  let children ← expand t ctx limit e.children
  return ⟨head, children⟩

end OnStack

/-! ### The stack afterwards -/

namespace OnStack

variable {α β : Type}

theorem runFrom_get (y : Scope → OnStack α) (stack : Scope) :
    (get >>= y).runFrom stack = (y stack).runFrom stack := rfl

theorem runFrom_bind (x : OnStack α) (y : α → OnStack β) (stack : Scope) :
    (x >>= y).runFrom stack = match x.runFrom stack with
      | (.ok a, left) => (y a).runFrom left
      | (.error fault, left) => (.error fault, left) := by
  show (ExceptT.bindCont y (x.runFrom stack).1).run (x.runFrom stack).2 = _
  rcases x.runFrom stack with ⟨_ | a, left⟩ <;> rfl

/-- The layer of an iteration is dropped from whatever stack the body leaves. -/
theorem runFrom_iteration (body : OnStack (List Node)) (index item : String) (number : Nat) (value : Value)
    (stack : Scope) :
    (iteration body index item number value).runFrom stack =
      ((body.runFrom (iterationScope stack index item number value)).1,
        (body.runFrom (iterationScope stack index item number value)).2.pop) := by
  show (MonadExcept.ofExcept (body.runFrom (iterationScope stack index item number value)).1 :
    OnStack (List Node)).runFrom (body.runFrom (iterationScope stack index item number value)).2.pop = _
  cases (body.runFrom (iterationScope stack index item number value)).1 <;> rfl

end OnStack

/-- From any stack on, the computation comes to what the function comes to in the scope with those
    bindings, and leaves the stack as it was. -/
def Mirrors {α : Type} (x : OnStack α) (f : Scope → Except Error α) : Prop :=
  ∀ stack, x.runFrom stack = (f stack, stack)

namespace Mirrors

variable {α β : Type} {x : OnStack α} {f : Scope → Except Error α}

theorem pure (a : α) : Mirrors (Pure.pure a) fun _ => .ok a := fun _ => rfl

theorem ofExcept (found : Except Error α) : Mirrors (MonadExcept.ofExcept found) fun _ => found := by
  intro stack
  cases found <;> rfl

theorem reading (f : Scope → Except Error α) : Mirrors (OnStack.reading f) f :=
  fun stack => ofExcept (f stack) stack

theorem bind {y : α → OnStack β} {g : Scope → α → Except Error β} (hx : Mirrors x f)
    (hy : ∀ a, Mirrors (y a) fun stack => g stack a) : Mirrors (x >>= y) fun stack => f stack >>= g stack := by
  intro stack
  show (x >>= y).runFrom stack = (f stack >>= g stack, stack)
  rw [OnStack.runFrom_bind, hx stack]
  cases f stack with
  | error fault => rfl
  | ok a => exact hy a stack

theorem iteration {body : OnStack (List Node)} {f : Scope → Except Error (List Node)} (h : Mirrors body f)
    (index item : String) (number : Nat) (value : Value) :
    Mirrors (OnStack.iteration body index item number value) fun stack =>
      f (iterationScope stack index item number value) := by
  intro stack
  have hbody := h (iterationScope stack index item number value)
  have hpop : (iterationScope stack index item number value).pop = stack := rfl
  rw [OnStack.runFrom_iteration, hbody, hpop]

variable {t : Template} {ctx : Context}

theorem joinSegments (segments : List Segment) :
    Mirrors (OnStack.joinSegments t segments) fun stack => Expansion.joinSegments t stack segments := by
  induction segments with
  | nil => exact pure ""
  | cons segment segments ih =>
    cases segment with
    | literal text => exact ih.bind fun rest => pure (text ++ rest)
    | marker raw formula => exact (reading _).bind fun outcome => ih.bind fun rest => pure (outcome.textOr raw ++ rest)

theorem spliceSegments (segments : List Segment) (pending : String) :
    Mirrors (OnStack.spliceSegments t pending segments) fun stack =>
      Expansion.spliceSegments t stack pending segments := by
  induction segments generalizing pending with
  | nil => exact pure (textNodes pending)
  | cons segment segments ih =>
    cases segment with
    | literal text => exact ih (pending ++ text)
    | marker raw formula =>
      intro stack
      rw [OnStack.spliceSegments, OnStack.runFrom_get]
      simp only [Expansion.spliceSegments]
      cases fragment? t stack formula with
      | none =>
        have heval := @reading Outcome fun stack => evaluate t stack formula
        exact heval.bind (fun outcome => ih (pending ++ outcome.textOr raw)) stack
      | some nodes => exact (ih "").bind (fun rest => pure (textNodes pending ++ nodes ++ rest)) stack

theorem splice (text : String) : Mirrors (OnStack.splice t text) fun stack => Expansion.splice t stack text := by
  unfold OnStack.splice Expansion.splice
  split
  · exact fun _ => rfl
  · exact spliceSegments (Segment.split text) ""

theorem substituteAttributes (attributes : List (String × String)) :
    Mirrors (OnStack.substituteAttributes t attributes) fun stack =>
      Expansion.substituteAttributes t stack attributes := by
  induction attributes with
  | nil => exact pure []
  | cons first attributes ih =>
    obtain ⟨name, value⟩ := first
    exact (joinSegments (Segment.split value)).bind fun value => ih.bind fun rest => pure ((name, value) :: rest)

theorem substituteHead (head : Head) :
    Mirrors (OnStack.substituteHead t head) fun stack => Expansion.substituteHead t stack head :=
  (substituteAttributes head.attributes).bind fun attributes => pure { head with attributes }

mutual

theorem substituteNode : ∀ node : Node,
    Mirrors (OnStack.substituteNode t node) fun stack => Expansion.substituteNode t stack node
  | .element head children =>
    (substituteHead head).bind fun head => (substitute children).bind fun children =>
      pure [Node.element head children]
  | .text content => splice content
  | .cdata _ | .comment _ | .instruction _ _ => fun _ => rfl

theorem substitute : ∀ nodes : List Node,
    Mirrors (OnStack.substitute t nodes) fun stack => Expansion.substitute t stack nodes
  | [] => pure []
  | node :: nodes => (substituteNode node).bind fun front => (substitute nodes).bind fun rest => pure (front ++ rest)

end

section
variable {body : List Node → OnStack (List Node)} {run : Scope → List Node → Except Error (List Node)}

theorem iterate {x : OnStack (List Node)} {f : Scope → Except Error (List Node)} (h : Mirrors x f)
    (index item : String) (values : List Value) (number : Nat) :
    Mirrors (OnStack.iterate x index item number values) fun stack =>
      Expansion.iterate f stack index item number values := by
  induction values generalizing number with
  | nil => exact pure []
  | cons value values ih =>
    exact (iteration h index item number value).bind fun front => (ih (number + 1)).bind fun rest =>
      pure (front ++ rest)

theorem runLoop (h : ∀ nodes, Mirrors (body nodes) fun stack => run stack nodes) (e : Element) :
    Mirrors (OnStack.runLoop t body e) fun stack => Expansion.runLoop t run stack e := by
  refine (ofExcept (loopList e)).bind fun list stack => ?_
  rw [OnStack.runFrom_get]
  dsimp only
  cases items? stack (Text.split (· == '.') list) with
  | none => exact pure [] stack
  | some items =>
    exact (ofExcept (itemName t e list (Text.split (· == '.') list))).bind (fun item =>
      (iterate (h e.children) (loopIndex e) item items 1).bind fun nodes => pure (wrap e nodes)) stack

mutual

theorem runNode (h : ∀ nodes, Mirrors (body nodes) fun stack => run stack nodes) : ∀ node : Node,
    Mirrors (OnStack.runNode t ctx body node) fun stack => Expansion.runNode t ctx run stack node
  | .element head children => by
    unfold OnStack.runNode Expansion.runNode
    cases Action.ofTag? head.name with
    | none => exact (runActions h children).bind fun children => pure [Node.element head children]
    | some action =>
      cases action with
      | forEach => exact runLoop h ⟨head, children⟩
      | choose =>
        refine (ofExcept (choiceKey ctx ⟨head, children⟩)).bind fun key => ?_
        by_cases hn : 1 < (children.filter (isNamed key)).length
        · simp only [if_pos hn]
          exact fun _ => rfl
        · simp only [if_neg hn]
          exact runBranch h key children
  | .text _ | .cdata _ | .comment _ | .instruction _ _ => fun _ => rfl

theorem runActions (h : ∀ nodes, Mirrors (body nodes) fun stack => run stack nodes) : ∀ nodes : List Node,
    Mirrors (OnStack.runActions t ctx body nodes) fun stack => Expansion.runActions t ctx run stack nodes
  | [] => pure []
  | node :: nodes => (runNode h node).bind fun front => (runActions h nodes).bind fun rest => pure (front ++ rest)

theorem runBranch (h : ∀ nodes, Mirrors (body nodes) fun stack => run stack nodes) (key : String) :
    ∀ nodes : List Node,
      Mirrors (OnStack.runBranch t ctx body key nodes) fun stack => Expansion.runBranch t ctx run stack key nodes
  | [] => pure []
  | .element head children :: nodes => by
    unfold OnStack.runBranch Expansion.runBranch
    split
    · exact runActions h children
    · exact runBranch h key nodes
  | .text _ :: nodes | .cdata _ :: nodes | .comment _ :: nodes | .instruction _ _ :: nodes => runBranch h key nodes

end

end

theorem expand (limit : Nat) (nodes : List Node) :
    Mirrors (OnStack.expand t ctx limit nodes) fun stack => Expansion.expand t ctx limit stack nodes := by
  induction limit generalizing nodes with
  | zero => exact fun _ => rfl
  | succ limit ih => exact (substitute nodes).bind fun nodes => runActions ih nodes

theorem expandElement (limit : Nat) (e : Element) :
    Mirrors (OnStack.expandElement t ctx limit e) fun stack => Expansion.expandElement t ctx limit stack e :=
  (substituteHead e.head).bind fun head => (expand limit e.children).bind fun children => pure (Element.mk head children)

end Mirrors

/-! ### One after the other -/

section
variable {t : Template} {ctx : Context} {scope : Scope} {run : Scope → List Node → Except Error (List Node)}

theorem flatten_mapM_cons {ε α β : Type} (f : α → Except ε (List β)) (a : α) (as : List α) :
    List.flatten <$> (a :: as).mapM f =
      f a >>= fun front => List.flatten <$> as.mapM f >>= fun rest => .ok (front ++ rest) := by
  rw [List.mapM_cons]
  cases f a with
  | error fault => rfl
  | ok front => cases as.mapM f <;> rfl

/-- What takes the nodes of a list one after the other comes to what it makes of each of them alone, or to the
    error of the first that fails. -/
theorem Distributes.eq_mapM {f : List Node → Except Error (List Node)} (hf : Distributes f) (hnil : f [] = .ok [])
    (nodes : List Node) : f nodes = List.flatten <$> nodes.mapM fun node => f [node] := by
  induction nodes with
  | nil => exact hnil
  | cons node nodes ih =>
    rw [flatten_mapM_cons, ← ih]
    exact hf [node] nodes

/-- Of two steps over a list the first takes all nodes before the second takes any: an error of the first step
    at any node comes before all errors of the second. -/
theorem Distributes.andThen_eq {f g : List Node → Except Error (List Node)} (hf : Distributes f) (hfnil : f [] = .ok [])
    (hg : Distributes g) (hgnil : g [] = .ok []) (nodes : List Node) :
    f nodes >>= g = (nodes.mapM fun node => f [node]) >>= fun _ =>
      List.flatten <$> nodes.mapM fun node => f [node] >>= g := by
  rw [hf.eq_mapM hfnil]
  cases h : nodes.mapM fun node => f [node] with
  | error fault => rfl
  | ok middles =>
    -- The first step is through with all nodes, so any error from here on is one of the second.
    show g middles.flatten = List.flatten <$> nodes.mapM fun node => f [node] >>= g
    induction nodes generalizing middles with
    | nil =>
      cases h
      exact hgnil
    | cons node nodes ih =>
      obtain ⟨front, rest, hfront, hrest, rfl⟩ := mapM_cons_eq_ok.mp h
      rw [flatten_mapM_cons, ← ih rest hrest, hfront]
      exact hg front rest.flatten

theorem substitute_eq_mapM (nodes : List Node) :
    substitute t scope nodes = List.flatten <$> nodes.mapM fun node => substitute t scope [node] :=
  (distributes_substitute scope).eq_mapM rfl nodes

theorem runActions_eq_mapM (nodes : List Node) :
    runActions t ctx run scope nodes = List.flatten <$> nodes.mapM fun node => runActions t ctx run scope [node] :=
  (distributes_runActions scope).eq_mapM rfl nodes

theorem expand_eq_mapM {limit : Nat} (nodes : List Node) :
    expand t ctx (limit + 1) scope nodes = (nodes.mapM fun node => substitute t scope [node]) >>= fun _ =>
      List.flatten <$> nodes.mapM fun node => expand t ctx (limit + 1) scope [node] :=
  (distributes_substitute scope).andThen_eq rfl (distributes_runActions scope) rfl nodes

theorem iterate_eq_mapM (f : Scope → Except Error (List Node)) (index item : String) (values : List Value)
    (number : Nat) :
    iterate f scope index item number values = List.flatten <$>
      (values.zipIdx number).mapM fun (value, number) => f (iterationScope scope index item number value) := by
  induction values generalizing number with
  | nil => rfl
  | cons value values ih =>
    rw [List.zipIdx_cons, flatten_mapM_cons, ← ih]
    rfl

end

/-- On the shared stack every function of the expansion comes to what it comes to in a scope of its own and
    leaves the stack as it found it, with a result and with an error; so does the application of a template. A
    list of nodes comes in each step to what its nodes come to one by one from the same bindings, or to the
    error of the first that fails. Both steps together replace all markers before any action is run: if the
    markers of some node fail, the first of these errors wins, and else the nodes come to what they come to one
    by one, or to the error of the first whose actions fail. And a loop comes to what its body comes to in one
    new layer for each item, with the number of the iteration and then the item bound in it, or to the error of
    the first iteration that fails. -/
theorem expansion_leaves_stack (t : Template) (ctx : Context) (limit : Nat) :
    ((∀ node, Mirrors (OnStack.substituteNode t node) fun stack => substituteNode t stack node) ∧
      (∀ nodes, Mirrors (OnStack.substitute t nodes) fun stack => substitute t stack nodes) ∧
      (∀ node, Mirrors (OnStack.runNode t ctx (OnStack.expand t ctx limit) node) fun stack =>
        runNode t ctx (expand t ctx limit) stack node) ∧
      (∀ nodes, Mirrors (OnStack.runActions t ctx (OnStack.expand t ctx limit) nodes) fun stack =>
        runActions t ctx (expand t ctx limit) stack nodes) ∧
      (∀ e, Mirrors (OnStack.runLoop t (OnStack.expand t ctx limit) e) fun stack =>
        runLoop t (expand t ctx limit) stack e) ∧
      (∀ nodes, Mirrors (OnStack.expand t ctx limit nodes) fun stack => expand t ctx limit stack nodes) ∧
      (∀ e, Mirrors (OnStack.expandElement t ctx limit e) fun stack => expandElement t ctx limit stack e) ∧
      ∀ e, t.apply ctx e = t.bind ctx e >>= fun bound =>
        ((OnStack.expandElement t ctx (ctx.loopLimit + 1) t.content).runFrom (Scope.ofParams bound)).1) ∧
    (∀ stack nodes, ((OnStack.substitute t nodes).runFrom stack).1 =
      List.flatten <$> nodes.mapM fun node => ((OnStack.substitute t [node]).runFrom stack).1) ∧
    (∀ stack nodes, ((OnStack.runActions t ctx (OnStack.expand t ctx limit) nodes).runFrom stack).1 =
      List.flatten <$> nodes.mapM fun node =>
        ((OnStack.runActions t ctx (OnStack.expand t ctx limit) [node]).runFrom stack).1) ∧
    (∀ stack nodes, ((OnStack.expand t ctx (limit + 1) nodes).runFrom stack).1 =
      (nodes.mapM fun node => ((OnStack.substitute t [node]).runFrom stack).1) >>= fun _ =>
        List.flatten <$> nodes.mapM fun node => ((OnStack.expand t ctx (limit + 1) [node]).runFrom stack).1) ∧
    ∀ stack e items item, RunsOver t stack e items item →
      ((OnStack.runLoop t (OnStack.expand t ctx limit) e).runFrom stack).1 =
        (fun outs => wrap e outs.flatten) <$> (items.zipIdx 1).mapM fun (value, number) =>
          ((OnStack.expand t ctx limit e.children).runFrom
            ((stack.push.bind (loopIndex e) (.text (toString number))).bind item value)).1 := by
  have hexpand := @Mirrors.expand t ctx limit
  refine ⟨⟨Mirrors.substituteNode, Mirrors.substitute, Mirrors.runNode hexpand, Mirrors.runActions hexpand,
    Mirrors.runLoop hexpand, hexpand, Mirrors.expandElement limit, ?_⟩, ?_, ?_, ?_, ?_⟩
  · intro e
    simp only [Mirrors.expandElement _ _ _]
    rfl
  · intro stack nodes
    simp only [Mirrors.substitute _ stack]
    exact substitute_eq_mapM nodes
  · intro stack nodes
    simp only [Mirrors.runActions hexpand _ stack]
    exact runActions_eq_mapM nodes
  · intro stack nodes
    simp only [Mirrors.expand (limit + 1) _ stack, Mirrors.substitute _ stack]
    exact expand_eq_mapM nodes
  · intro stack e items item h
    simp only [Mirrors.runLoop hexpand e stack, hexpand _ _, runLoop_of_runsOver h, iterate_eq_mapM,
      bind_map_left]
    exact bind_pure_comp _ _

/-- A loop over records, which are written by their `text` fields. -/
def fairsLoop : Element :=
  ⟨{ name := "ForEach", attributes := [("list", "events")] }, [.text "{{__iter}}. {{event}} "]⟩

def fairs : Template where
  name := "fairs"
  params := [.list "events" true (.record "event" true [.text "text" false .generic, .text "day" false .generic])]
  content := ⟨{ name := "content" }, [.element fairsLoop.head fairsLoop.children]⟩
  formulas := [("__iter", .var ["__iter"]), ("event", .var ["event"])]

/-- The second event has no text. -/
def fairsScope : Scope :=
  Scope.ofParams [("events", .list [.record [("text", .text "fair")], .record [("day", .text "12")]])]

theorem fairs_fail_at_second_event :
    (OnStack.runLoop fairs (OnStack.expand fairs emptySite 1) fairsLoop).runFrom fairsScope =
      (.error (.formula "event" (.notRenderable ["event"] .noTextField)), fairsScope) := by
  obtain ⟨⟨-, -, -, -, hloop, -, -, -⟩, -, -, -, hitems⟩ := expansion_leaves_stack fairs emptySite 1
  have hstack := congrArg Prod.snd (hloop fairsLoop fairsScope)
  have hruns : RunsOver fairs fairsScope fairsLoop
      [.record [("text", .text "fair")], .record [("day", .text "12")]] "event" := ⟨"events", rfl, rfl, rfl⟩
  have hresult := hitems fairsScope fairsLoop _ _ hruns
  exact Prod.ext (hresult.trans (eq_error_of_fault? (by decide +kernel))) hstack

/-- A loop that names no list, before the marker of a list, which has no text. -/
def roster : Template where
  name := "roster"
  params := [.list "names" true (.text "name" true .generic)]
  content := ⟨{ name := "content" }, [.element { name := "ForEach" } [], .text "{{names}}"]⟩
  formulas := [("names", .var ["names"])]

def rosterScope : Scope :=
  Scope.ofParams [("names", .list [.text "ada"])]

/-- The loop stands first, but the marker behind it fails first. -/
theorem marker_fails_before_loop :
    ((OnStack.expand roster emptySite 1 roster.content.children).runFrom rosterScope).1 =
        .error (.formula "names" (.notRenderable ["names"] .listAsText)) ∧
      (List.flatten <$> roster.content.children.mapM fun node =>
          ((OnStack.expand roster emptySite 1 [node]).runFrom rosterScope).1) =
        .error (.action .forEach .noList "<ForEach />") := by
  simp only [Mirrors.expand _ _ _]
  exact ⟨eq_error_of_fault? (by decide +kernel), eq_error_of_fault? (by decide +kernel)⟩

end Expansion
end Letterpress
