import Letterpress.Formula.Parser

/-! Precedence trees. A formula is written without parentheses, so its tokens alone have to say what its
    tree is: below every operation, the left operand binds at least as tightly and the right operand more
    tightly. At most one tree of this kind has given tokens from left to right, and the stack of the parser
    finds it whenever operands and operators take turns.

    The invariant of the stack is `Stacked`: the operators bind the more tightly the later they came, and
    every operand fits between its neighbours. A stack that has an operator then also has its operands, so
    no operation is ever made of too few. -/

namespace Letterpress

/-- The token is an operand. -/
def Token.IsOperand : Token → Prop
  | .symbol _ => False
  | _ => True

namespace Formula

/-- The operands and operators of a formula from left to right. -/
def tokens : Formula → List Token
  | var path => [.name path]
  | constant text => [.number text]
  | binary op left right => left.tokens ++ .symbol op.symbol :: right.tokens

/-- The operator of the outermost operation. -/
def root? : Formula → Option Operator
  | binary op _ _ => some op
  | _ => none

/-- The left operand of every operation binds at least as tightly as the operation, and the right operand
    more tightly. -/
def IsPrecedenceTree : Formula → Prop
  | binary op left right =>
    (∀ o ∈ left.root?, op.precedence ≤ o.precedence) ∧ (∀ o ∈ right.root?, op.precedence < o.precedence) ∧
      left.IsPrecedenceTree ∧ right.IsPrecedenceTree
  | _ => True

/-- Operands and known operators take turns, with an operand first and last. -/
inductive Alternates : List Token → Prop
  | one {token : Token} (operand : token.IsOperand) : Alternates [token]
  | more {token : Token} {op : Operator} {tokens : List Token} (operand : token.IsOperand)
      (rest : Alternates tokens) : Alternates (token :: .symbol op.symbol :: tokens)

theorem Alternates.append {op : Operator} {a b : List Token} (ha : Alternates a) (hb : Alternates b) :
    Alternates (a ++ .symbol op.symbol :: b) := by
  induction ha with
  | one h => exact .more h hb
  | more h _ ih => exact .more h ih

theorem alternates_tokens (e : Formula) : Alternates e.tokens := by
  induction e with
  | var path => exact .one trivial
  | constant text => exact .one trivial
  | binary op left right ihl ihr => exact ihl.append ihr

theorem tokens_ne_nil (e : Formula) : e.tokens ≠ [] := by
  intro h
  have := alternates_tokens e
  rw [h] at this
  cases this

/-! ### One tree for given tokens -/

/-- What the outermost operation says about tightness holds of every operator of the tree. -/
theorem le_precedence_of_mem {e : Formula} {n : Nat} {op : Operator} (he : e.IsPrecedenceTree)
    (hroot : ∀ o ∈ e.root?, n ≤ o.precedence) (hm : .symbol op.symbol ∈ e.tokens) : n ≤ op.precedence := by
  induction e with
  | var path => simp [tokens] at hm
  | constant text => simp [tokens] at hm
  | binary top left right ihl ihr =>
    obtain ⟨hl, hr, htl, htr⟩ := he
    have htop : n ≤ top.precedence := hroot top rfl
    simp only [tokens, List.mem_append, List.mem_cons, Token.symbol.injEq] at hm
    rcases hm with hm | hs | hm
    · exact ihl htl (fun o ho => Nat.le_trans htop (hl o ho)) hm
    · rw [Operator.symbol_injective hs]
      exact htop
    · exact ihr htr (fun o ho => Nat.le_of_lt (Nat.lt_of_le_of_lt htop (hr o ho))) hm

theorem tokens_binary_ne_singleton {op : Operator} {left right : Formula} {token : Token} :
    (binary op left right).tokens ≠ [token] := by
  intro h
  have := congrArg List.length h
  have := List.length_pos_iff.mpr (tokens_ne_nil left)
  simp only [tokens, List.length_append, List.length_cons, List.length_nil] at *
  omega

/-- The outermost operator of one tree cannot stand inside the left operand of the other: there it would
    have to bind at least as tightly as an operator that it binds less tightly than. -/
theorem not_split_later {op op' : Operator} {left right left' right' : Formula} {more : List Token}
    (h : (binary op left right).IsPrecedenceTree) (h' : (binary op' left' right').IsPrecedenceTree)
    (hl : left'.tokens = left.tokens ++ .symbol op.symbol :: more)
    (hr : right.tokens = more ++ .symbol op'.symbol :: right'.tokens) : False := by
  obtain ⟨-, hroot, -, htree⟩ := h
  obtain ⟨hroot', -, htree', -⟩ := h'
  have hle : op'.precedence ≤ op.precedence := le_precedence_of_mem htree' hroot' (by simp [hl])
  have hlt : op.precedence + 1 ≤ op'.precedence := le_precedence_of_mem htree hroot (by simp [hr])
  omega

theorem eq_of_tokens_eq {a b : Formula} (ha : a.IsPrecedenceTree) (hb : b.IsPrecedenceTree)
    (h : a.tokens = b.tokens) : a = b := by
  induction a generalizing b with
  | var path =>
    cases b with
    | var path' => simpa [tokens] using h
    | constant text => simp [tokens] at h
    | binary op left right => exact absurd h.symm tokens_binary_ne_singleton
  | constant text =>
    cases b with
    | var path => simp [tokens] at h
    | constant text' => simpa [tokens] using h
    | binary op left right => exact absurd h.symm tokens_binary_ne_singleton
  | binary op left right ihl ihr =>
    cases b with
    | var path => exact absurd h tokens_binary_ne_singleton
    | constant text => exact absurd h tokens_binary_ne_singleton
    | binary op' left' right' =>
      simp only [tokens] at h
      -- The tokens are divided at the root operator of each tree. If these are two, each stands inside the other tree,
      -- and the precedences exclude that.
      rcases List.append_eq_append_iff.mp h with ⟨more, hl, hr⟩ | ⟨more, hl, hr⟩
      · cases more with
        | nil =>
          simp only [List.append_nil, List.nil_append, List.cons.injEq, Token.symbol.injEq] at hl hr
          rw [Operator.symbol_injective hr.1, ihl ha.2.2.1 hb.2.2.1 hl.symm, ihr ha.2.2.2 hb.2.2.2 hr.2]
        | cons token more =>
          simp only [List.cons_append, List.cons.injEq] at hr
          obtain ⟨rfl, hr⟩ := hr
          exact (not_split_later ha hb hl hr).elim
      · cases more with
        | nil =>
          simp only [List.append_nil, List.nil_append, List.cons.injEq, Token.symbol.injEq] at hl hr
          rw [Operator.symbol_injective hr.1, ihl ha.2.2.1 hb.2.2.1 hl, ihr ha.2.2.2 hb.2.2.2 hr.2.symm]
        | cons token more =>
          simp only [List.cons_append, List.cons.injEq] at hr
          obtain ⟨rfl, hr⟩ := hr
          exact (not_split_later hb ha hl hr).elim

/-! ### What a token stands for -/

theorem Item.value_of_token {token : Token} {e : Formula} (h : Item.ofToken token = .ok (.value e)) :
    e.tokens = [token] ∧ e.root? = none ∧ e.IsPrecedenceTree := by
  cases token with
  | name path => cases h; exact ⟨rfl, rfl, trivial⟩
  | number text => cases h; exact ⟨rfl, rfl, trivial⟩
  | symbol text =>
    unfold Item.ofToken at h
    dsimp only at h
    split at h <;> cases h

theorem Item.operation_of_token {token : Token} {op : Operator} (h : Item.ofToken token = .ok (.operation op)) :
    token = .symbol op.symbol := by
  cases token with
  | name path => cases h
  | number text => cases h
  | symbol text =>
    unfold Item.ofToken at h
    dsimp only at h
    split at h
    · rename_i hop
      cases h
      rw [Operator.symbol_of_ofSymbol? hop]
    · cases h

theorem Item.ofToken_of_isOperand {token : Token} (h : token.IsOperand) :
    ∃ e, Item.ofToken token = .ok (.value e) := by
  cases token with
  | name path => exact ⟨_, rfl⟩
  | number text => exact ⟨_, rfl⟩
  | symbol text => exact h.elim

theorem Item.ofToken_symbol (op : Operator) : Item.ofToken (.symbol op.symbol) = .ok (.operation op) := by
  simp [Item.ofToken, Operator.ofSymbol?_symbol]

/-! ### The stack -/

/-- A stack between an operand and an operator, the latest of each first, holds these tokens: the operators
    bind the more tightly the later they came, and every operand fits between its neighbours. -/
inductive Stacked : List Formula → List Operator → List Token → Prop
  | one {e : Formula} (tree : e.IsPrecedenceTree) : Stacked [e] [] e.tokens
  | more {e : Formula} {op : Operator} {operands : List Formula} {operators : List Operator}
      {tokens : List Token} (below : Stacked operands operators tokens) (tree : e.IsPrecedenceTree)
      (right : ∀ o ∈ e.root?, op.precedence < o.precedence)
      (left : ∀ l ∈ operands.head?, ∀ o ∈ l.root?, op.precedence ≤ o.precedence)
      (rising : ∀ o ∈ operators.head?, o.precedence < op.precedence) :
      Stacked (e :: operands) (op :: operators) (tokens ++ .symbol op.symbol :: e.tokens)

namespace Stacked

theorem length_eq {operands : List Formula} {operators : List Operator} {tokens : List Token}
    (h : Stacked operands operators tokens) : operands.length = operators.length + 1 := by
  induction h with
  | one => rfl
  | more _ _ _ _ _ ih => simp [ih]

theorem ne_nil {operands : List Formula} {operators : List Operator} {tokens : List Token}
    (h : Stacked operands operators tokens) : operands ≠ [] := by
  cases h <;> simp

/-- Under an operator lie both its operands, and their operation takes their place. -/
theorem reduce {operands : List Formula} {op : Operator} {operators : List Operator} {tokens : List Token}
    (h : Stacked operands (op :: operators) tokens) :
    ∃ right left below, operands = right :: left :: below ∧
      Stacked (.binary op left right :: below) operators tokens := by
  cases h with
  | @more e _ _ _ _ below tree right left rising =>
    cases below with
    | one tree' => exact ⟨e, _, [], rfl, .one ⟨left _ rfl, right, tree', tree⟩⟩
    | @more l op' _ _ _ below tree' right' left' rising' =>
      refine ⟨e, l, _, rfl, ?_⟩
      rw [List.append_assoc]
      refine .more below ⟨left l rfl, right, tree', tree⟩ ?_ left' rising'
      intro o ho
      cases ho
      exact rising op' rfl

end Stacked

namespace Stack

/-- The stack can make an operation: it has an operator and two operands. -/
def HasOperation (s : Stack) : Prop :=
  ∃ right left operands op operators, s = ⟨right :: left :: operands, op :: operators⟩

/-- The stack lies between an operand and an operator and holds these tokens. -/
def Holds (s : Stack) (tokens : List Token) : Prop :=
  Stacked s.operands s.operators tokens

/-- The latest operand is a single token, or its outermost operator is one of these. -/
def EndsIn (ready : Operator → Bool) (s : Stack) : Prop :=
  ∀ e ∈ s.operands.head?, ∀ o ∈ e.root?, ready o = true

/-- The stacks of which an operation is made while the stack unwinds, in order. -/
def reductions (ready : Operator → Bool) (s : Stack) : List Stack :=
  match _h : s.operators with
  | [] => []
  | op :: _ => if ready op then s :: s.reduce.reductions ready else []
  termination_by s.operators.length
  decreasing_by simp [_h]

theorem Holds.expectsOperand {s : Stack} {tokens : List Token} (h : s.Holds tokens) :
    s.expectsOperand = false := by
  simp [Stack.expectsOperand, h.length_eq]

theorem Holds.hasOperation {s : Stack} {tokens : List Token} {op : Operator} {operators : List Operator}
    (h : s.Holds tokens) (ho : s.operators = op :: operators) : s.HasOperation := by
  obtain ⟨operands, operators'⟩ := s
  cases ho
  obtain ⟨right, left, below, rfl, -⟩ := Stacked.reduce h
  exact ⟨right, left, below, op, operators, rfl⟩

theorem Holds.reduce {s : Stack} {tokens : List Token} {op : Operator} {operators : List Operator}
    (h : s.Holds tokens) (ho : s.operators = op :: operators) : s.reduce.Holds tokens := by
  obtain ⟨operands, operators'⟩ := s
  cases ho
  obtain ⟨right, left, below, rfl, h'⟩ := Stacked.reduce h
  exact h'

theorem Holds.endsIn_reduce {s : Stack} {tokens : List Token} {op : Operator} {operators : List Operator}
    {ready : Operator → Bool} (h : s.Holds tokens) (ho : s.operators = op :: operators)
    (hready : ready op = true) : s.reduce.EndsIn ready := by
  obtain ⟨right, left, operands, op', operators', rfl⟩ := h.hasOperation ho
  cases ho
  intro e he o hroot
  cases he
  cases hroot
  exact hready

/-- What unwinding keeps, and where it stops. -/
theorem Holds.unwind {s : Stack} {tokens : List Token} (h : s.Holds tokens) {ready : Operator → Bool}
    (he : s.EndsIn ready) :
    (s.unwind ready).Holds tokens ∧ (s.unwind ready).EndsIn ready ∧
      ∀ o ∈ (s.unwind ready).operators.head?, ready o = false := by
  fun_induction Stack.unwind ready s with
  | case1 s ho => exact ⟨h, he, by simp [ho]⟩
  | case2 s op operators ho hready ih => exact ih (h.reduce ho) (h.endsIn_reduce ho hready)
  | case3 s op operators ho hready => exact ⟨h, he, by simpa [ho] using hready⟩

/-- Every operation made while a stack unwinds finds its operator and both its operands. -/
theorem Holds.hasOperation_of_mem {ready : Operator → Bool} {s s' : Stack} {tokens : List Token}
    (h : s.Holds tokens) (hm : s' ∈ s.reductions ready) : s'.HasOperation := by
  fun_induction Stack.reductions ready s with
  | case1 s ho => simp at hm
  | case2 s op operators ho hready ih =>
    rcases List.mem_cons.mp hm with rfl | hm
    · exact h.hasOperation ho
    · exact ih (h.reduce ho) hm
  | case3 s op operators ho hready => simp at hm

/-! ### Reading -/

/-- What the stack has read. Before an operand it is empty, or has an operator on top for which the stack
    below has been unwound; after an operand, that operand is still a single token. -/
inductive Reads : Stack → List Token → Prop
  | start : Reads {} []
  | operand {s : Stack} {tokens : List Token} (holds : s.Holds tokens) (single : s.EndsIn fun _ => false) :
      Reads s tokens
  | operator {s : Stack} {op : Operator} {tokens : List Token} (holds : s.Holds tokens)
      (left : s.EndsIn (op.precedence ≤ ·.precedence)) (rising : ∀ o ∈ s.operators.head?, o.precedence < op.precedence) :
      Reads ⟨s.operands, op :: s.operators⟩ (tokens ++ [.symbol op.symbol])

theorem EndsIn.mono {p q : Operator → Bool} {s : Stack} (h : s.EndsIn p) (hpq : ∀ o, p o = true → q o = true) :
    s.EndsIn q :=
  fun e he o ho => hpq o (h e he o ho)

theorem EndsIn.before {s : Stack} (h : s.EndsIn fun _ => false) (op : Operator) :
    s.EndsIn (op.precedence ≤ ·.precedence) :=
  h.mono fun _ ho => by cases ho

theorem Reads.holds {s : Stack} {tokens : List Token} (h : Reads s tokens) (he : s.expectsOperand = false) :
    s.Holds tokens ∧ s.EndsIn fun _ => false := by
  cases h with
  | start => cases he
  | operand holds single => exact ⟨holds, single⟩
  | operator holds left rising =>
    simp only [Stack.expectsOperand, List.length_cons, holds.length_eq, BEq.rfl] at he
    cases he

theorem Reads.pushOperand {s s' : Stack} {tokens : List Token} {token : Token} {e : Formula} (h : Reads s tokens)
    (ht : Item.ofToken token = .ok (.value e)) (hp : s.pushOperand e = .ok s') : Reads s' (tokens ++ [token]) := by
  obtain ⟨hle, hroot, htree⟩ := Item.value_of_token ht
  unfold Stack.pushOperand at hp
  split at hp
  · rename_i hexp
    cases hp
    have hsingle : EndsIn (fun _ => false) { s with operands := e :: s.operands } := by
      intro e' he' o ho
      cases he'
      rw [hroot] at ho
      cases ho
    rw [← hle]
    cases h with
    | start => exact .operand (.one htree) hsingle
    | operand holds single => rw [holds.expectsOperand] at hexp; cases hexp
    | operator holds left rising =>
      refine .operand ?_ hsingle
      rw [List.append_assoc]
      exact .more holds htree (by simp [hroot]) (fun l hl o ho => of_decide_eq_true (left l hl o ho)) rising
  · cases hp

theorem Reads.pushOperator {s s' : Stack} {tokens : List Token} {op : Operator} (h : Reads s tokens)
    (hp : s.pushOperator op = .ok s') : Reads s' (tokens ++ [.symbol op.symbol]) := by
  unfold Stack.pushOperator at hp
  split at hp
  · cases hp
  · split at hp
    · cases hp
    · rename_i hexp
      cases hp
      obtain ⟨holds, single⟩ := h.holds (Bool.eq_false_iff.mpr hexp)
      obtain ⟨holds', left, rising⟩ := holds.unwind (single.before op)
      exact .operator holds' left fun o ho => Nat.lt_of_not_le (of_decide_eq_false (rising o ho))

theorem Reads.push {s s' : Stack} {tokens : List Token} {token : Token} (h : Reads s tokens)
    (hp : s.push token = .ok s') : Reads s' (tokens ++ [token]) := by
  unfold Stack.push at hp
  split at hp
  · cases hp
  · rename_i ht
    exact h.pushOperand ht hp
  · rename_i ht
    rw [Item.operation_of_token ht]
    exact h.pushOperator hp

theorem Reads.read {s s' : Stack} {tokens more : List Token} (h : Reads s tokens)
    (hr : s.read more = .ok s') : Reads s' (tokens ++ more) := by
  induction more generalizing s tokens with
  | nil => cases hr; simpa using h
  | cons token more ih =>
    unfold Stack.read at hr
    split at hr
    · cases hr
    · rename_i hp
      simpa using ih (h.push hp) hr

theorem Reads.push_operand {s : Stack} {tokens : List Token} {token : Token} (h : Reads s tokens)
    (he : s.expectsOperand = true) (ht : token.IsOperand) :
    ∃ s', s.push token = .ok s' ∧ s'.Holds (tokens ++ [token]) ∧ s'.EndsIn fun _ => false := by
  obtain ⟨e, hitem⟩ := Item.ofToken_of_isOperand ht
  have hp : s.push token = .ok { s with operands := e :: s.operands } := by
    simp only [Stack.push, hitem, Stack.pushOperand, he, ↓reduceIte]
  have hexp : ({ s with operands := e :: s.operands } : Stack).expectsOperand = false := by
    simp only [Stack.expectsOperand, beq_iff_eq, List.length_cons] at he ⊢
    simp [he]
  exact ⟨_, hp, (h.push hp).holds hexp⟩

/-- A known operator after an operand is taken, and an operand expected after it. -/
theorem Holds.push_operator {s : Stack} {tokens : List Token} (h : s.Holds tokens)
    (hs : s.EndsIn fun _ => false) (op : Operator) :
    ∃ s', s.push (.symbol op.symbol) = .ok s' ∧ s'.expectsOperand = true := by
  have hne : s.operands.isEmpty = false := by simpa using Stacked.ne_nil h
  refine ⟨_, by simp only [Stack.push, Item.ofToken_symbol, Stack.pushOperator, hne, h.expectsOperand,
    Bool.false_eq_true, ↓reduceIte]; rfl, ?_⟩
  obtain ⟨holds, -, -⟩ := h.unwind (hs.before op)
  simp [Stack.expectsOperand, Stacked.length_eq holds]

theorem Reads.read_alternates {s : Stack} {tokens more : List Token} (hm : Alternates more) (h : Reads s tokens)
    (he : s.expectsOperand = true) :
    ∃ s', s.read more = .ok s' ∧ s'.Holds (tokens ++ more) ∧ s'.EndsIn fun _ => false := by
  induction hm generalizing s tokens with
  | one ht =>
    obtain ⟨s', hp, holds, single⟩ := h.push_operand he ht
    exact ⟨s', by simp [Stack.read, hp], holds, single⟩
  | @more token op rest ht _ ih =>
    obtain ⟨s₁, hp₁, holds₁, single₁⟩ := h.push_operand he ht
    obtain ⟨s₂, hp₂, he₂⟩ := holds₁.push_operator single₁ op
    have h₂ : Reads s₂ ((tokens ++ [token]) ++ [.symbol op.symbol]) := (Reads.operand holds₁ single₁).push hp₂
    obtain ⟨s', hr, holds, single⟩ := ih h₂ he₂
    refine ⟨s', by simp [Stack.read, hp₁, hp₂, hr], ?_, single⟩
    simpa using holds

theorem Holds.finish {s : Stack} {tokens : List Token} (h : s.Holds tokens) (hs : s.EndsIn fun _ => false) :
    ∃ e, s.finish = .ok e ∧ e.tokens = tokens ∧ e.IsPrecedenceTree := by
  have hne : s.operands.isEmpty = false := by simpa using Stacked.ne_nil h
  obtain ⟨holds, -, hnone⟩ := h.unwind (hs.mono fun _ _ => rfl : s.EndsIn fun _ => true)
  have hops : (s.unwind fun _ => true).operators = [] := by
    cases ho : (s.unwind fun _ => true).operators with
    | nil => rfl
    | cons op operators => exact absurd (hnone op (by rw [ho]; rfl)) (by simp)
  unfold Holds at holds
  rw [hops] at holds
  generalize hopd : (s.unwind fun _ => true).operands = operands at holds
  cases holds with
  | @one e tree =>
    exact ⟨e, by simp only [Stack.finish, hne, h.expectsOperand, hopd, Bool.false_eq_true, ↓reduceIte], rfl, tree⟩

theorem Reads.finish {s : Stack} {tokens : List Token} {e : Formula} (h : Reads s tokens)
    (hf : s.finish = .ok e) : e.tokens = tokens ∧ e.IsPrecedenceTree := by
  have hexp : s.expectsOperand = false := by
    cases h with
    | start => cases hf
    | operand holds single => exact holds.expectsOperand
    | @operator s _ _ holds left rising =>
      have hne : s.operands.isEmpty = false := by simpa using Stacked.ne_nil holds
      simp only [Stack.finish, Stack.expectsOperand, hne, holds.length_eq, List.length_cons, BEq.rfl,
        Bool.false_eq_true, ↓reduceIte] at hf
      cases hf
  obtain ⟨holds, single⟩ := h.holds hexp
  obtain ⟨e', hf', ht⟩ := holds.finish single
  rw [hf] at hf'
  cases hf'
  exact ht

/-- The stacks of which an operation is made while a formula with these tokens is read: before an operator
    is added, and when the tokens have ended. -/
inductive Reduces (tokens : List Token) : Stack → Prop
  | between {before after : List Token} {op : Operator} {s s' : Stack}
      (split : tokens = before ++ .symbol op.symbol :: after) (read : ({} : Stack).read before = .ok s)
      (complete : s.expectsOperand = false) (mem : s' ∈ s.reductions (op.precedence ≤ ·.precedence)) : Reduces tokens s'
  | last {s s' : Stack} (read : ({} : Stack).read tokens = .ok s) (complete : s.expectsOperand = false)
      (mem : s' ∈ s.reductions fun _ => true) : Reduces tokens s'

theorem Reduces.hasOperation {tokens : List Token} {s : Stack} (h : Reduces tokens s) : s.HasOperation := by
  cases h with
  | between _ read complete mem => exact (((Reads.start.read read).holds complete).1).hasOperation_of_mem mem
  | last read complete mem => exact (((Reads.start.read read).holds complete).1).hasOperation_of_mem mem

end Stack

/-! ### The parser -/

theorem ofTokens_sound {tokens : List Token} {e : Formula} (h : ofTokens tokens = .ok e) :
    e.tokens = tokens ∧ e.IsPrecedenceTree := by
  unfold ofTokens at h
  split at h
  · cases h
  · rename_i s hr
    simpa using (Stack.Reads.start.read hr).finish h

theorem ofTokens_complete {tokens : List Token} (h : Alternates tokens) : ∃ e, ofTokens tokens = .ok e := by
  obtain ⟨s, hr, holds, single⟩ := Stack.Reads.start.read_alternates h rfl
  obtain ⟨e, hf, -⟩ := holds.finish single
  exact ⟨e, by simp only [ofTokens, hr, hf]⟩

theorem ofTokens_eq_ok_iff {tokens : List Token} {e : Formula} :
    ofTokens tokens = .ok e ↔ e.tokens = tokens ∧ e.IsPrecedenceTree := by
  refine ⟨ofTokens_sound, fun ⟨ht, he⟩ => ?_⟩
  obtain ⟨e', h'⟩ := ofTokens_complete (ht ▸ alternates_tokens e)
  obtain ⟨ht', he'⟩ := ofTokens_sound h'
  rw [h', eq_of_tokens_eq he he' (ht.trans ht'.symm)]

theorem parse_eq_ofTokens {text : String} {tokens : List Token} (h : Token.scan text.toList = some tokens) :
    parse text = ofTokens tokens := by
  simp only [parse, h]

/-- A text that is scanned into tokens is read exactly when operands and known operators take turns. What
    is read is the one precedence tree of these tokens, and no operation is made on the way without its
    operator and both its operands. -/
theorem parse_precedence_tree {text : String} {tokens : List Token} (h : Token.scan text.toList = some tokens) :
    ((∃ e, parse text = .ok e) ↔ Alternates tokens) ∧
    (∀ e, parse text = .ok e → e.tokens = tokens ∧ e.IsPrecedenceTree ∧
      ∀ other : Formula, other.tokens = tokens → other.IsPrecedenceTree → other = e) ∧
    ∀ s, Stack.Reduces tokens s → s.HasOperation := by
  rw [parse_eq_ofTokens h]
  refine ⟨⟨fun ⟨e, he⟩ => ?_, ofTokens_complete⟩, fun e he => ?_, fun s hs => hs.hasOperation⟩
  · rw [← (ofTokens_sound he).1]
    exact alternates_tokens e
  · obtain ⟨ht, htree⟩ := ofTokens_sound he
    exact ⟨ht, htree, fun other ht' htree' => eq_of_tokens_eq htree' htree (ht'.trans ht.symm)⟩

theorem parse_mixed_precedence :
    (∃ e, parse "a - 2 ^ b.c - 3" = .ok e) ∧
    ∀ s, Stack.Reduces [.name ["a"], .symbol "-", .number "2", .symbol "^", .name ["b", "c"], .symbol "-", .number "3"] s →
      s.HasOperation := by
  have hscan : Token.scan "a - 2 ^ b.c - 3".toList =
      some [.name ["a"], .symbol "-", .number "2", .symbol "^", .name ["b", "c"], .symbol "-", .number "3"] := by decide +kernel
  obtain ⟨hok, -, hred⟩ := parse_precedence_tree hscan
  have hturns : Alternates [.name ["a"], .symbol "-", .number "2", .symbol "^", .name ["b", "c"], .symbol "-", .number "3"] :=
    @Alternates.more _ .minus _ trivial (@Alternates.more _ .power _ trivial
      (@Alternates.more _ .minus _ trivial (.one trivial)))
  exact ⟨hok.mpr hturns, hred⟩

end Formula
end Letterpress
