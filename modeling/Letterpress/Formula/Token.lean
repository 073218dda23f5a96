import Letterpress.Text.Blank
import Letterpress.Text.Letter

/-! The tokens of a formula: dotted names, numbers and runs of operator characters, with any blanks
    around them. A dot continues a name only when another segment follows it, so that `.5` after a name
    is a number of its own; a hyphen inside a name belongs to the name. -/

namespace Letterpress

/-- A token of a formula. A symbol is a whole run of operator characters, known or not. -/
inductive Token where
  | name (path : List String)
  | number (text : String)
  | symbol (text : String)
  deriving Repr, DecidableEq

namespace Token

/-- The character can begin a segment of a name. -/
def isNameStart (c : Char) : Bool :=
  Text.isAlphabetic c || c == '_'

/-- The character can continue a segment of a name. -/
def isNameChar (c : Char) : Bool :=
  Text.isAlphanumeric c || c == '_' || c == '-'

/-- The character belongs to operators. -/
def isSymbolChar (c : Char) : Bool :=
  "^*/+-%=!".toList.contains c

/-- The characters of a token and what follows them. -/
abbrev Cut := List Char × List Char

/-- The longest run of characters of one class. -/
def run (p : Char → Bool) (cs : List Char) : Cut :=
  (cs.takeWhile p, cs.dropWhile p)

theorem run_append (p : Char → Bool) (cs : List Char) : (run p cs).1 ++ (run p cs).2 = cs :=
  List.takeWhile_append_dropWhile

theorem length_run_le (p : Char → Bool) (cs : List Char) : (run p cs).2.length ≤ cs.length :=
  (List.dropWhile_suffix p).length_le

/-- A segment of a name at the start of the characters. -/
def segment? : List Char → Option Cut
  | [] => none
  | c :: cs =>
    if isNameStart c then
      let (more, rest) := run isNameChar cs
      some (c :: more, rest)
    else none

theorem length_segment? {cs : List Char} {cut : Cut} (h : segment? cs = some cut) :
    cut.2.length < cs.length := by
  cases cs with
  | nil => simp [segment?] at h
  | cons c cs =>
    simp only [segment?] at h
    split at h
    · cases h
      exact Nat.lt_succ_of_le (length_run_le _ cs)
    · simp at h

/-- The further segments of a name, each with a dot before it. -/
def moreSegments (cs : List Char) : List (List Char) × List Char :=
  match cs with
  | '.' :: after =>
    match h : segment? after with
    | some (segment, rest) =>
      have : rest.length < after.length := length_segment? h
      let (segments, rest) := moreSegments rest
      (segment :: segments, rest)
    | none => ([], cs)
  | _ => ([], cs)
  termination_by cs.length
  decreasing_by simp only [List.length_cons]; omega

/-- A name at the start of the characters. -/
def name? (cs : List Char) : Option (Token × List Char) :=
  match segment? cs with
  | none => none
  | some (segment, rest) =>
    let (segments, rest) := moreSegments rest
    some (.name ((segment :: segments).map String.ofList), rest)

/-- The digits of a number at the start of the characters: digits that may have a dot and digits after
    them, or a dot and at least one digit. -/
def numberChars? (cs : List Char) : Option Cut :=
  match cs with
  | [] => none
  | c :: after =>
    if c.isDigit then
      match run Char.isDigit cs with
      | (whole, '.' :: rest) =>
        let (fraction, rest) := run Char.isDigit rest
        some (whole ++ '.' :: fraction, rest)
      | cut => some cut
    else if c = '.' then
      match run Char.isDigit after with
      | ([], _) => none
      | (fraction, rest) => some ('.' :: fraction, rest)
    else none

/-- A number at the start of the characters. -/
def number? (cs : List Char) : Option (Token × List Char) :=
  (numberChars? cs).map fun (text, rest) => (.number (String.ofList text), rest)

/-- A run of operator characters at the start of the characters. -/
def symbol? (cs : List Char) : Option (Token × List Char) :=
  match run isSymbolChar cs with
  | ([], _) => none
  | (text, rest) => some (.symbol (String.ofList text), rest)

/-- The token at the start of the characters. -/
def next? (cs : List Char) : Option (Token × List Char) :=
  name? cs <|> number? cs <|> symbol? cs

theorem length_moreSegments (cs : List Char) : (moreSegments cs).2.length ≤ cs.length := by
  fun_induction moreSegments cs with
  | case1 after segment rest h hlt segments rest' hs ih =>
    rw [hs] at ih
    simp only [List.length_cons] at *
    omega
  | case2 => simp
  | case3 => simp

theorem length_name? {cs : List Char} {r : Token × List Char} (h : name? cs = some r) :
    r.2.length < cs.length := by
  unfold name? at h
  split at h
  · simp at h
  · rename_i segment rest hs
    have hlt := length_segment? hs
    have hle := length_moreSegments rest
    simp only [Option.some.injEq] at h
    subst h
    simp only at hlt ⊢
    omega

theorem length_numberChars? {cs : List Char} {cut : Cut} (h : numberChars? cs = some cut) :
    cut.2.length < cs.length := by
  cases cs with
  | nil => simp [numberChars?] at h
  | cons c after =>
    have hle := length_run_le Char.isDigit after
    simp only [numberChars?] at h
    split at h
    · rename_i hc
      have hrun : run Char.isDigit (c :: after) =
          (c :: (run Char.isDigit after).1, (run Char.isDigit after).2) := by
        simp [run, hc]
      rw [hrun] at h
      split at h
      · rename_i whole rest heq
        simp only [Prod.mk.injEq] at heq
        have hlen := congrArg List.length heq.2
        have hle' := length_run_le Char.isDigit rest
        simp only [Option.some.injEq] at h
        subst h
        simp only [List.length_cons] at hlen ⊢
        omega
      · simp only [Option.some.injEq] at h
        subst h
        simp only [List.length_cons]
        omega
    · split at h
      · split at h
        · simp at h
        · rename_i fraction rest hne heq
          have hlen := congrArg (fun cut : Cut => cut.2.length) heq
          simp only [Option.some.injEq] at h
          subst h
          simp only [List.length_cons] at hlen ⊢
          omega
      · simp at h

theorem length_number? {cs : List Char} {r : Token × List Char} (h : number? cs = some r) :
    r.2.length < cs.length := by
  unfold number? at h
  cases hn : numberChars? cs with
  | none => simp [hn] at h
  | some cut =>
    simp only [hn, Option.map_some, Option.some.injEq] at h
    subst h
    exact length_numberChars? hn

theorem length_symbol? {cs : List Char} {r : Token × List Char} (h : symbol? cs = some r) :
    r.2.length < cs.length := by
  unfold symbol? at h
  have hrun := run_append isSymbolChar cs
  split at h
  · simp at h
  · rename_i text rest hne heq
    rw [heq] at hrun
    simp only [Option.some.injEq] at h
    subst h
    have hlen := congrArg List.length hrun
    simp only [List.length_append] at hlen ⊢
    cases text with
    | nil => exact (hne rfl).elim
    | cons c text => simp only [List.length_cons] at hlen; omega

theorem length_next? {cs : List Char} {r : Token × List Char} (h : next? cs = some r) :
    r.2.length < cs.length := by
  unfold next? at h
  cases hn : name? cs with
  | some r' => rw [hn] at h; cases h; exact length_name? hn
  | none =>
    cases hm : number? cs with
    | some r' => rw [hn, hm] at h; cases h; exact length_number? hm
    | none => rw [hn, hm] at h; exact length_symbol? h

/-- The tokens of the characters, with any blanks around each; none if a character starts no token.
    Blanks alone hold no token and are refused. -/
def scan (cs : List Char) : Option (List Token) :=
  if cs.isEmpty then some []
  else match h : next? (cs.dropWhile Text.isBlank) with
    | none => none
    | some (token, rest) =>
      have : rest.length < cs.length :=
        Nat.lt_of_lt_of_le (length_next? h) (List.dropWhile_suffix Text.isBlank).length_le
      (scan (rest.dropWhile Text.isBlank)).map (token :: ·)
  termination_by cs.length
  decreasing_by
    have := (List.dropWhile_suffix (l := rest) Text.isBlank).length_le
    omega

/-- The written form of a token. -/
def text : Token → String
  | name path => String.intercalate "." path
  | number digits => digits
  | symbol s => s

end Token
end Letterpress
