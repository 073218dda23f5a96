import Letterpress.Text.Blank

/-! Markers in a text. A marker is two opening braces, a formula without braces that is not blank, and
    two closing braces; everything between the markers is literal. -/

namespace Letterpress

/-- A piece of a text: literal characters, or a marker with its formula. -/
inductive Segment where
  | literal (text : String)
  | marker (raw formula : String)
  deriving Repr, DecidableEq

namespace Segment

/-- The characters before the first pair of closing braces and those after it. -/
def closing? : List Char → Option (List Char × List Char)
  | '}' :: '}' :: rest => some ([], rest)
  | c :: rest => (closing? rest).map fun (inner, rest) => (c :: inner, rest)
  | [] => none

/-- What may stand between the braces of a marker: no brace, and not only blanks. -/
def isInner (inner : List Char) : Bool :=
  inner.all (fun c => c ≠ '{' && c ≠ '}') && !inner.all Text.isBlank

/-- The marker at the start of the characters: what stands between its braces, and what follows it. -/
def marker? : List Char → Option (List Char × List Char)
  | '{' :: '{' :: rest =>
    match closing? rest with
    | some (inner, rest) => if isInner inner then some (inner, rest) else none
    | none => none
  | _ => none

theorem closing?_eq {cs inner rest : List Char} (h : closing? cs = some (inner, rest)) :
    cs = inner ++ '}' :: '}' :: rest := by
  fun_induction closing? cs generalizing inner rest with
  | case1 r => simp_all
  | case2 c r _ ih =>
    obtain ⟨⟨i, r'⟩, hr, he⟩ := Option.map_eq_some_iff.1 h
    simp only [Prod.mk.injEq] at he
    obtain ⟨rfl, rfl⟩ := he
    simp [ih hr]
  | case3 => simp at h

theorem marker?_eq {cs inner rest : List Char} (h : marker? cs = some (inner, rest)) :
    cs = '{' :: '{' :: inner ++ '}' :: '}' :: rest := by
  unfold marker? at h
  split at h
  · split at h
    · rename_i hc
      split at h
      · cases h
        simp [closing?_eq hc]
      · simp at h
    · simp at h
  · simp at h

/-- A literal piece, unless it has no characters. -/
def ofLiteral : List Char → List Segment
  | [] => []
  | c :: cs => [.literal (String.ofList (c :: cs))]

/-- The marker piece with this text between its braces. -/
def ofInner (inner : List Char) : Segment :=
  .marker (String.ofList ('{' :: '{' :: inner ++ ['}', '}'])) (String.ofList (Text.trimChars inner))

/-- The pieces of the characters, after the literal characters `seen`, which come last first. -/
def splitFrom (seen : List Char) (cs : List Char) : List Segment :=
  match cs with
  | [] => ofLiteral seen.reverse
  | c :: after =>
    match h : marker? (c :: after) with
    | some (inner, rest) =>
      have : rest.length < (c :: after).length := by
        have := congrArg List.length (marker?_eq h)
        simp only [List.length_cons, List.length_append] at this ⊢
        omega
      ofLiteral seen.reverse ++ ofInner inner :: splitFrom [] rest
    | none => splitFrom (c :: seen) after
  termination_by cs.length
  decreasing_by
    · exact this
    · exact Nat.lt_succ_self _

/-- The pieces of a text in order. No literal is empty and no two literals are neighbours. -/
def split (text : String) : List Segment :=
  splitFrom [] text.toList

/-- The markers of a text, as they are written. -/
def markers (text : String) : List String :=
  (split text).filterMap fun
    | .literal _ => none
    | .marker raw _ => some raw

end Segment
end Letterpress
