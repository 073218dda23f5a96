import Letterpress.Markup.Event

/-! The declaration that may open a document: its version, then its encoding, then whether it stands
    alone, each as a name with a quoted value and with blanks between them. -/

namespace Letterpress
namespace Markup
namespace Declaration

/-- A quoted value and what follows it. -/
def quoted? : List Char → Option (List Char × List Char)
  | q :: cs =>
    if q = '"' ∨ q = '\'' then
      match cs.span (· ≠ q) with
      | (value, _ :: rest) => some (value, rest)
      | _ => none
    else none
  | [] => none

/-- The value of the setting with this name, if it comes next behind blanks, and what follows it. -/
def setting? (name : String) (cs : List Char) : Option (String × List Char) :=
  let trimmed := cs.dropWhile isSpace
  if trimmed.length < cs.length && name.toList.isPrefixOf trimmed then
    match (trimmed.drop name.length).dropWhile isSpace with
    | '=' :: rest =>
      (quoted? (rest.dropWhile isSpace)).map fun (value, rest) => (String.ofList value, rest)
    | _ => none
  else none

/-- The value of a setting that may be absent, and what follows it. -/
def optional (name : String) (cs : List Char) : Option String × List Char :=
  match setting? name cs with
  | some (value, rest) => (some value, rest)
  | none => (none, cs)

/-- The encodings in which a text of Unicode characters can have come. -/
def isEncoding (name : String) : Bool :=
  ["utf-8", "utf8", "us-ascii", "ascii", "iso-8859-1", "latin1"].contains (Text.asciiLower name)

/-- What follows the declaration; the characters themselves if there is none. -/
def skip (cs : List Char) : Option (List Char) :=
  if "<?xml".toList.isPrefixOf cs && ((cs.drop 5).head?.map isSpace).getD false then do
    let (version, rest) ← setting? "version" (cs.drop 5)
    let (encoding, rest) := optional "encoding" rest
    let (standalone, rest) := optional "standalone" rest
    if (version == "1.0" || version == "1.1") && (encoding.map isEncoding).getD true &&
        (standalone.map (["yes", "no"].contains ·)).getD true then
      match rest.dropWhile isSpace with
      | '?' :: '>' :: rest => some rest
      | _ => none
    else none
  else some cs

end Declaration
end Markup
end Letterpress
