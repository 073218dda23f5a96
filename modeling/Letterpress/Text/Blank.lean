/-! Blank characters are those of the Unicode property White_Space. Trimming takes them off both ends
    of a text, and a text of blank characters only is blank itself. -/

namespace Letterpress
namespace Text

/-- The character has the Unicode property White_Space. -/
def isBlank (c : Char) : Bool :=
  let n := c.toNat
  (0x09 ≤ n && n ≤ 0x0D) || n == 0x20 || n == 0x85 || n == 0xA0 || n == 0x1680 ||
    (0x2000 ≤ n && n ≤ 0x200A) || n == 0x2028 || n == 0x2029 || n == 0x202F || n == 0x205F ||
    n == 0x3000

/-- The characters without the blank ones at their end. -/
def trimEnd (cs : List Char) : List Char :=
  (cs.reverse.dropWhile isBlank).reverse

/-- The characters without the blank ones at either end. -/
def trimChars (cs : List Char) : List Char :=
  trimEnd (cs.dropWhile isBlank)

/-- The text without the blank characters at either end. -/
def trim (s : String) : String :=
  String.ofList (trimChars s.toList)

/-- Every character of the text is blank. -/
def allBlank (s : String) : Bool :=
  s.toList.all isBlank

/-- The parts between the separators: one more than there are separators. -/
def splitChars (isSeparator : Char → Bool) : List Char → List (List Char)
  | [] => [[]]
  | c :: cs =>
    if isSeparator c then [] :: splitChars isSeparator cs
    else match splitChars isSeparator cs with
      | [] => [[c]]
      | part :: parts => (c :: part) :: parts

/-- The parts of the text between the separators: one more than there are separators. -/
def split (isSeparator : Char → Bool) (s : String) : List String :=
  (splitChars isSeparator s.toList).map String.ofList

/-- The parts of the text between its separators, without the empty ones. -/
def words (isSeparator : Char → Bool) (s : String) : List String :=
  (split isSeparator s).filter (· ≠ "")

/-- The upper-case ASCII letters become lower-case; every other character stays. -/
def asciiLower (s : String) : String :=
  String.ofList (s.toList.map Char.toLower)

theorem splitChars_ne_nil (p : Char → Bool) : ∀ cs : List Char, splitChars p cs ≠ []
  | [] => by simp [splitChars]
  | c :: cs => by
    unfold splitChars
    split
    · simp
    · split <;> simp

end Text
end Letterpress
