import Letterpress.Proofs.Param.Validation
import Letterpress.Proofs.Path.Relative
import Letterpress.Proofs.Text.Blank

/-! Normal forms of texts. What a text is read as depends on its normal form only: numbers and dates are read without
    the blanks around them, and the name of a file also without the slashes before it, to which one is given
    back. A value renders as the normal form of the text it was read from, and that has no other normal form, so what
    has been validated can be passed on as text. -/

namespace Letterpress

namespace Text

theorem trimChars_of_ends {cs : List Char} (hfirst : ∀ c ∈ cs.head?, isBlank c = false)
    (hlast : ∀ c ∈ cs.getLast?, isBlank c = false) : trimChars cs = cs := by
  have hfront : cs.dropWhile isBlank = cs := by
    cases cs with
    | nil => rfl
    | cons c cs => rw [List.dropWhile_cons_of_neg (by simp [hfirst c rfl])]
  have hend : cs.rdropWhile isBlank = cs :=
    List.rdropWhile_eq_self_iff.mpr fun hne => by simp [hlast _ (List.getLast?_eq_getLast_of_ne_nil hne)]
  rw [trimChars, hfront, trimEnd_eq, hend]

theorem not_blank_getLast?_trim (s : String) : ∀ c ∈ (trim s).toList.getLast?, isBlank c = false := by
  intro c hc
  rw [trim, String.toList_ofList, trimChars, trimEnd_eq] at hc
  obtain ⟨hne, rfl⟩ := List.mem_getLast?_eq_getLast hc
  simpa using List.rdropWhile_last_not isBlank _ hne

end Text

namespace Path

theorem relative_relative (path : String) : relative (relative path) = relative path := by
  simp only [relative, String.toList_ofList, List.dropWhile_idempotent]

theorem relative_slash (path : String) : relative ("/" ++ path) = relative path := by
  simp [relative]

/-- Behind a slash the rest of a trimmed text is trimmed. -/
theorem trim_slash_relative {content : String} (h : relative (Text.trim content) ≠ "") :
    Text.trim ("/" ++ relative (Text.trim content)) = "/" ++ relative (Text.trim content) := by
  have hlist : ("/" ++ relative (Text.trim content)).toList = '/' :: (relative (Text.trim content)).toList := by simp
  have hlast : ∀ c ∈ ('/' :: (relative (Text.trim content)).toList).getLast?, Text.isBlank c = false := by
    intro c hc
    have hne : (relative (Text.trim content)).toList ≠ [] := mt String.toList_eq_nil_iff.mp h
    obtain ⟨slashes, hslashes⟩ : (relative (Text.trim content)).toList <:+ (Text.trim content).toList := by
      rw [relative, String.toList_ofList]
      exact List.dropWhile_suffix _
    rw [List.getLast?_cons_of_ne_nil hne] at hc
    have hlast : c ∈ (Text.trim content).toList.getLast? := by
      rw [← hslashes, List.getLast?_append_of_ne_nil _ hne]
      exact hc
    exact Text.not_blank_getLast?_trim content c hlast
  rw [Text.trim, hlist, Text.trimChars_of_ends (by simp; decide) hlast, ← hlist, String.ofList_toList]

end Path

/-- What a text of the form is passed on as. -/
def TextForm.normal : TextForm → String → String
  | generic, content => content
  | integer, content | float, content | date, content => Text.trim content
  | file, content => "/" ++ Path.relative (Text.trim content)
  | markdown, content => content

namespace Param
open Markup (Node Element)

variable {ctx : Context} {form : TextForm} {content content' : String} {value : Value}

/-- A value is rendered as the normal form of its text. -/
theorem render_of_readText (hm : form ≠ .markdown) (h : readText ctx form content = .ok value) :
    value.render = .ok (form.normal content) := by
  cases readText_eq_ok.mp h with
  | markdown => exact absurd rfl hm
  | generic | integer | float | file | date => rfl

/-- A text that has been read stands for its normal form. -/
theorem normal_normal (hm : form ≠ .markdown) (h : readText ctx form content = .ok value) :
    form.normal (form.normal content) = form.normal content := by
  cases readText_eq_ok.mp h with
  | generic => rfl
  | markdown => exact absurd rfl hm
  | integer | float | date =>
    show Text.trim (Text.trim content) = Text.trim content
    rw [Text.trim_trim]
  | file hne =>
    -- behind the slash stands a name, and the slash shields its blanks
    rw [TextForm.normal, TextForm.normal, Path.trim_slash_relative hne, Path.relative_slash, Path.relative_relative]

/-- Texts of one normal form are read as the same value. -/
theorem readText_of_normal (hm : form ≠ .markdown) (hn : form.normal content = form.normal content')
    (h : readText ctx form content = .ok value) : readText ctx form content' = .ok value := by
  rw [readText_eq_ok] at h ⊢
  cases h with
  | generic =>
    cases hn
    exact .generic content
  | markdown => exact absurd rfl hm
  | integer h | float h | date h =>
    have htrim : Text.trim content = Text.trim content' := hn
    rw [htrim] at h ⊢
    constructor
    exact h
  | file hne h =>
    have hpath : Path.relative (Text.trim content) = Path.relative (Text.trim content') := by
      simpa [TextForm.normal, String.append_right_inj] using hn
    rw [hpath] at hne h ⊢
    exact .file hne h

/-- What an element supplies for a text is supplied as well by the text of the value alone. -/
theorem rendered_text_validates (ctx : Context) (name : String) (required : Bool) (hm : form ≠ .markdown) (e : Element)
    (h : (text name required form).validate ctx e = .ok value) :
    ∃ content, value.render = .ok content ∧
      ∀ e' : Element, e'.children = [.text content] → (text name required form).validate ctx e' = .ok value := by
  obtain ⟨content, -, hread⟩ := validate_text_eq_ok.mp h
  refine ⟨form.normal content, render_of_readText hm hread, fun e' he' => ?_⟩
  have hplain : plainText e' = .ok (form.normal content) := by
    rw [plainText, he']
    rfl
  have hnormal : form.normal content = form.normal (form.normal content) := (normal_normal hm hread).symm
  exact validate_text_eq_ok.mpr ⟨form.normal content, hplain, readText_of_normal hm hnormal hread⟩

/-- A site with one picture, whose name begins with a blank. -/
def pictureSite : Context :=
  { probe := ⟨(· == "www/ cat.png"), fun _ => false⟩ }

/-- The picture with more slashes than it needs. -/
def picture : Element :=
  ⟨{ name := "logo" }, [.comment "a cat", .text "\n //// cat.png "]⟩

def lateJanuary : Calendar.Date :=
  ⟨1999, 1, 31, by decide, by decide, by decide⟩

/-- A file keeps the blank behind its slash, and a date the way in which it is written. -/
theorem picture_validates_again :
    ((text "logo" true .file).validate pictureSite picture = .ok (.text "/ cat.png") ∧
      (text "logo" true .file).validate pictureSite ⟨{ name := "icon" }, [.text "/ cat.png"]⟩ = .ok (.text "/ cat.png")) ∧
    (text "due" true .date).validate pictureSite ⟨{ name := "due" }, [.cdata " 1999/1/31\n"]⟩ =
        .ok (dateValue "1999/1/31" lateJanuary) ∧
      (text "due" true .date).validate pictureSite ⟨{ name := "day" }, [.text "1999/1/31"]⟩ =
        .ok (dateValue "1999/1/31" lateJanuary) := by
  have hfile : (text "logo" true .file).validate pictureSite picture = .ok (.text "/ cat.png") := rfl
  have hdate : (text "due" true .date).validate pictureSite ⟨{ name := "due" }, [.cdata " 1999/1/31\n"]⟩ =
      .ok (dateValue "1999/1/31" lateJanuary) := rfl
  obtain ⟨path, hpath, hpathAgain⟩ := rendered_text_validates pictureSite "logo" true (by decide) picture hfile
  obtain ⟨day, hday, hdayAgain⟩ := rendered_text_validates pictureSite "due" true (by decide) _ hdate
  cases hpath
  cases hday
  exact ⟨⟨hfile, hpathAgain _ rfl⟩, hdate, hdayAgain _ rfl⟩

end Param
end Letterpress
