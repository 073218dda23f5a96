import Letterpress.Markdown.Html

/-! Markdown as HTML. The text is usually indented to match the markup around it, so the indentation that
    all its lines have in common is dropped first. -/

namespace Letterpress
namespace Markdown

/-- The HTML of a Markdown text. -/
def toHtml (text : String) : String :=
  (Document.ofText (dedent text)).toHtml

end Markdown
end Letterpress
