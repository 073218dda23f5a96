import Letterpress.Markup.Document
import Letterpress.Proofs.Markup.Scanning
import Letterpress.Proofs.Markup.Tree
import Mathlib.Data.List.Chain

/-! Reading back a written page. The markup of an element takes the reader, wherever it stands, to the element: the
    opening tag begins it, its children are added one by one, and the closing tag ends it. A text is only complete
    when the next tag begins, so no two texts may be neighbours. -/

namespace Letterpress
namespace Markup
open Scanner (asRead)

/-- No two neighbours are both texts. -/
def TextsApart (nodes : List Node) : Prop :=
  nodes.IsChain fun a b => a.isText = true → b.isText = false

instance (nodes : List Node) : Decidable (TextsApart nodes) :=
  inferInstanceAs (Decidable (nodes.IsChain fun a b => a.isText = true → b.isText = false))

/-- The node can be written so that it reads back as it is, as far as its own data goes. -/
def Node.Readable : Node → Prop
  | .element head children => head.Plain ∧ TextsApart children
  | .text content => OfDocument content ∧ ∃ c ∈ content.toList, isSpace c = false
  | _ => False

/-! ### What is written on one line -/

theorem write_compact_nil (head : Head) (level : Nat) (known : List (String × String)) :
    (Node.element head []).keepClosingTags.write .compact level known =
      if isVoid head.name then writeHead known head ++ " />"
      else writeHead known head ++ ">" ++ "" ++ ("</" ++ head.tag ++ ">") := by
  unfold Node.keepClosingTags
  split
  · rfl
  · have hempty : escapeText "" = "" := rfl
    simp only [Node.write, writeNodes, endsInText, Node.isText, hempty, Layout.lineBreak, String.append_assoc]
    rfl

theorem write_compact_cons (head : Head) (child : Node) (children : List Node) (level : Nat)
    (known : List (String × String)) :
    (Node.element head (child :: children)).keepClosingTags.write .compact level known =
      writeHead known head ++ ">" ++
        writeNodes .compact (level + 1) (known ++ head.scope) false (keepAllClosingTags (child :: children)) ++
        ("</" ++ head.tag ++ ">") := by
  simp [Node.keepClosingTags, keepAllClosingTags, Node.write, Layout.lineBreak, String.append_assoc]

theorem writeNodes_compact_cons (node : Node) (nodes : List Node) (level : Nat) (known : List (String × String))
    (afterText : Bool) :
    writeNodes .compact level known afterText (keepAllClosingTags (node :: nodes)) =
      node.keepClosingTags.write .compact level known ++
        writeNodes .compact level known node.keepClosingTags.isText (keepAllClosingTags nodes) := by
  simp [keepAllClosingTags, writeNodes, Layout.lineBreak]

namespace Reader

/-! ### What the reader makes of a tag -/

theorem mapM_ofAttribute? {attributes : List (String × String)} (h : ∀ pair ∈ attributes, pair.1 ≠ "xmlns") :
    ((attributes.map asRead).mapM fun (name, value) => Part.ofAttribute? name value) =
      some (attributes.map fun pair => .attribute (asRead pair).1 (asRead pair).2) := by
  induction attributes with
  | nil => rfl
  | cons pair attributes ih =>
    obtain ⟨hfirst, h⟩ := List.forall_mem_cons.mp h
    have hpart : Part.ofAttribute? (asRead pair).1 (asRead pair).2 = some (.attribute (asRead pair).1 (asRead pair).2) :=
      if_neg hfirst
    simp [List.mapM_cons, hpart, ih h]

/-- Attributes with distinct names keep their values and their order. -/
theorem localAttributes_of_distinct {attributes : List (String × String)} (h : (attributes.map Prod.fst).Nodup) :
    localAttributes (attributes.map asRead) = attributes := by
  -- No attribute meets one of its name among those taken so far, so each is put behind them.
  have hfold : ∀ {later done : List (String × String)}, ((done ++ later).map Prod.fst).Nodup →
      (later.map asRead).foldl (fun done (name, value) =>
        if done.any (·.1 == name.name) then
          done.map fun pair => if pair.1 == name.name then (name.name, value) else pair
        else done ++ [(name.name, value)]) done = done ++ later := by
    intro later
    induction later with
    | nil => exact fun _ => (List.append_nil _).symm
    | cons pair later ih =>
      intro done hd
      have hnew : done.any (·.1 == pair.1) = false := by
        rw [List.map_append, List.nodup_append] at hd
        simp only [List.any_eq_false, beq_iff_eq]
        exact fun other ho => hd.2.2 _ (List.mem_map_of_mem ho) _ List.mem_cons_self
      rw [List.append_cons] at hd ⊢
      rw [← ih hd, List.map_cons, List.foldl_cons]
      simp only [asRead, hnew]
      rfl
  exact hfold h

theorem head?_of_plain {head : Head} (h : head.Plain) :
    head? [] ⟨none, head.name⟩ (head.attributes.map asRead) = some head := by
  obtain ⟨name, qualifier, scope, attributes⟩ := head
  obtain ⟨-, hq, hs, hd, ha⟩ := h
  cases hq
  cases hs
  have hparts := mapM_ofAttribute? fun pair hp => (ha pair hp).2.1
  have hplain : attributes.filterMap (fun pair => some ((asRead pair).1, (asRead pair).2)) = attributes.map asRead :=
    congrFun List.filterMap_eq_map attributes
  have hdeclared : (attributes.map asRead).all (isDeclared [] ·.1.qualifier) = true := by
    simp [asRead, isDeclared]
  have hscope : extendScope [] [] = [] := rfl
  simp only [head?, hparts, Option.bind_eq_bind, Option.bind_some, List.filterMap_map, Function.comp_def]
  rw [List.filterMap_eq_nil_iff.mpr fun _ _ => rfl, hplain, hscope, hdeclared, localAttributes_of_distinct hd]
  rfl

namespace Progress

variable {made : Progress} {head : Head}

/-- Further tags stand inside an element, and no prefix has been declared. -/
structure Inside (made : Progress) : Prop where
  frames : made.frames ≠ []
  started : made.started = true
  scope : made.scope = []

theorem add_of_frame {frame : Frame} {frames : List Frame} (hf : made.frames = frame :: frames) (node : Node) :
    made.add node = { made with frames := { frame with children := node :: frame.children } :: frames } := by
  rw [add, hf]

theorem Inside.add (h : made.Inside) (node : Node) : (made.add node).Inside := by
  obtain ⟨frame, frames, hf⟩ := List.exists_cons_of_ne_nil h.frames
  rw [add_of_frame hf]
  refine ⟨List.cons_ne_nil _ _, h.started, ?_⟩
  have hs := h.scope
  rw [Progress.scope, hf] at hs
  exact hs

theorem Inside.start (h : made.Inside) : { made with started := true } = made := by
  rw [← h.started]

/-- Nodes added to an open element come before its closing tag in their order. -/
theorem frames_foldl_add {frame : Frame} {frames : List Frame} (hf : made.frames = frame :: frames) (nodes : List Node) :
    nodes.foldl add made = { made with frames := { frame with children := nodes.reverse ++ frame.children } :: frames } := by
  induction nodes generalizing made frame with
  | nil =>
    rw [List.foldl_nil, List.reverse_nil, List.nil_append, ← hf]
  | cons node nodes ih =>
    rw [List.foldl_cons, add_of_frame hf, ih rfl]
    simp

theorem take_opening (h : head.Plain) (hs : made.scope = []) :
    made.take (.opening ⟨none, head.name⟩ (head.attributes.map asRead) false) =
      some { made with started := true, frames := { tag := ⟨none, head.name⟩, head } :: made.frames } := by
  simp [take, hs, head?_of_plain h]

theorem take_closed (h : head.Plain) (hs : made.scope = []) :
    made.take (.opening ⟨none, head.name⟩ (head.attributes.map asRead) true) =
      some ({ made with started := true }.add (.element head [])) := by
  simp [take, hs, head?_of_plain h]

/-- The closing tag of an element ends it with the nodes that have been added behind its opening tag. -/
theorem take_closing (nodes : List Node) :
    (nodes.foldl add { made with started := true, frames := { tag := ⟨none, head.name⟩, head } :: made.frames }).take
        (.closing ⟨none, head.name⟩) = some ({ made with started := true }.add (.element head nodes)) := by
  rw [frames_foldl_add rfl, take]
  simp

theorem take_text {content : String} (hc : ∃ c ∈ content.toList, isSpace c = false) (hf : made.frames ≠ []) (bare : Bool) :
    made.take (.text content bare) = some (made.add (.text content)) := by
  have hspace : content.toList.all isSpace = false := by simpa using hc
  simp [take, hspace, hf]

end Progress

/-! ### What stands between the tags -/

/-- The scanner stands in text, and what it has met comes to what the reader has made, with this text taken in. -/
inductive Builds : Scanner.Progress → Progress → Prop
  | intro {seen : List Char} {bare : Bool} {brackets : Nat} {entities : Entities} {events : List Event} {made : Progress}
      (h : (events.reverse ++ Scanner.textEvents seen bare).foldlM Progress.take {} = some made) :
      Builds ⟨.content seen bare brackets, entities, events⟩ made

/-- The scanner stands right behind a tag. -/
def AtTag (p : Scanner.Progress) : Prop :=
  p.state = .content [] true 0

section
variable {p : Scanner.Progress} {made : Progress} {head : Head}

theorem builds_of_event {entities : Entities} {events : List Event} {event : Event} {next : Progress}
    (h : events.reverse.foldlM Progress.take {} = some made) (ht : made.take event = some next) :
    Builds ⟨.content [] true 0, entities, event :: events⟩ next := by
  refine .intro ?_
  have htext : Scanner.textEvents [] true = [] := rfl
  rw [htext, List.append_nil, List.reverse_cons, List.foldlM_append, h]
  simpa using ht

theorem Builds.opening (known : List (String × String)) (hb : Builds p made) (h : head.Plain) (hs : made.scope = []) :
    ∃ p', p.Reads (writeHead known head ++ ">").toList p' ∧ AtTag p' ∧
      Builds p' { made with started := true, frames := { tag := ⟨none, head.name⟩, head } :: made.frames } := by
  cases hb with
  | intro hb => exact ⟨_, Scanner.reads_opening h, rfl, builds_of_event (by simpa using hb) (Progress.take_opening h hs)⟩

theorem Builds.closed (known : List (String × String)) (hb : Builds p made) (h : head.Plain) (hs : made.scope = []) :
    ∃ p', p.Reads (writeHead known head ++ " />").toList p' ∧ AtTag p' ∧
      Builds p' ({ made with started := true }.add (.element head [])) := by
  cases hb with
  | intro hb => exact ⟨_, Scanner.reads_closed h, rfl, builds_of_event (by simpa using hb) (Progress.take_closed h hs)⟩

theorem Builds.closing {name : String} (hb : Builds p made) (h : isName name = true) {next : Progress}
    (ht : made.take (.closing ⟨none, name⟩) = some next) :
    ∃ p', p.Reads ("</" ++ name ++ ">").toList p' ∧ AtTag p' ∧ Builds p' next := by
  cases hb with
  | intro hb => exact ⟨_, Scanner.reads_closing h, rfl, builds_of_event (by simpa using hb) ht⟩

theorem Builds.text {content : String} (hb : Builds p made) (hp : AtTag p) (hd : OfDocument content)
    (hc : ∃ c ∈ content.toList, isSpace c = false) (hf : made.frames ≠ []) :
    ∃ p', p.Reads (escapeText content).toList p' ∧ Builds p' (made.add (.text content)) := by
  cases hb with
  | @intro seen bare brackets entities events _ hb =>
    cases hp
    obtain ⟨bare', brackets', hr⟩ := @Scanner.reads_text entities events [] true 0 content.toList hd
    rw [escapeText, String.toList_ofList]
    refine ⟨_, hr, .intro ?_⟩
    have hevents : Scanner.textEvents (content.toList.reverse ++ []) bare' = [.text content bare'] := by
      obtain ⟨c, hmem, -⟩ := hc
      have hne : content ≠ "" := fun h => by simp [h] at hmem
      simp [Scanner.textEvents, hne]
    have htext : Scanner.textEvents [] true = [] := rfl
    rw [htext, List.append_nil] at hb
    rw [hevents, List.foldlM_append, hb]
    simpa using Progress.take_text hc hf bare'

end

/-! ### Trees -/

variable {p : Scanner.Progress} {made : Progress} {head : Head}

/-- An element with markup between its tags is read if this markup is, and comes to the nodes that it comes to. -/
theorem Builds.enclosed (known : List (String × String)) (inner : String) (children : List Node)
    (hb : Builds p made) (h : head.Plain) (hs : made.scope = [])
    (hinner : ∀ {p made}, Builds p made → made.Inside → AtTag p →
      ∃ p', p.Reads inner.toList p' ∧ Builds p' (children.foldl Progress.add made)) :
    ∃ p', p.Reads (writeHead known head ++ ">" ++ inner ++ ("</" ++ head.name ++ ">")).toList p' ∧ AtTag p' ∧
      Builds p' ({ made with started := true }.add (.element head children)) := by
  obtain ⟨p₁, hr₁, hat₁, hb₁⟩ := hb.opening known h hs
  obtain ⟨p₂, hr₂, hb₂⟩ := hinner hb₁ ⟨List.cons_ne_nil _ _, rfl, h.scope⟩ hat₁
  obtain ⟨p₃, hr₃, hat₃, hb₃⟩ := hb₂.closing h.name (Progress.take_closing children)
  rw [String.toList_append, String.toList_append]
  exact ⟨p₃, (hr₁.append hr₂).append hr₃, hat₃, hb₃⟩

-- Over a node and over its children at once. The scanner stands in text all along; behind a text this text is still
-- pending, so only behind a tag may the next node be a text.
mutual

theorem Builds.node {p : Scanner.Progress} {made : Progress} (level : Nat) (known : List (String × String)) :
    ∀ node : Node, node.All Node.Readable → Builds p made → made.Inside → (node.isText = true → AtTag p) →
      ∃ p', p.Reads (node.keepClosingTags.write .compact level known).toList p' ∧ Builds p' (made.add node) ∧
        (node.isText = false → AtTag p')
  | .element head [], hn, hb, hi, _ => by
    obtain ⟨hh, -⟩ := hn.here
    rw [write_compact_nil]
    split
    -- A void element closes itself; any other gets a closing tag with nothing before it.
    · obtain ⟨p', hr, hat, hb'⟩ := hb.closed known hh hi.scope
      exact ⟨p', hr, hi.start ▸ hb', fun _ => hat⟩
    · obtain ⟨p', hr, hat, hb'⟩ := hb.enclosed known "" [] hh hi.scope fun hb _ _ => ⟨_, .nil, hb⟩
      rw [Head.tag, hh.qualifier]
      exact ⟨p', hr, hi.start ▸ hb', fun _ => hat⟩
  | .element head (child :: children), hn, hb, hi, _ => by
    obtain ⟨hh, hapart⟩ := hn.here
    rw [write_compact_cons]
    obtain ⟨p', hr, hat, hb'⟩ := hb.enclosed known _ (child :: children) hh hi.scope fun hb hi hat =>
      Builds.nodes (level + 1) (known ++ head.scope) false (child :: children) hn.inside hapart hb hi fun _ _ _ => hat
    rw [Head.tag, hh.qualifier]
    exact ⟨p', hr, hi.start ▸ hb', fun _ => hat⟩
  | .text content, hn, hb, hi, hp => by
    obtain ⟨hd, hc⟩ := hn.here
    obtain ⟨p', hr, hb'⟩ := hb.text (hp rfl) hd hc hi.frames
    exact ⟨p', hr, hb', nofun⟩
  | .cdata _, hn, _, _, _ | .comment _, hn, _, _, _ | .instruction .., hn, _, _, _ => hn.here.elim

theorem Builds.nodes {p : Scanner.Progress} {made : Progress} (level : Nat) (known : List (String × String))
    (afterText : Bool) :
    ∀ nodes : List Node, (∀ node ∈ nodes, node.All Node.Readable) → TextsApart nodes → Builds p made → made.Inside →
      (∀ node ∈ nodes.head?, node.isText = true → AtTag p) →
      ∃ p', p.Reads (writeNodes .compact level known afterText (keepAllClosingTags nodes)).toList p' ∧
        Builds p' (nodes.foldl Progress.add made)
  | [], _, _, hb, _, _ => ⟨_, .nil, hb⟩
  | node :: nodes, hn, ha, hb, hi, hp => by
    obtain ⟨hfirst, hrest⟩ := List.forall_mem_cons.mp hn
    obtain ⟨hnext, ha⟩ := List.isChain_cons.mp ha
    obtain ⟨p₁, hr₁, hb₁, hat₁⟩ := Builds.node level known node hfirst hb hi (hp node rfl)
    have hborder : ∀ next ∈ nodes.head?, next.isText = true → AtTag p₁ := fun next hm ht => hat₁ <| by
      cases htext : node.isText with
      | false => rfl
      | true => rw [hnext next hm htext] at ht; cases ht
    obtain ⟨p₂, hr₂, hb₂⟩ := Builds.nodes level known node.keepClosingTags.isText nodes hrest ha hb₁ (hi.add node) hborder
    rw [writeNodes_compact_cons, String.toList_append]
    exact ⟨p₂, hr₁.append hr₂, hb₂⟩

end

end Reader

/-! ### Documents -/

/-- Readable nodes at the top of a document are written as those inside an element. -/
theorem join_writeTopNode {nodes : List Node} (hn : ∀ node ∈ nodes, node.All Node.Readable) (afterText : Bool) :
    String.join (nodes.map (writeTopNode .compact)) =
      writeNodes .compact 0 [("", "")] afterText (keepAllClosingTags nodes) := by
  induction nodes generalizing afterText with
  | nil => rfl
  | cons node nodes ih =>
    obtain ⟨hfirst, hrest⟩ := List.forall_mem_cons.mp hn
    have htop : writeTopNode .compact node = node.keepClosingTags.write .compact 0 [("", "")] := by
      rw [writeTopNode, String.append_empty]
      cases node with
      | element head children => cases children <;> rfl
      | text content => rfl
      | _ => exact hfirst.here.elim
    rw [List.map_cons, String.join_cons, htop, writeNodes_compact_cons, ih hrest]

/-- A page that has been written without indentation reads back as it was. Its nodes may be nested in any way and
    hold any text, if they are elements without namespaces and texts, with a text never next to another one or
    made of space alone. -/
theorem Element.readFragment?_of_writeDocument (page : Element) (hn : ∀ node ∈ page.children, node.All Node.Readable)
    (ha : TextsApart page.children) :
    ∃ body, writeDocument .compact page = doctype ++ body ∧
      readFragment? body = some ⟨{ name := "fragment" }, page.children⟩ := by
  refine ⟨_, rfl, ?_⟩
  rw [join_writeTopNode hn false]
  generalize hbody : writeNodes .compact 0 [("", "")] false (keepAllClosingTags page.children) = body
  have hplain : Head.Plain { name := "fragment" } := ⟨by decide, rfl, rfl, List.nodup_nil, nofun⟩
  have hstart : Reader.Builds {} {} := .intro rfl
  -- The fragment around the page is an element like any other, with the nodes of the page in it.
  obtain ⟨p, hr, hat, hb⟩ := hstart.enclosed [] body page.children hplain rfl fun hb hi hat => by
    rw [← hbody]
    exact hb.nodes 0 [("", "")] false page.children hn ha hi fun _ _ _ => hat
  have htext : writeHead [] { name := "fragment" } ++ ">" ++ body ++ ("</" ++ "fragment" ++ ">") =
      "<fragment>" ++ body ++ "</fragment>" := rfl
  have hskip : Declaration.skip (Reader.dropMark ("<fragment>" ++ body ++ "</fragment>").toList) =
      some ("<fragment>" ++ body ++ "</fragment>").toList := by
    simp [Reader.dropMark, Declaration.skip]
  rw [htext] at hr
  cases hb with
  | @intro seen bare brackets entities events _ hb =>
    cases hat
    have hscan : Scanner.scan ("<fragment>" ++ body ++ "</fragment>").toList =
        some (events.reverse ++ Scanner.textEvents [] true) := by
      rw [Scanner.scan, show Scanner.Progress.read {} _ = _ from hr]
    rw [readFragment?, read?, hskip]
    simp only [Option.bind_eq_bind, Option.bind_some, hscan, Reader.ofEvents?, hb]
    rfl

/-- A page with markup characters in texts and attributes, and elements without children of both kinds. -/
def snippet : Element :=
  ⟨{ name := "page" },
    [.element { name := "div", attributes := [("class", "a & 'b'"), ("title", "\"<i>\"")] }
        [.text "1 < 2 ]]> &amp;\n", .element { name := "br" } [], .element { name := "p" } []],
      .text "end"]⟩

theorem snippet_reads_back :
    (∀ node ∈ snippet.children, node.All Node.Readable) ∧ TextsApart snippet.children ∧
      writeDocument .compact snippet = "<!DOCTYPE html>\n<div class=\"a &amp; &apos;b&apos;\" " ++
        "title=\"&quot;&lt;i&gt;&quot;\">1 &lt; 2 ]]&gt; &amp;amp;\n<br /><p></p></div>end" ∧
      ∃ body, writeDocument .compact snippet = doctype ++ body ∧
        Element.readFragment? body = some ⟨{ name := "fragment" }, snippet.children⟩ := by
  have hempty : ∀ {name : String}, isName name = true → (Node.element { name } []).All Node.Readable := fun h =>
    .element ⟨⟨h, rfl, rfl, List.nodup_nil, nofun⟩, List.isChain_nil⟩ nofun
  have htext : Node.All Node.Readable (.text "1 < 2 ]]> &amp;\n") := .leaf ⟨by decide, '1', by decide, rfl⟩ rfl
  have hdiv : ∀ node ∈ snippet.children, node.All Node.Readable := by
    refine List.forall_mem_cons.mpr ⟨.element ⟨⟨by decide, rfl, rfl, by decide, by decide⟩, by decide⟩ ?_, ?_⟩
    · simpa using ⟨htext, hempty (by decide), hempty (by decide)⟩
    · exact List.forall_mem_singleton.mpr (.leaf ⟨by decide, 'e', by decide, rfl⟩ rfl)
  have hapart : TextsApart snippet.children := by decide
  exact ⟨hdiv, hapart, by decide +kernel, Element.readFragment?_of_writeDocument snippet hdiv hapart⟩

end Markup
end Letterpress
