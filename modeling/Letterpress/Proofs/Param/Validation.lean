import Letterpress.Param.Validation
import Letterpress.Proofs.Markup.Tree
import Letterpress.Proofs.Result
import Letterpress.Proofs.Table
import Letterpress.Proofs.Template.Declared

/-! What validating consists of: when each reader accepts the nodes it is given, and what it makes of them. -/

namespace Letterpress
namespace Param
open Markup (Node Element)

variable {ctx : Context} {param : Param} {e : Element}

/-! ### Items -/

theorem readItems_eq_ok {itemName : String} {readItem : Element → Except Error Value} {nodes : List Node}
    {values : List Value} :
    readItems param e itemName readItem nodes = .ok values ↔
      List.Forall₂ (fun node value => ∃ item, node.element? = some item ∧ item.name = itemName ∧
        readItem item = .ok value) nodes values := by
  induction nodes generalizing values with
  | nil =>
    rw [List.forall₂_nil_left_iff]
    exact ⟨fun h => by cases h; rfl, fun h => by rw [h]; rfl⟩
  | cons node nodes ih =>
    rw [List.forall₂_cons_left_iff]
    constructor
    · intro h
      unfold readItems at h
      split at h
      · cases h
      · rename_i item he
        split at h
        · rename_i hname
          obtain ⟨value, hv, h⟩ := bind_eq_ok.mp h
          obtain ⟨rest, hr, h⟩ := bind_eq_ok.mp h
          cases h
          exact ⟨value, rest, ⟨item, he, hname, hv⟩, ih.mp hr, rfl⟩
        · cases h
    · rintro ⟨value, rest, ⟨item, he, hname, hv⟩, hr, rfl⟩
      simp only [readItems, he, hname, if_true]
      exact bind_eq_ok.mpr ⟨value, hv, bind_eq_ok.mpr ⟨rest, ih.mpr hr, rfl⟩⟩

/-! ### Fields -/

/-- The node is an element that can be read, and the entry is its name with what is read. -/
def Supplies (read : Element → Option (Except Error Value)) (node : Node) (entry : String × Value) : Prop :=
  ∃ child, node.element? = some child ∧ child.name = entry.1 ∧ read child = some (.ok entry.2)

/-- The nodes supply the entries, each node one. -/
def Supplied (read : Element → Option (Except Error Value)) (nodes : List Node) (entries : List (String × Value)) :
    Prop :=
  List.Forall₂ (Supplies read) nodes entries

namespace Supplied

variable {read : Element → Option (Except Error Value)} {nodes : List Node} {entries : List (String × Value)}

theorem of_mem (h : Supplied read nodes entries) {name : String} {value : Value} (hm : (name, value) ∈ entries) :
    ∃ child, child.toNode ∈ nodes ∧ child.name = name ∧ read child = some (.ok value) := by
  obtain ⟨node, hnode, child, he, h⟩ := exists_of_forall₂ h.flip hm
  exact ⟨child, Node.element?_eq_some.mp he ▸ hnode, h⟩

theorem children (h : Supplied read nodes entries) :
    ∃ children : List Element, nodes = children.map Element.toNode ∧
      List.Forall₂ (fun child entry => child.name = entry.1 ∧ read child = some (.ok entry.2)) children entries := by
  induction h with
  | nil => exact ⟨[], rfl, .nil⟩
  | cons hfirst _ ih =>
    obtain ⟨child, he, h⟩ := hfirst
    obtain ⟨children, rfl, hrest⟩ := ih
    exact ⟨child :: children, by rw [Node.element?_eq_some.mp he]; rfl, .cons h hrest⟩

/-- Elements that can be read supply entries, under their names. -/
theorem of_children {children : List Element} (h : ∀ child ∈ children, ∃ value, read child = some (.ok value)) :
    ∃ entries, Supplied read (children.map Element.toNode) entries ∧ entries.map Prod.fst = children.map Element.name := by
  induction children with
  | nil => exact ⟨[], .nil, rfl⟩
  | cons child children ih =>
    obtain ⟨hchild, hchildren⟩ := List.forall_mem_cons.mp h
    obtain ⟨value, hv⟩ := hchild
    obtain ⟨entries, hs, hnames⟩ := ih hchildren
    exact ⟨(child.name, value) :: entries, .cons ⟨child, rfl, rfl, hv⟩ hs, by simp [hnames]⟩

end Supplied

theorem names_of_forall₂ {children : List Element} {entries : List (String × Value)}
    {R : Element → String × Value → Prop} (h : List.Forall₂ R children entries)
    (hr : ∀ child entry, R child entry → child.name = entry.1) : children.map Element.name = entries.map Prod.fst := by
  induction h with
  | nil => rfl
  | cons hfirst _ ih => rw [List.map_cons, List.map_cons, hr _ _ hfirst, ih]

/-- Reading fields adds one entry for each node, under names that are distinct and have not been found before. -/
theorem readFields_eq_ok {readField : Element → Option (Except Error Value)} {found found' : List (String × Value)}
    {nodes : List Node} (hd : (found.map Prod.fst).Nodup) :
    readFields param e readField found nodes = .ok found' ↔
      ∃ entries, Supplied readField nodes entries ∧ ((found ++ entries).map Prod.fst).Nodup ∧
        found' = found ++ entries := by
  induction nodes generalizing found with
  | nil =>
    constructor
    · intro h
      cases h
      exact ⟨[], .nil, by rwa [List.append_nil], (List.append_nil _).symm⟩
    · rintro ⟨entries, hs, -, rfl⟩
      cases hs
      rw [List.append_nil]
      rfl
  | cons node nodes ih =>
    constructor
    · intro h
      unfold readFields at h
      split at h
      · cases h
      · rename_i child he
        split at h
        · cases h
        · rename_i result hread
          split at h
          · cases h
          · rename_i hnew
            obtain ⟨value, rfl, h⟩ := bind_eq_ok.mp h
            have hnone : found.lookup child.name = none := Option.not_isSome_iff_eq_none.mp hnew
            obtain ⟨entries, hs, hd', rfl⟩ := (ih (nodup_concat.mpr ⟨hd, hnone⟩)).mp h
            refine ⟨(child.name, value) :: entries, .cons ⟨child, he, rfl, hread⟩ hs, ?_, ?_⟩
            · rwa [List.append_assoc] at hd'
            · rw [List.append_assoc, List.singleton_append]
    · rintro ⟨entries, hs, hd', rfl⟩
      cases hs with
      | @cons _ entry _ entries hfirst hs =>
        obtain ⟨name, value⟩ := entry
        obtain ⟨child, he, rfl, hread⟩ := hfirst
        rw [← List.singleton_append, ← List.append_assoc] at hd'
        have hconcat : ((found ++ [(child.name, value)]).map Prod.fst).Nodup := by
          rw [List.map_append] at hd'
          exact hd'.of_append_left
        simp only [readFields, he, hread, (nodup_concat.mp hconcat).2]
        refine bind_eq_ok.mpr ⟨value, rfl, (ih hconcat).mpr ⟨entries, hs, hd', ?_⟩⟩
        rw [List.append_assoc, List.singleton_append]

/-- The entries found, put into the order of the declaration. -/
theorem arrange_eq_ok {found values : List (String × Value)} {fields : List Param} :
    arrange param e found fields = .ok values ↔
      List.Forall₂ (fun field entry => entry.1 = field.name ∧ found.lookup field.name = some entry.2) fields values := by
  induction fields generalizing values with
  | nil =>
    rw [List.forall₂_nil_left_iff]
    exact ⟨fun h => by cases h; rfl, fun h => by rw [h]; rfl⟩
  | cons field fields ih =>
    rw [List.forall₂_cons_left_iff]
    constructor
    · intro h
      unfold arrange at h
      split at h
      · cases h
      · rename_i value hv
        obtain ⟨rest, hr, h⟩ := bind_eq_ok.mp h
        cases h
        exact ⟨_, rest, ⟨rfl, hv⟩, ih.mp hr, rfl⟩
    · rintro ⟨⟨name, value⟩, rest, ⟨hname, hv⟩, hr, rfl⟩
      cases hname
      simp only [arrange, hv]
      exact bind_eq_ok.mpr ⟨rest, ih.mpr hr, rfl⟩

theorem lookup_arranged {found values : List (String × Value)} {fields : List Param}
    (h : List.Forall₂ (fun field entry => entry.1 = field.name ∧ found.lookup field.name = some entry.2) fields values)
    (name : String) : values.lookup name = (fields.find? (·.name == name)).bind fun _ => found.lookup name := by
  induction h with
  | nil => rfl
  | @cons field entry fields values hfirst _ ih =>
    obtain ⟨key, value⟩ := entry
    obtain ⟨rfl, hv⟩ := hfirst
    by_cases hname : field.name = name
    · simp [hname, ← hv]
    · have hne : (name == field.name) = false := beq_eq_false_iff_ne.mpr (Ne.symm hname)
      rw [List.lookup_cons, hne, List.find?_cons_of_neg (by simpa using hname)]
      exact ih

theorem validateField_eq (name : String) (fields : List Param) (e : Element) :
    validateField ctx name fields e = (fields.find? (·.name == name)).map (·.validate ctx e) := by
  induction fields with
  | nil => simp [validateField]
  | cons field fields ih =>
    by_cases h : field.name = name
    · simp [validateField, h]
    · simp [validateField, h, ih]

/-! ### Texts -/

/-- A text of the form is read as the value. -/
inductive Reads (ctx : Context) : TextForm → String → Value → Prop
  | generic (content : String) : Reads ctx .generic content (.text content)
  | integer {content : String} (h : (Decimal.readInt64? (Text.trim content)).isSome = true) :
      Reads ctx .integer content (.text (Text.trim content))
  | float {content : String} (h : (Decimal.read? (Text.trim content)).isSome = true) :
      Reads ctx .float content (.text (Text.trim content))
  | file {content : String} (hne : Path.relative (Text.trim content) ≠ "")
      (h : ctx.hasFile (Path.relative (Text.trim content)) = true) :
      Reads ctx .file content (.text ("/" ++ Path.relative (Text.trim content)))
  | date {content : String} {date : Calendar.Date} (h : Calendar.Date.read? (Text.trim content) = some date) :
      Reads ctx .date content (dateValue (Text.trim content) date)
  | markdown {content : String} {fragment : Element} (h : Element.readFragment? (Markdown.toHtml content) = some fragment) :
      Reads ctx .markdown content (.markup fragment)

theorem readText_eq_ok {form : TextForm} {content : String} {value : Value} :
    readText ctx form content = .ok value ↔ Reads ctx form content value := by
  constructor
  · intro h
    unfold readText at h
    cases form with
    | generic =>
      cases h
      exact .generic content
    | integer =>
      dsimp only at h
      split at h <;> cases h
      exact .integer ‹_›
    | float =>
      dsimp only at h
      split at h <;> cases h
      exact .float ‹_›
    | file =>
      dsimp only at h
      split at h <;> cases h
      rename_i hfile
      simp only [Bool.or_eq_true, String.isEmpty_iff, Bool.not_eq_true', not_or, Bool.not_eq_false] at hfile
      exact .file hfile.1 hfile.2
    | date =>
      dsimp only at h
      split at h <;> cases h
      exact .date ‹_›
    | markdown =>
      dsimp only at h
      split at h <;> cases h
      exact .markdown ‹_›
  · intro h
    unfold readText
    cases h with
    | generic => rfl
    | integer h | float h => exact if_pos h
    | file hne h => simp [hne, h]
    | date h | markdown h => simp only [h]

/-! ### Parameters -/

theorem validate_text_eq_ok {name : String} {required : Bool} {form : TextForm} {value : Value} :
    (text name required form).validate ctx e = .ok value ↔
      ∃ content, plainText e = .ok content ∧ readText ctx form content = .ok value := by
  rw [validate, mapError_eq_ok]
  exact bind_eq_ok

theorem validate_list_eq_ok_iff {name : String} {required : Bool} {item : Param} {value : Value} :
    (list name required item).validate ctx e = .ok value ↔
      ∃ items, value = .list items ∧
        List.Forall₂ (fun node value => ∃ child, node.element? = some child ∧ child.name = item.name ∧
          item.validate ctx child = .ok value) e.significant items := by
  rw [validate, bind_eq_ok]
  constructor
  · rintro ⟨items, hi, h⟩
    cases h
    exact ⟨items, rfl, readItems_eq_ok.mp hi⟩
  · rintro ⟨items, rfl, hi⟩
    exact ⟨items, readItems_eq_ok.mpr hi, rfl⟩

theorem validate_list_eq_ok {name : String} {required : Bool} {item : Param} {value : Value}
    (h : (list name required item).validate ctx e = .ok value) :
    ∃ items, value = .list items ∧
      List.Forall₂ (fun node value => ∃ child, node.element? = some child ∧ child.name = item.name ∧
        item.validate ctx child = .ok value) e.significant items :=
  validate_list_eq_ok_iff.mp h

theorem validate_record_eq_ok {name : String} {required : Bool} {fields : List Param} {value : Value} :
    (record name required fields).validate ctx e = .ok value ↔
      ∃ entries values, value = .record values ∧
        Supplied (fun child => validateField ctx child.name fields child) e.significant entries ∧
        (entries.map Prod.fst).Nodup ∧
        List.Forall₂ (fun field entry => entry.1 = field.name ∧ entries.lookup field.name = some entry.2)
          fields values := by
  have hnil : (([] : List (String × Value)).map Prod.fst).Nodup := List.nodup_nil
  rw [validate, bind_eq_ok]
  constructor
  · rintro ⟨found, hf, h⟩
    obtain ⟨values, hv, h⟩ := bind_eq_ok.mp h
    cases h
    obtain ⟨entries, hs, hd, hfound⟩ := (readFields_eq_ok hnil).mp hf
    rw [List.nil_append] at hd hfound
    exact ⟨entries, values, rfl, hs, hd, hfound ▸ arrange_eq_ok.mp hv⟩
  · rintro ⟨entries, values, rfl, hs, hd, hv⟩
    exact ⟨entries, (readFields_eq_ok hnil).mpr ⟨entries, hs, hd, rfl⟩,
      bind_eq_ok.mpr ⟨values, arrange_eq_ok.mpr hv, rfl⟩⟩

/-- A record accepts elements that have the names of its fields, each name once, and fit them. -/
theorem validate_record_iff {name : String} {required : Bool} {fields : List Param}
    (hd : (fields.map Param.name).Nodup) {value : Value} :
    (record name required fields).validate ctx e = .ok value ↔
      ∃ (children : List Element) (values : List (String × Value)), value = .record values ∧
        e.significant = children.map Element.toNode ∧ (children.map Element.name).Perm (fields.map Param.name) ∧
        List.Forall₂ (fun field entry => entry.1 = field.name ∧
          ∃ child ∈ children, child.name = field.name ∧ field.validate ctx child = .ok entry.2) fields values := by
  -- Since the names are distinct, a child is read by the one field with its name.
  have hread : ∀ field ∈ fields, ∀ child : Element, child.name = field.name →
      validateField ctx child.name fields child = some (field.validate ctx child) := by
    intro field hf child hname
    rw [validateField_eq, hname, (find?_named hd).mpr ⟨hf, rfl⟩, Option.map_some]
  rw [validate_record_eq_ok]
  constructor
  · rintro ⟨entries, values, rfl, hs, hdistinct, hv⟩
    obtain ⟨children, hnodes, hchildren⟩ := hs.children
    have hnames := names_of_forall₂ hchildren fun _ _ h => h.1
    refine ⟨children, values, rfl, hnodes, ?_, forall₂_imp_of_mem hv fun field hf entry _ h => ⟨h.1, ?_⟩⟩
    · rw [List.perm_ext_iff_of_nodup (hnames ▸ hdistinct) hd, hnames]
      refine fun key => ⟨fun hkey => ?_, fun hkey => ?_⟩
      · obtain ⟨⟨_, found⟩, hfound, rfl⟩ := List.mem_map.mp hkey
        obtain ⟨child, -, rfl, hchild⟩ := hs.of_mem hfound
        rw [validateField_eq] at hchild
        obtain ⟨field, hf, -⟩ := Option.map_eq_some_iff.mp hchild
        exact List.mem_map.mpr ⟨field, (find?_named hd).mp hf⟩
      · obtain ⟨field, hf, rfl⟩ := List.mem_map.mp hkey
        obtain ⟨entry, -, -, hl⟩ := exists_of_forall₂ hv hf
        exact List.mem_map_of_mem (mem_of_lookup hl)
    · obtain ⟨child, hmem, hname, hchild⟩ := hs.of_mem (mem_of_lookup h.2)
      rw [hread field hf child hname] at hchild
      rw [hnodes, List.mem_map_of_injective Element.toNode_injective] at hmem
      exact ⟨child, hmem, hname, Option.some.inj hchild⟩
  · rintro ⟨children, values, rfl, hnodes, hnames, hv⟩
    have hdistinct : (children.map Element.name).Nodup := hnames.nodup_iff.mpr hd
    -- A child with the name of a field is the one that this field accepts, as no other child has the name.
    have hall : ∀ child ∈ children, ∃ value, validateField ctx child.name fields child = some (.ok value) := by
      intro child hchild
      obtain ⟨field, hf, hname⟩ := List.mem_map.mp (hnames.mem_iff.mp (List.mem_map_of_mem hchild))
      obtain ⟨⟨_, value⟩, -, -, other, hother, hothername, hvalue⟩ := exists_of_forall₂ hv hf
      cases List.inj_on_of_nodup_map hdistinct hother hchild (hothername.trans hname)
      exact ⟨value, by rw [hread field hf child hothername, hvalue]⟩
    obtain ⟨entries, hs, hkeys⟩ := Supplied.of_children hall
    refine ⟨entries, values, rfl, hnodes ▸ hs, hkeys ▸ hdistinct, forall₂_imp_of_mem hv fun field hf entry _ h => ⟨h.1, ?_⟩⟩
    obtain ⟨-, child, hchild, hname, hvalue⟩ := h
    have hkey : field.name ∈ entries.map Prod.fst := hkeys ▸ hname ▸ List.mem_map_of_mem hchild
    obtain ⟨⟨_, found⟩, hfound, rfl⟩ := List.mem_map.mp hkey
    obtain ⟨other, hother, hothername, hread'⟩ := hs.of_mem hfound
    rw [List.mem_map_of_injective Element.toNode_injective] at hother
    cases List.inj_on_of_nodup_map hdistinct hother hchild (hothername.trans hname.symm)
    rw [hread field hf child hname, hvalue] at hread'
    cases hread'
    exact lookup_of_mem (hkeys ▸ hdistinct) hfound

end Param
end Letterpress
