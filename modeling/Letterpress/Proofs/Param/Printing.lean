import Letterpress.Proofs.Param.WellFormed
import Letterpress.Proofs.Path.Parts

/-! Declarations as they are written: an element with the name, the type and the word for required, around the
    declarations of the items or fields, with layout anywhere between them. What is read from elements are the
    well-formed declarations, and each of them is read from every way to write it. -/

namespace Letterpress

/-- The words around a separator. -/
theorem Text.words_append {isSeparator : Char → Bool} {c : Char} (hc : isSeparator c = true) {text : String}
    {front rest : List Char} (h : text.toList = front ++ c :: rest) :
    words isSeparator text = words isSeparator (String.ofList front) ++ words isSeparator (String.ofList rest) := by
  simp only [words, split, h, splitChars_append hc, List.map_append, List.filter_append, String.toList_ofList]

namespace Param
open Markup (Node Element Head)

/-- The declarations right inside: the one of the items or those of the fields. -/
def parts : Param → List Param
  | text .. | markup .. => []
  | list _ _ item => [item]
  | record _ _ fields => fields

/-- What the type of the declaration asks for. -/
def kind : Param → Kind
  | text _ _ form => .text form
  | markup .. => .markup
  | list .. => .list
  | record .. => .record

/-- The word for whether a parameter is required. -/
def requiredWord (required : Bool) : String :=
  if required then "true" else "false"

mutual

/-- The node declares the parameter, and what stands inside it declares the parts. -/
inductive Declares : Node → Param → Prop
  | element {head : Head} {children : List Node} {param : Param} (tag : head.name = "param")
      (name : head.attributes.lookup "name" = some param.name)
      (type : head.attributes.lookup "type" = some param.typeName)
      (required : head.attributes.lookup "required" = some (requiredWord param.required))
      (inside : DeclareAll children param.parts) : Declares (.element head children) param

/-- The nodes declare the parameters in order, with comments and blank texts anywhere between them. -/
inductive DeclareAll : List Node → List Param → Prop
  | nil : DeclareAll [] []
  | comment {content : String} {nodes : List Node} {params : List Param} (rest : DeclareAll nodes params) :
      DeclareAll (.comment content :: nodes) params
  | blank {content : String} {nodes : List Node} {params : List Param} (h : Text.allBlank content = true)
      (rest : DeclareAll nodes params) : DeclareAll (.text content :: nodes) params
  | next {node : Node} {nodes : List Node} {param : Param} {params : List Param} (first : Declares node param)
      (rest : DeclareAll nodes params) : DeclareAll (node :: nodes) (param :: params)

end

/-! ### The head of a declaration -/

theorem words_list (type : String) :
    Text.words (fun c => c == ',' || Text.isBlank c) ("list," ++ type) =
      "list" :: Text.words (fun c => c == ',' || Text.isBlank c) type := by
  have hsplit : ("list," ++ type).toList = "list".toList ++ ',' :: type.toList := by simp
  have hfirst : Text.words (fun c => c == ',' || Text.isBlank c) "list" = ["list"] := by decide +kernel
  rw [Text.words_append rfl hsplit, String.ofList_toList, String.ofList_toList, hfirst]
  rfl

theorem ofType_text (form : TextForm) : Kind.ofType ("text," ++ form.name) = .ok (.text form) := by
  cases form <;> exact eq_ok_of_toOption (by decide +kernel)

theorem ofType_typeName (param : Param) : Kind.ofType param.typeName = .ok param.kind := by
  cases param with
  | text name required form => exact ofType_text form
  | markup name required =>
    have hxml : Kind.ofType "xml" = .ok .markup := eq_ok_of_toOption (by decide +kernel)
    exact hxml
  | list name required item =>
    rw [typeName, Kind.ofType, words_list]
    rfl
  | record name required fields =>
    have hstruct : Kind.ofType "struct" = .ok .record := eq_ok_of_toOption (by decide +kernel)
    exact hstruct

theorem readRequired_requiredWord (required : Bool) : readRequired (some (requiredWord required)) = .ok required := by
  cases required <;> rfl

theorem WellFormed.isName {param : Param} (h : param.WellFormed) : IsName param.name := by
  cases h <;> assumption

theorem readHead_of_declares {head : Head} {children : List Node} {param : Param}
    (h : Declares (.element head children) param) (hw : param.WellFormed) :
    readHead ⟨head, children⟩ = .ok (param.name, param.required, param.kind) := by
  obtain ⟨hne, htrim⟩ := hw.isName
  cases h with
  | element tag name type required _ =>
    have hname : Element.attribute? ⟨head, children⟩ "name" = some param.name := name
    have htype : Element.attribute? ⟨head, children⟩ "type" = some param.typeName := type
    have hrequired : Element.attribute? ⟨head, children⟩ "required" = some (requiredWord param.required) := required
    have htag : Element.name ⟨head, children⟩ = "param" := tag
    simp only [readHead, htag, hname, htype, hrequired, htrim, hne, readRequired_requiredWord, ofType_typeName]
    rfl

/-! ### Reading what is written -/

theorem itemOf_of_layout {name : String} {e : Element} {item : Param} {nodes : List Node} (h : DeclareAll nodes []) :
    itemOf name e (some item) nodes = .ok item := by
  induction nodes with
  | nil => rfl
  | cons node nodes ih =>
    cases h with
    | comment rest => exact (if_pos rfl).trans (ih rest)
    | blank hblank rest => exact (if_pos hblank).trans (ih rest)

mutual

theorem ofNode_of_declares {stray : Error} : ∀ {node : Node} {param : Param}, Declares node param → param.WellFormed →
    ofNode stray node = .ok param
  | .element head children, param, h, hw => by
    rw [ofNode, readHead_of_declares h hw]
    cases h with
    | element _ _ _ _ inside =>
      cases hw with
      | text => rfl
      | markup => rfl
      | list required hn hitem =>
        exact bind_eq_ok.mpr ⟨_, rfl, bind_eq_ok.mpr ⟨_, itemOf_of_declareAll inside hitem, rfl⟩⟩
      | @record name required fields hn some_field distinct hfields =>
        have hread : fieldsOf name [] children = .ok fields := fieldsOf_of_declareAll inside hfields distinct
        refine bind_eq_ok.mpr ⟨_, rfl, bind_eq_ok.mpr ⟨_, hread, ?_⟩⟩
        exact if_neg fun hempty => some_field (List.isEmpty_iff.mp hempty)
  | .text _, _, h, _ | .cdata _, _, h, _ | .comment _, _, h, _ | .instruction .., _, h, _ => by cases h

theorem itemOf_of_declareAll {name : String} {e : Element} : ∀ {nodes : List Node} {item : Param},
    DeclareAll nodes [item] → item.WellFormed → itemOf name e none nodes = .ok item
  | node :: nodes, item, h, hw => by
    cases h with
    | comment rest => exact (if_pos rfl).trans (itemOf_of_declareAll rest hw)
    | blank hblank rest => exact (if_pos hblank).trans (itemOf_of_declareAll rest hw)
    | next first rest =>
      have hitem : ofNode (.schema name .listText) node = .ok item := ofNode_of_declares first hw
      cases first
      exact bind_eq_ok.mpr ⟨item, hitem, itemOf_of_layout rest⟩

theorem fieldsOf_of_declareAll {name : String} : ∀ {nodes : List Node} {before fields : List Param},
    DeclareAll nodes fields → (∀ field ∈ fields, field.WellFormed) → ((before ++ fields).map Param.name).Nodup →
    fieldsOf name before nodes = .ok (before ++ fields)
  | [], before, _, .nil, _, _ => by rw [List.append_nil]; rfl
  | node :: nodes, before, fields, h, hw, hd => by
    cases h with
    | comment rest => exact (if_pos rfl).trans (fieldsOf_of_declareAll rest hw hd)
    | blank hblank rest => exact (if_pos hblank).trans (fieldsOf_of_declareAll rest hw hd)
    | @next _ _ field fields first rest =>
      obtain ⟨hfield, hfields⟩ := List.forall_mem_cons.mp hw
      have hread : ofNode (.schema name .recordText) node = .ok field := ofNode_of_declares first hfield
      have hnew := new_of_distinct hd
      rw [List.append_cons] at hd ⊢
      cases first
      exact bind_eq_ok.mpr ⟨field, hread, (if_neg hnew).trans (fieldsOf_of_declareAll rest hfields hd)⟩

end

theorem ofElement_of_declares {e : Element} {param : Param} (h : Declares e.toNode param) (hw : param.WellFormed) :
    ofElement e = .ok param :=
  ofNode_of_declares h hw

/-! ### Writing -/

/-- The opening tag of the declaration. -/
def declarationHead (param : Param) : Head where
  name := "param"
  attributes := [("name", param.name), ("type", param.typeName), ("required", requiredWord param.required)]

mutual

/-- The declarations of the parts, without layout. -/
def inside : Param → List Node
  | text .. | markup .. => []
  | list _ _ item => [.element item.declarationHead item.inside]
  | record _ _ fields => insideAll fields

/-- The declarations of the parameters, without layout. -/
def insideAll : List Param → List Node
  | [] => []
  | param :: params => .element param.declarationHead param.inside :: insideAll params

end

/-- The parameter as a declaration. -/
def declaration (param : Param) : Element :=
  ⟨param.declarationHead, param.inside⟩

mutual

theorem declares_declaration : ∀ param : Param, Declares param.declaration.toNode param
  | text .. | markup .. => .element rfl rfl rfl rfl .nil
  | list _ _ item => .element rfl rfl rfl rfl (.next (declares_declaration item) .nil)
  | record _ _ fields => .element rfl rfl rfl rfl (declareAll_insideAll fields)

theorem declareAll_insideAll : ∀ params : List Param, DeclareAll (insideAll params) params
  | [] => .nil
  | param :: params => .next (declares_declaration param) (declareAll_insideAll params)

end

/-- The parameters that are read from elements are the well-formed ones. Each of them can be written as a
    declaration, and is read back from all the ways to write it. -/
theorem declarations_read_back (param : Param) :
    ((∃ e, ofElement e = .ok param) ↔ param.WellFormed) ∧
    Declares param.declaration.toNode param ∧
    (param.WellFormed → ∀ e : Element, Declares e.toNode param → ofElement e = .ok param) := by
  have hread : param.WellFormed → ∀ e : Element, Declares e.toNode param → ofElement e = .ok param :=
    fun hw e he => ofElement_of_declares he hw
  refine ⟨⟨?_, fun hw => ⟨param.declaration, hread hw _ param.declares_declaration⟩⟩, param.declares_declaration, hread⟩
  rintro ⟨e, he⟩
  exact wellFormed_of_ofElement he

/-- A list of records, one field of which has a form of its own. -/
def parcels : Param :=
  .list "parcels" false (.record "parcel" true [.text "weight" true .float, .markup "label" false])

/-- Its declaration, laid out over lines, with a comment in each list of parts. -/
def parcelsElement : Element :=
  ⟨{ name := "param", attributes := [("type", "list,struct"), ("required", "false"), ("name", "parcels")] }, [
    .text "\n  ", .comment "one at a time",
    .element { name := "param", attributes := [("name", "parcel"), ("type", "struct"), ("required", "true")] } [
      .element { name := "param", attributes := [("name", "weight"), ("type", "text,float"), ("required", "true")] } [],
      .comment "in pounds", .text "\t",
      .element { name := "param", attributes := [("name", "label"), ("type", "xml"), ("required", "false")] } []],
    .text "\n"]⟩

theorem parcels_wellFormed : parcels.WellFormed := by
  refine .list false (by decide) (.record true (by decide) (List.cons_ne_nil _ _) (by decide) ?_)
  exact List.forall_mem_cons.mpr ⟨.text true .float (by decide), List.forall_mem_singleton.mpr (.markup false (by decide))⟩

theorem parcels_declared : Declares parcelsElement.toNode parcels := by
  refine .element rfl rfl rfl rfl (.blank rfl (.comment (.next ?_ (.blank rfl .nil))))
  refine .element rfl rfl rfl rfl (.next ?_ (.comment (.blank rfl (.next ?_ .nil))))
  · exact .element rfl rfl rfl rfl .nil
  · exact .element rfl rfl rfl rfl .nil

theorem parcels_read_back :
    parcels.WellFormed ∧ Declares parcelsElement.toNode parcels ∧ ofElement parcelsElement = .ok parcels :=
  ⟨parcels_wellFormed, parcels_declared, (declarations_read_back parcels).2.2 parcels_wellFormed _ parcels_declared⟩

end Param
end Letterpress
