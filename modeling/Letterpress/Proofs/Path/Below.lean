import Letterpress.Proofs.Path.Relative

/-! Paths below a base. Such a path takes the steps of the base and then those down into directories of some names,
    however it is spelled. Seen from the base it takes the last of these steps only, and joined to another base it
    takes them from there. -/

namespace Letterpress
namespace Path

variable {base path name old : String} {names more : List String}

/-- The path takes the steps of the base and goes down from there by these names. -/
def Below (base : String) (names : List String) (path : String) : Prop :=
  components path = components base ++ names.map Component.name

instance (base : String) (names : List String) (path : String) : Decidable (Below base names path) :=
  inferInstanceAs (Decidable (_ = _))

/-! ### Steps down -/

theorem ofPart?_eq_name {part : String} (h : Component.ofPart? part = some (.name name)) :
    part = name ∧ name ≠ "" ∧ name ≠ "." ∧ name ≠ ".." := by
  rcases ofPart?_eq_some.mp h with ⟨-, ⟨⟩⟩ | ⟨hidle, hup, ⟨⟩⟩
  obtain ⟨hempty, hdot⟩ := isIdle_eq_false.mp hidle
  exact ⟨rfl, hempty, hdot, hup⟩

/-- The first part of a path takes a step of its own, the parts behind it those that they take anywhere. -/
theorem exists_parts (h : path ≠ "") : ∃ first rest, parts path = first :: rest ∧
    components path = Component.ofFirst first ++ rest.filterMap Component.ofPart? := by
  obtain ⟨first, rest, hp⟩ := List.exists_cons_of_ne_nil (parts_ne_nil path)
  exact ⟨first, rest, hp, components_trunk h (Or.inl hp)⟩

theorem components_empty : components "" = [] := rfl

theorem components_eq_nil : components path = [] ↔ path = "" := by
  constructor
  · intro h
    by_contra hne
    obtain ⟨first, rest, -, hsteps⟩ := exists_parts hne
    obtain ⟨step, hstep, -⟩ := exists_firstStep first
    rw [h, hstep] at hsteps
    cases hsteps
  · rintro rfl
    rfl

theorem ne_empty_of_component {step : Component} (h : step ∈ components path) : path ≠ "" := by
  rintro rfl
  cases h

theorem ofPart?_of_mem_ofFirst {first : String} (h : .name name ∈ Component.ofFirst first) :
    Component.ofPart? first = some (.name name) := by
  obtain ⟨step, hfirst, hstep⟩ := exists_firstStep first
  rw [hfirst, List.mem_singleton] at h
  cases h
  cases hstep with
  | part h => exact h

theorem isName_of_mem_components (h : .name name ∈ components path) : IsName name := by
  obtain ⟨first, rest, hp, hsteps⟩ := exists_parts (ne_empty_of_component h)
  have hpart : ∃ part ∈ parts path, Component.ofPart? part = some (.name name) := by
    rw [hsteps] at h
    rcases List.mem_append.mp h with h | h
    · exact ⟨first, hp ▸ List.mem_cons_self, ofPart?_of_mem_ofFirst h⟩
    · obtain ⟨part, hpart, hstep⟩ := List.mem_filterMap.mp h
      exact ⟨part, hp ▸ List.mem_cons_of_mem _ hpart, hstep⟩
  obtain ⟨part, hpart, hstep⟩ := hpart
  obtain ⟨rfl, hempty, hdot, hup⟩ := ofPart?_eq_name hstep
  exact ⟨hempty, hdot, hup, free_of_mem_parts hpart⟩

namespace Below

theorem isName (h : Below base names path) : ∀ name ∈ names, IsName name := by
  intro name hname
  have hstep : .name name ∈ components path := by
    rw [h]
    exact List.mem_append_right _ (List.mem_map_of_mem hname)
  exact isName_of_mem_components hstep

theorem refl (base : String) : Below base [] base :=
  (List.append_nil _).symm

theorem trans {longer : String} (h : Below base names path) (h' : Below path more longer) :
    Below base (names ++ more) longer := by
  rw [Below, h', h, List.map_append, List.append_assoc]

/-- The names by which a path goes down from a base are determined. -/
theorem names_eq (h : Below base names path) (h' : Below base more path) : names = more :=
  List.map_injective_iff.mpr (fun _ _ => Component.name.inj) (List.append_cancel_left (h.symm.trans h'))

end Below

/-- A path of names alone is a relative one, and each of its parts takes the step that it takes anywhere. -/
theorem Below.parts (h : Below "" names path) :
    isAbsolute path = false ∧ (parts path).filterMap Component.ofPart? = names.map Component.name := by
  have hnames : components path = names.map Component.name := h
  by_cases hne : path = ""
  · subst hne
    rw [← hnames]
    exact ⟨rfl, rfl⟩
  · obtain ⟨first, rest, hp, hsteps⟩ := exists_parts hne
    obtain ⟨step, hstep, -⟩ := exists_firstStep first
    rw [hnames, hstep] at hsteps
    obtain ⟨name, hname⟩ : ∃ name, step = .name name := by
      have hmem : step ∈ names.map Component.name := hsteps ▸ List.mem_cons_self
      obtain ⟨name, -, hname⟩ := List.mem_map.mp hmem
      exact ⟨name, hname.symm⟩
    subst hname
    have hfirst : Component.ofPart? first = some (.name name) := ofPart?_of_mem_ofFirst (hstep ▸ List.mem_cons_self)
    have hempty : first.isEmpty = false := Bool.eq_false_iff.mpr fun he => by
      rw [String.isEmpty_iff.mp he] at hfirst
      cases hfirst
    refine ⟨by rw [(isAbsolute_eq hp).1, hempty, Bool.false_and], ?_⟩
    rw [hp, List.filterMap_cons_some hfirst]
    exact hsteps.symm

theorem below_join {relative : String} (h : Below "" names relative) : Below base names (join base relative) := by
  obtain ⟨habsolute, hparts⟩ := h.parts
  by_cases hb : base = ""
  · subst hb
    rwa [join_empty]
  · rw [Below, components_join hb habsolute, hparts]

theorem IsName.below (h : IsName name) : Below "" [name] name := by
  have hp := parts_of_free h.2.2.2
  rw [Below, components_eq hp fun hempty => absurd hempty h.1, ofFirst_of_not_idle h.not_idle, h.ofPart?_eq]
  rfl

theorem below_foldl_join (h : ∀ name ∈ names, IsName name) : Below base names (names.foldl join base) := by
  induction names generalizing base with
  | nil => exact .refl base
  | cons name names ih =>
    obtain ⟨hname, hnames⟩ := List.forall_mem_cons.mp h
    exact (below_join hname.below).trans (ih hnames)

/-! ### Seen from the base -/

theorem components_ofParts {first : String} {rest : List String} (hfree : ∀ part ∈ first :: rest, '/' ∉ part.toList)
    (hne : first = "" → rest ≠ []) :
    components (ofParts (first :: rest)) = Component.ofFirst first ++ rest.filterMap Component.ofPart? :=
  components_eq (parts_ofParts (List.cons_ne_nil _ _) hfree) hne

theorem exists_trimParts (first : String) (rest : List String) : ∃ rest', trimParts (first :: rest) = first :: rest' ∧
    rest' ⊆ rest ∧ rest'.filterMap Component.ofPart? = rest.filterMap Component.ofPart? := by
  refine ⟨_, rfl, fun part h => ?_, ?_⟩
  · exact List.mem_reverse.mp ((List.dropWhile_sublist _).subset (List.mem_reverse.mp h))
  · rw [← filterMap_ofPart?_named, ← filterMap_ofPart?_named rest, named_reverse, named_dropWhile, named_reverse,
      List.reverse_reverse]

/-- What is left behind some steps begins with a part that takes one. -/
theorem dropSteps_spec (count : Nat) (ps : List String) :
    (dropSteps count ps).filterMap Component.ofPart? = (ps.filterMap Component.ofPart?).drop count ∧
      dropSteps count ps ⊆ ps ∧ ∀ part ∈ (dropSteps count ps).head?, isIdle part = false := by
  induction ps generalizing count with
  | nil => cases count <;> exact ⟨rfl, List.Subset.refl _, nofun⟩
  | cons part ps ih =>
    by_cases hidle : isIdle part = true
    · obtain ⟨hsteps, hsubset, hhead⟩ := ih count
      have hdrop : dropSteps count (part :: ps) = dropSteps count ps := by
        cases count <;> rw [dropSteps, if_pos hidle]
      rw [hdrop, List.filterMap_cons_none (ofPart?_eq_none.mpr hidle)]
      exact ⟨hsteps, List.Subset.trans hsubset (List.subset_cons_self _ _), hhead⟩
    · cases count with
      | zero =>
        rw [dropSteps, if_neg hidle]
        exact ⟨rfl, List.Subset.refl _, fun first h => Option.some.inj h ▸ Bool.not_eq_true _ ▸ hidle⟩
      | succ count =>
        obtain ⟨step, hstep⟩ := Option.ne_none_iff_exists'.mp (mt ofPart?_eq_none.mp hidle)
        obtain ⟨hsteps, hsubset, hhead⟩ := ih count
        rw [dropSteps, if_neg hidle, List.filterMap_cons_some hstep, List.drop_succ_cons]
        exact ⟨hsteps, List.Subset.trans hsubset (List.subset_cons_self _ _), hhead⟩

theorem steps_behind (h : Below base names path) (hb : base ≠ "") {first : String} {rest : List String}
    (hsteps : components path = Component.ofFirst first ++ rest.filterMap Component.ofPart?) :
    (dropSteps ((components base).length - 1) rest).filterMap Component.ofPart? = names.map Component.name := by
  obtain ⟨start, more, -, hbase⟩ := exists_parts hb
  obtain ⟨step, hstep, -⟩ := exists_firstStep first
  obtain ⟨step', hstep', -⟩ := exists_firstStep start
  rw [h, hbase, hstep, hstep', List.singleton_append, List.singleton_append, List.cons_append] at hsteps
  rw [(dropSteps_spec _ _).1, ← (List.cons_eq_cons.mp hsteps).2, hbase, hstep', List.singleton_append, List.length_cons,
    Nat.add_sub_cancel, List.drop_left]

/-- A path below a base is seen from it by the same names. -/
theorem Below.stripBase? (h : Below base names path) (hne : names ≠ []) :
    ∃ relative, stripBase? base path = some relative ∧ Below "" names relative := by
  have hpath : path ≠ "" := by
    rintro rfl
    have hnil : components base ++ names.map Component.name = [] := h.symm
    exact hne (List.map_eq_nil_iff.mp (List.append_eq_nil_iff.mp hnil).2)
  obtain ⟨first, rest, hp, hsteps⟩ := exists_parts hpath
  have hfront : (components base).isPrefixOf (components path) = true := by
    rw [List.isPrefixOf_iff_prefix, h]
    exact List.prefix_append _ _
  have hfree : ∀ part ∈ first :: rest, '/' ∉ part.toList := fun part hm => free_of_mem_parts (hp ▸ hm)
  rw [Path.stripBase?, if_pos hfront, hp]
  dsimp only
  by_cases hb : base = ""
  · -- seen from nowhere all parts of the path are left but the idle ones at its end
    subst hb
    obtain ⟨rest', htrim, hsubset, hrest⟩ := exists_trimParts first rest
    refine ⟨_, by rw [components_empty, List.isEmpty_nil, if_pos rfl], ?_⟩
    have hfirst : first ≠ "" := by
      rintro rfl
      have hroot : Component.root ∈ components path := hsteps ▸ List.mem_cons_self
      rw [h] at hroot
      simp [components_empty] at hroot
    rw [htrim, Below, components_ofParts (fun part hm => hfree part (List.cons_subset_cons first hsubset hm))
      fun hempty => absurd hempty hfirst, hrest, ← hsteps, h]
  · have hnonempty : (components base).isEmpty = false :=
      List.isEmpty_eq_false_iff.mpr fun hnil => hb (components_eq_nil.mp hnil)
    have hnames := steps_behind h hb hsteps
    obtain ⟨-, hsubset, hhead⟩ := dropSteps_spec ((components base).length - 1) rest
    rw [hnonempty, if_neg Bool.false_ne_true]
    generalize dropSteps ((components base).length - 1) rest = ps at hnames hsubset hhead ⊢
    cases ps with
    | nil => exact absurd (List.map_eq_nil_iff.mp hnames.symm) hne
    | cons first' rest' =>
      obtain ⟨rest'', htrim, hsubset', hrest⟩ := exists_trimParts first' rest'
      have hidle : isIdle first' = false := hhead first' rfl
      refine ⟨_, rfl, ?_⟩
      -- what is left begins with a part that takes a step
      rw [htrim, Below, components_ofParts, ofFirst_of_not_idle hidle, hrest, components_empty, List.nil_append, ← hnames, List.filterMap_cons]
      · cases Component.ofPart? first' <;> rfl
      · exact fun part hm => hfree part (List.mem_cons_of_mem _ (hsubset (List.cons_subset_cons first' hsubset' hm)))
      · rintro rfl
        cases hidle

/-! ### The name at the end -/

theorem fileName?_of_components {front : List Component} (h : components path = front ++ [.name name]) :
    fileName? path = some name := by
  rw [fileName?, h, List.getLast?_concat]

theorem steps_before_last {rest before : List String} {last : String} (h : rest.reverse.dropWhile isIdle = last :: before) :
    ∃ step, rest.filterMap Component.ofPart? =
      (before.dropWhile isIdle).reverse.filterMap Component.ofPart? ++ [step] := by
  have hlast : ¬isIdle last = true := Bool.not_eq_true _ ▸ not_of_dropWhile h
  obtain ⟨step, hstep⟩ := Option.ne_none_iff_exists'.mp (mt ofPart?_eq_none.mp hlast)
  refine ⟨step, ?_⟩
  rw [← filterMap_ofPart?_named, named_before_last h, List.filterMap_append, filterMap_ofPart?_named,
    List.filterMap_cons_some hstep, List.filterMap_nil]

/-- The directory of a path takes its steps but the last one. -/
theorem components_directory {front : List Component} {last : Component} (h : components path = front ++ [last]) :
    components (directory path) = front := by
  have hmem : last ∈ components path := h ▸ List.mem_concat_self
  obtain ⟨first, rest, hp, hsteps⟩ := exists_parts (ne_empty_of_component hmem)
  rw [h] at hsteps
  rw [directory, hp]
  dsimp only
  split
  · -- behind the first part all are idle, and it takes the only step
    rename_i hidle
    have hrest : rest.filterMap Component.ofPart? = [] := by
      rw [← filterMap_ofPart?_named, ← List.reverse_reverse rest, named_reverse, ← named_dropWhile, hidle]
      rfl
    obtain ⟨step, hstep, -⟩ := exists_firstStep first
    rw [hrest, List.append_nil, hstep] at hsteps
    have hfront : front ++ [last] = [] ++ [step] := hsteps
    rw [(List.append_inj' hfront rfl).1, components_empty]
  · rename_i part before hbefore
    obtain ⟨step, hrest⟩ := steps_before_last hbefore
    rw [hrest, ← List.append_assoc] at hsteps
    rw [(List.append_inj' hsteps rfl).1]
    split
    · rename_i hkept
      obtain ⟨rfl, htail⟩ := List.cons_eq_cons.mp hkept
      rw [htail]
      rfl
    · rename_i hkept
      refine components_ofParts (fun part hm => free_of_mem_parts (?_ : part ∈ parts path)) fun hempty htail => ?_
      · refine hp ▸ List.cons_subset_cons first (fun part hm => ?_) hm
        have hbefore' : part ∈ before := (List.dropWhile_sublist _).subset (List.mem_reverse.mp hm)
        have hdrop : part ∈ rest.reverse.dropWhile isIdle := hbefore ▸ List.mem_cons_of_mem _ hbefore'
        exact List.mem_reverse.mp ((List.dropWhile_sublist _).subset hdrop)
      · exact hkept (by rw [hempty, htail])

theorem components_withFileName {front : List Component} (h : components path = front ++ [.name old]) (hn : IsName name) :
    components (withFileName path name) = front ++ [.name name] := by
  rw [withFileName, fileName?_of_components h]
  have hjoin : Below (directory path) [name] (join (directory path) name) := below_join hn.below
  rw [hjoin, components_directory h]
  rfl

/-! ### Names on the way -/

/-- The part by which a step is written behind another one. -/
def Component.part? : Component → Option String
  | .root | .here => none
  | .parent => some ".."
  | .name text => some text

theorem part?_ofPart? (part : String) :
    (Component.ofPart? part).bind Component.part? = if isIdle part then none else some part := by
  cases hstep : Component.ofPart? part with
  | none =>
    rw [if_pos (ofPart?_eq_none.mp hstep)]
    rfl
  | some step =>
    rcases ofPart?_eq_some.mp hstep with ⟨rfl, rfl⟩ | ⟨hidle, -, rfl⟩
    · rfl
    · rw [hidle]
      rfl

theorem named_eq_filterMap (ps : List String) : named ps = (ps.filterMap Component.ofPart?).filterMap Component.part? := by
  rw [List.filterMap_filterMap]
  simp only [part?_ofPart?]
  induction ps with
  | nil => rfl
  | cons part ps ih =>
    cases hidle : isIdle part <;> simp [named, hidle] <;> exact ih

/-- The parts of a path that lead somewhere are those of its steps. -/
theorem named_parts (path : String) : named (parts path) = (components path).filterMap Component.part? := by
  by_cases hne : path = ""
  · subst hne
    rfl
  · obtain ⟨first, rest, hp, hsteps⟩ := exists_parts hne
    have hfirst : named [first] = (Component.ofFirst first).filterMap Component.part? := by
      obtain ⟨step, hfirst, hstep⟩ := exists_firstStep first
      rw [hfirst]
      cases hstep with
      | root => rfl
      | here => rfl
      | part h => rw [named_eq_filterMap, List.filterMap_cons_some h, List.filterMap_nil]
    rw [hp, hsteps, List.filterMap_append, ← hfirst, ← named_eq_filterMap, ← named_append, List.singleton_append]

theorem isAbsolute_eq_head? (path : String) : isAbsolute path = ((components path).head? == some .root) := by
  by_cases hne : path = ""
  · subst hne
    rfl
  · obtain ⟨first, rest, hp, hsteps⟩ := exists_parts hne
    have hrest : first = "" → rest ≠ [] := fun hf hr => hne ((isAbsolute_eq hp).2 hf hr)
    rw [(isAbsolute_eq hp).1, hsteps]
    obtain ⟨step, hfirst, hstep⟩ := exists_firstStep first
    rw [hfirst]
    cases hstep with
    | root =>
      rw [List.isEmpty_eq_false_iff.mpr (hrest rfl)]
      rfl
    | here => rfl
    | part h =>
      rcases ofPart?_eq_some.mp h with ⟨rfl, rfl⟩ | ⟨hidle, -, rfl⟩
      · rfl
      · have hempty : first.isEmpty = false :=
          Bool.eq_false_iff.mpr fun he => (isIdle_eq_false.mp hidle).1 (String.isEmpty_iff.mp he)
        rw [hempty]
        rfl

theorem Below.continues (h : Below base names path) : Continues base names path := by
  constructor
  · rw [isAbsolute_eq_head?, isAbsolute_eq_head?, h]
    cases components base with
    | nil => cases names <;> rfl
    | cons => rfl
  · have hnames : (names.map Component.name).filterMap Component.part? = names := by
      rw [List.filterMap_map]
      exact List.filterMap_some
    rw [named_parts, named_parts, h, List.filterMap_append, hnames]

theorem directory_spec {front : List String} (h : named (parts path) = front ++ [name]) (hn : IsName name) :
    isAbsolute (directory path) = isAbsolute path ∧ named (parts (directory path)) = front := by
  obtain ⟨start, hstart⟩ := components_named path
  have hsteps : components path = (start ++ front.filterMap Component.ofPart?) ++ [.name name] := by
    rw [hstart, h, List.filterMap_append, List.filterMap_cons_some hn.ofPart?_eq, List.append_assoc]
    rfl
  have hparts := named_parts path
  rw [h, hsteps, List.filterMap_append] at hparts
  rw [isAbsolute_eq_head?, isAbsolute_eq_head?, named_parts, components_directory hsteps, hsteps]
  refine ⟨?_, (List.append_inj' hparts rfl).1.symm⟩
  cases start ++ front.filterMap Component.ofPart? <;> rfl

theorem getLast?_parts_withFileName (h : fileName? path = some old) (hn : IsName name) :
    (parts (withFileName path name)).getLast? = some name := by
  have hparts : parts name = [name] := parts_of_free hn.2.2.2
  rw [withFileName, h]
  dsimp only
  by_cases hd : directory path = ""
  · rw [hd, join_empty, hparts]
    rfl
  · obtain ⟨trunk, -, -, hjoin⟩ := parts_join hd hn.not_absolute
    rw [hjoin, hparts, List.getLast?_concat]

end Path
end Letterpress
