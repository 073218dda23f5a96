import Mathlib.Data.List.Forall2
import Mathlib.Data.List.Nodup

/-! Tables: lists of entries, each under a name. Where the names are distinct the order of the entries makes no
    difference to what is found. -/

namespace Letterpress

variable {α : Type}

/-- What is found in a table with one more entry was found before or stands in that entry. -/
theorem lookup_concat {entries : List (String × α)} {key name : String} {value found : α}
    (h : (entries ++ [(key, value)]).lookup name = some found) :
    entries.lookup name = some found ∨ name = key ∧ found = value := by
  rw [List.lookup_append] at h
  rcases Option.or_eq_some_iff.mp h with hbefore | ⟨-, hlast⟩
  · exact Or.inl hbefore
  · rw [List.lookup_cons] at hlast
    split at hlast
    · rename_i hname
      cases hlast
      exact Or.inr ⟨eq_of_beq hname, rfl⟩
    · cases hlast

theorem lookup_cons_eq {entries : List (String × α)} {name key : String} {value : α} :
    ((key, value) :: entries).lookup name = if name = key then some value else entries.lookup name := by
  by_cases h : name = key
  · simp [h]
  · have hne : (name == key) = false := beq_eq_false_iff_ne.mpr h
    rw [List.lookup_cons, hne, if_neg h]

theorem mem_of_lookup {entries : List (String × α)} {name : String} {value : α} (h : entries.lookup name = some value) :
    (name, value) ∈ entries := by
  obtain ⟨before, after, rfl, -⟩ := List.lookup_eq_some_iff.mp h
  simp

theorem lookup_eq_none {entries : List (String × α)} {name : String} :
    entries.lookup name = none ↔ name ∉ entries.map Prod.fst := by
  rw [List.lookup_eq_none_iff]
  constructor
  · intro h hm
    obtain ⟨entry, he, rfl⟩ := List.mem_map.mp hm
    simpa using h entry he
  · exact fun h entry he => bne_iff_ne.mpr fun heq => h (heq ▸ List.mem_map_of_mem he)

theorem lookup_of_mem {entries : List (String × α)} (hd : (entries.map Prod.fst).Nodup) {name : String} {value : α}
    (h : (name, value) ∈ entries) : entries.lookup name = some value := by
  cases hl : entries.lookup name with
  | none => exact absurd (List.mem_map_of_mem h) (lookup_eq_none.mp hl)
  | some found =>
    have heq := List.inj_on_of_nodup_map hd (mem_of_lookup hl) h rfl
    cases heq
    rfl

theorem lookup_perm {entries entries' : List (String × α)} (hd : (entries.map Prod.fst).Nodup)
    (h : entries.Perm entries') (name : String) : entries'.lookup name = entries.lookup name := by
  have hnames := h.map Prod.fst
  cases hl : entries.lookup name with
  | none => exact lookup_eq_none.mpr fun hm => lookup_eq_none.mp hl (hnames.mem_iff.mpr hm)
  | some value => exact lookup_of_mem (hnames.nodup_iff.mp hd) (h.mem_iff.mp (mem_of_lookup hl))

theorem nodup_concat {entries : List (String × α)} {name : String} {value : α} :
    ((entries ++ [(name, value)]).map Prod.fst).Nodup ↔ (entries.map Prod.fst).Nodup ∧ entries.lookup name = none := by
  rw [List.map_append, List.map_singleton, List.nodup_append, lookup_eq_none]
  constructor
  · rintro ⟨hd, -, hne⟩
    exact ⟨hd, fun hm => hne name hm name (List.mem_singleton.mpr rfl) rfl⟩
  · rintro ⟨hd, hnew⟩
    refine ⟨hd, List.nodup_singleton _, ?_⟩
    rintro first hfirst second hsecond rfl
    have heq : first = name := List.mem_singleton.mp hsecond
    exact hnew (heq ▸ hfirst)

/-! ### Members with distinct names -/

section
variable {key : α → String} {members : List α} {name : String}

theorem find?_named (hd : (members.map key).Nodup) {a : α} :
    members.find? (key · == name) = some a ↔ a ∈ members ∧ key a = name := by
  constructor
  · intro h
    have hname := List.find?_some h
    exact ⟨List.mem_of_find?_eq_some h, eq_of_beq hname⟩
  · rintro ⟨ha, rfl⟩
    cases hf : members.find? (key · == key a) with
    | none => exact absurd (beq_self_eq_true (key a)) (by simpa using List.find?_eq_none.mp hf a ha)
    | some found =>
      have hname := List.find?_some hf
      rw [List.inj_on_of_nodup_map hd (List.mem_of_find?_eq_some hf) ha (eq_of_beq hname)]

theorem find?_named_perm {members' : List α} (hd : (members.map key).Nodup) (h : members.Perm members') :
    members'.find? (key · == name) = members.find? (key · == name) :=
  Option.ext fun _ => by
    rw [find?_named hd, find?_named ((h.map key).nodup_iff.mp hd), h.mem_iff]

end

/-! ### Lists that go together -/

theorem exists_of_forall₂ {β : Type} {R : α → β → Prop} {as : List α} {bs : List β} (h : List.Forall₂ R as bs) {a : α}
    (ha : a ∈ as) : ∃ b ∈ bs, R a b := by
  induction h with
  | nil => cases ha
  | @cons a' b as bs hab _ ih =>
    rcases List.mem_cons.mp ha with rfl | ha
    · exact ⟨b, List.mem_cons_self, hab⟩
    · obtain ⟨b', hb', h⟩ := ih ha
      exact ⟨b', List.mem_cons_of_mem _ hb', h⟩

theorem exists_left_of_forall₂ {β : Type} {R : α → β → Prop} {as : List α} {bs : List β} (h : List.Forall₂ R as bs) {b : β}
    (hb : b ∈ bs) : ∃ a ∈ as, R a b :=
  @exists_of_forall₂ _ _ (flip R) _ _ h.flip _ hb

/-- What goes together goes together in another way, where being members of the lists is enough for that. -/
theorem forall₂_imp_of_mem {β : Type} {R S : α → β → Prop} {as : List α} {bs : List β} (h : List.Forall₂ R as bs)
    (himp : ∀ a ∈ as, ∀ b ∈ bs, R a b → S a b) : List.Forall₂ S as bs := by
  induction h with
  | nil => exact .nil
  | @cons a b as bs hab _ ih =>
    exact .cons (himp a List.mem_cons_self b List.mem_cons_self hab) (ih fun a' ha b' hb =>
      himp a' (List.mem_cons_of_mem _ ha) b' (List.mem_cons_of_mem _ hb))

theorem exists_forall₂ {β : Type} {R : α → β → Prop} {as : List α} (h : ∀ a ∈ as, ∃ b, R a b) :
    ∃ bs, List.Forall₂ R as bs := by
  induction as with
  | nil => exact ⟨[], .nil⟩
  | cons a as ih =>
    obtain ⟨⟨b, hb⟩, hrest⟩ := List.forall_mem_cons.mp h
    obtain ⟨bs, hbs⟩ := ih hrest
    exact ⟨b :: bs, .cons hb hbs⟩

/-- What goes together with one of two lists goes together with the other, where their members do. -/
theorem forall₂_congr_left {α' β : Type} {S : α → α' → Prop} {R : α → β → Prop} {R' : α' → β → Prop} {as : List α}
    {as' : List α'} (h : List.Forall₂ S as as') (hs : ∀ a a', S a a' → ∀ b, R a b ↔ R' a' b) {bs : List β} :
    List.Forall₂ R as bs ↔ List.Forall₂ R' as' bs := by
  induction h generalizing bs with
  | nil => rw [List.forall₂_nil_left_iff, List.forall₂_nil_left_iff]
  | cons hfirst _ ih => simp only [List.forall₂_cons_left_iff, hs _ _ hfirst, ih]

end Letterpress
