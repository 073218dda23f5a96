import Letterpress.Decimal.Number
import Letterpress.Proofs.Text.Blank
import Mathlib.Data.List.TakeDrop

/-! Numbers as they are written. A finite number is written as digits, with a point and places behind them if
    its last place is not a whole one, and such a text reads as a number again. So do the names of infinity
    and of what is not a number, with a sign or without one: whatever is written as a number can be
    read as one. -/

namespace Letterpress
namespace Decimal

/-- Digits, or digits with a point and more digits behind them. -/
inductive Numeral : List Char → Prop
  | whole {digits : List Char} (hne : digits ≠ []) (hd : ∀ c ∈ digits, c.isDigit = true) : Numeral digits
  | point {digits places : List Char} (hne : digits ≠ []) (hd : ∀ c ∈ digits, c.isDigit = true)
      (hp : ∀ c ∈ places, c.isDigit = true) : Numeral (digits ++ '.' :: places)

theorem Numeral.isDigit_or_point {cs : List Char} (h : Numeral cs) : ∀ c ∈ cs, c.isDigit = true ∨ c = '.' := by
  cases h with
  | whole _ hd => exact fun c hc => Or.inl (hd c hc)
  | point _ hd hp =>
    intro c hc
    rcases List.mem_append.mp hc with hc | hc
    · exact Or.inl (hd c hc)
    · rcases List.mem_cons.mp hc with rfl | hc
      · exact Or.inr rfl
      · exact Or.inl (hp c hc)

/-- A numeral begins with a digit. -/
theorem Numeral.exists_digit {cs : List Char} (h : Numeral cs) : ∃ c rest, cs = c :: rest ∧ c.isDigit = true := by
  have front : ∀ digits rest : List Char, digits ≠ [] → (∀ c ∈ digits, c.isDigit = true) →
      ∃ c more, digits ++ rest = c :: more ∧ c.isDigit = true := by
    intro digits rest hne hd
    obtain ⟨c, more, rfl⟩ := List.exists_cons_of_ne_nil hne
    exact ⟨c, more ++ rest, rfl, hd c List.mem_cons_self⟩
  cases h with
  | whole hne hd => simpa using front _ [] hne hd
  | point hne hd _ => exact front _ _ hne hd

/-! ### Writing -/

theorem isDigit_of_mem_digitChars {n : Nat} {c : Char} (h : c ∈ digitChars n) : c.isDigit = true :=
  Nat.isDigit_of_mem_toDigits (by decide) (by decide) h

theorem digitChars_ne_nil (n : Nat) : digitChars n ≠ [] :=
  Nat.toDigits_ne_nil

theorem isDigit_of_mem_zeros {n : Nat} {c : Char} (h : c ∈ List.replicate n '0') : c.isDigit = true := by
  rw [(List.mem_replicate.mp h).2]
  decide

theorem numeral_positional (d : Scaled) : Numeral d.positional := by
  unfold Scaled.positional
  dsimp only
  split
  · refine .whole (List.append_ne_nil_of_left_ne_nil (digitChars_ne_nil _) _) fun c hc => ?_
    rcases List.mem_append.mp hc with hc | hc
    · exact isDigit_of_mem_digitChars hc
    · exact isDigit_of_mem_zeros hc
  · -- There are more digits than places, so one of them stands before the point.
    have hpadded : ∀ n, ∀ c ∈ List.replicate n '0' ++ digitChars d.digits, c.isDigit = true := by
      intro n c hc
      rcases List.mem_append.mp hc with hc | hc
      · exact isDigit_of_mem_zeros hc
      · exact isDigit_of_mem_digitChars hc
    refine .point ?_ (fun c hc => hpadded _ c (List.mem_of_mem_take hc)) fun c hc => hpadded _ c (List.mem_of_mem_drop hc)
    rw [ne_eq, List.take_eq_nil_iff, List.append_eq_nil_iff, List.length_append, List.length_replicate]
    rintro (h | ⟨-, h⟩)
    · omega
    · exact digitChars_ne_nil _ h

theorem numeral_magnitude (bits : UInt64) : Numeral (magnitude bits) := by
  unfold magnitude
  dsimp only
  split
  · exact .whole (by decide) (by simp)
  · exact numeral_positional _

/-! ### Reading -/

theorem span_digits {digits rest : List Char} (hd : ∀ c ∈ digits, c.isDigit = true)
    (hr : ∀ c, rest.head? = some c → c.isDigit = false) : (digits ++ rest).span Char.isDigit = (digits, rest) := by
  have hstop : rest.takeWhile Char.isDigit = [] ∧ rest.dropWhile Char.isDigit = rest := by
    cases rest with
    | nil => exact ⟨rfl, rfl⟩
    | cons c rest => simp [hr c rfl]
  rw [List.span_eq_takeWhile_dropWhile, List.takeWhile_append_of_pos hd, List.dropWhile_append_of_pos hd, hstop.1,
    hstop.2, List.append_nil]

theorem isSome_magnitude? {cs whole rest places : List Char} (hw : cs.span Char.isDigit = (whole, rest))
    (hp : fraction rest = (places, [])) (hne : whole ≠ [] ∨ places ≠ []) : (magnitude? cs).isSome = true := by
  have hempty : (whole.isEmpty && places.isEmpty) = false := by
    rw [Bool.and_eq_false_iff, List.isEmpty_eq_false_iff, List.isEmpty_eq_false_iff]
    exact hne
  simp only [magnitude?, hw, hp, hempty, Bool.false_eq_true, if_false, exponent?]
  rfl

theorem span_digits_alone {digits : List Char} (hd : ∀ c ∈ digits, c.isDigit = true) :
    digits.span Char.isDigit = (digits, []) := by
  simpa only [List.append_nil] using @span_digits digits [] hd nofun

theorem magnitude?_of_numeral {cs : List Char} (h : Numeral cs) : (magnitude? cs).isSome = true := by
  cases h with
  | whole hne hd => exact isSome_magnitude? (span_digits_alone hd) rfl (Or.inl hne)
  | point hne hd hp =>
    exact isSome_magnitude? (span_digits hd fun c hc => by cases hc; rfl) (span_digits_alone hp) (Or.inl hne)

/-- The digits before the point may be missing. -/
theorem magnitude?_of_fraction {places : List Char} (hne : places ≠ []) (hp : ∀ c ∈ places, c.isDigit = true) :
    (magnitude? ('.' :: places)).isSome = true := by
  have hpoint : ('.' :: places).span Char.isDigit = ([], '.' :: places) :=
    @span_digits [] ('.' :: places) nofun fun c hc => by cases hc; rfl
  have hplaces : fraction ('.' :: places) = (places, []) := span_digits_alone hp
  exact isSome_magnitude? hpoint hplaces (Or.inr hne)

theorem signed_of_numeral {cs : List Char} (h : Numeral cs) : signed cs = (false, cs) := by
  obtain ⟨c, rest, rfl, hc⟩ := h.exists_digit
  unfold signed
  split
  · rename_i heq
    cases heq
    cases hc
  · rename_i heq
    cases heq
    cases hc
  · rfl

/-! ### What is written is read -/

/-- The text writes a number between blanks. -/
def Numeric (text : String) : Prop :=
  (read? (Text.trim text)).isSome = true

instance (text : String) : Decidable (Numeric text) :=
  inferInstanceAs (Decidable (_ = true))

theorem isBlank_of_isDigit {c : Char} (h : c.isDigit = true) : Text.isBlank c = false := by
  have hc : 48 ≤ c.toNat ∧ c.toNat ≤ 57 := by
    simpa [Char.isDigit, UInt32.le_iff_toNat_le] using h
  unfold Text.isBlank
  simp
  omega

theorem isBlank_of_mem_numeral {cs : List Char} (h : Numeral cs) {c : Char} (hc : c ∈ cs) : Text.isBlank c = false := by
  rcases h.isDigit_or_point c hc with hd | rfl
  · exact isBlank_of_isDigit hd
  · decide

/-- What reads as a magnitude is a number, without a sign and behind a minus. -/
theorem numeric_of_magnitude {cs : List Char} (hs : signed cs = (false, cs)) (hm : (magnitude? cs).isSome = true)
    (hb : ∀ c ∈ cs, Text.isBlank c = false) : Numeric (String.ofList cs) ∧ Numeric (String.ofList ('-' :: cs)) := by
  have htrim : ∀ cs : List Char, (∀ c ∈ cs, Text.isBlank c = false) → Text.trim (String.ofList cs) = String.ofList cs :=
    fun cs h => Text.trim_of_forall (by simpa using h)
  constructor
  · rw [Numeric, htrim cs hb, read?, String.toList_ofList, hs]
    simpa using hm
  · rw [Numeric, htrim _ (List.forall_mem_cons.mpr ⟨by decide, hb⟩), read?, String.toList_ofList]
    simpa [signed] using hm

/-- Whatever is written as a number reads as one. -/
theorem numeric_render (x : Float) : Numeric (render x) := by
  unfold render
  split
  · decide +kernel
  · -- Behind the sign stands the name of infinity or a numeral.
    have hdigits : ∀ digits, digits = (if x.isInf then "inf".toList else magnitude x.toBits) →
        Numeric (String.ofList digits) ∧ Numeric (String.ofList ('-' :: digits)) := by
      rintro _ rfl
      split
      · exact numeric_of_magnitude (by decide) (by decide +kernel) (by simp [Text.isBlank])
      · have hn := numeral_magnitude x.toBits
        exact numeric_of_magnitude (signed_of_numeral hn) (magnitude?_of_numeral hn) fun c hc => isBlank_of_mem_numeral hn hc
    obtain ⟨hplain, hminus⟩ := hdigits _ rfl
    dsimp only
    split
    · exact hminus
    · exact hplain

end Decimal
end Letterpress
