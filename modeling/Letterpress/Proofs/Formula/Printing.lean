import Letterpress.Proofs.Formula.Precedence
import Letterpress.Proofs.Formula.Scanning

/-! Formulas as they are written. A formula is written without parentheses, and yet reading it again gives the same
    tree: its tokens are found again, as there is a blank on both sides of every operator, and a formula
    that has been read is the one precedence tree of its tokens. -/

namespace Letterpress
namespace Formula
open Token (Spaced)

/-- The written form of a formula is that of its tokens, with a blank between neighbours. -/
theorem spaced_render {e : Formula} (h : ∀ token ∈ e.tokens, token.WellFormed) : Spaced e.tokens e.render.toList := by
  induction e with
  | var path => exact .one (List.forall_mem_singleton.mp h)
  | constant text => exact .one (List.forall_mem_singleton.mp h)
  | binary op left right ihl ihr =>
    rw [tokens, List.forall_mem_append, List.forall_mem_cons] at h
    obtain ⟨hleft, hop, hright⟩ := h
    have hblank : ∀ c ∈ [' '], Text.isBlank c = true := List.forall_mem_singleton.mpr rfl
    have hgap : [' '] ≠ [] := List.cons_ne_nil _ _
    have hwritten : (binary op left right).render.toList =
        left.render.toList ++ ([' '] ++ ((Token.symbol op.symbol).text.toList ++ ([' '] ++ right.render.toList))) := by
      simp [render, Token.text]
    rw [hwritten]
    exact (ihl hleft).append hgap hblank (.more hop hgap hblank (ihr hright))

/-- The written form of a formula that has been read is read as the same formula. -/
theorem parse_render {text : String} {e : Formula} (h : parse text = .ok e) : parse e.render = .ok e := by
  unfold parse at h
  split at h
  · cases h
  · rename_i tokens hscan
    obtain ⟨rfl, htree⟩ := ofTokens_sound h
    have hspaced := spaced_render (Token.wellFormed_of_scan hscan)
    rw [parse_eq_ofTokens hspaced.scan_eq]
    exact ofTokens_eq_ok_iff.mpr ⟨rfl, htree⟩

/-- The hyphens belong to names, the points to numbers, and the operations are nested on both sides. -/
def ratio : Formula :=
  .binary .equal (.binary .minus (.constant "1.") (.binary .floorDivide (.var ["total-", "net"]) (.constant ".5")))
    (.binary .modulo (.binary .plus (.var ["x"]) (.binary .power (.constant "2.0") (.var ["y-1"]))) (.constant "3"))

theorem parse_render_ratio : parse "1.-total-.net//.5==x +2.0^y-1%3" = .ok ratio ∧
    ratio.render = "1. - total-.net // .5 == x + 2.0 ^ y-1 % 3" ∧ parse ratio.render = .ok ratio := by
  have hread : parse "1.-total-.net//.5==x +2.0^y-1%3" = .ok ratio := by decide +kernel
  exact ⟨hread, by decide +kernel, parse_render hread⟩

end Formula
end Letterpress
