import Mathlib.Computability.Language
import Mathlib.Order.CompletePartialOrder

/-!
# Readers

A reader consumes a word from the left while it changes its state. `Takes run φ l ψ` is its triple:
from a state with `φ`, a word of the language `l` brings it to a state with `ψ`, whatever text follows.
Triples compose as the words do.
-/

namespace Portfolio
open scoped Computability

variable {σ α β : Type} {run : σ → List α → β} {φ ψ χ : σ → Prop} {l m : Language α}

theorem mem_of_language_le (h : l ≤ m) {x : List α} (hx : x ∈ l) : x ∈ m := Set.mem_of_subset_of_mem h hx

variable (run) in
def Takes (φ : σ → Prop) (l : Language α) (ψ : σ → Prop) : Prop :=
  ∀ p, φ p → ∀ x ∈ l, ∀ rest, ∃ p', ψ p' ∧ run p (x ++ rest) = run p' rest

namespace Takes

theorem mono {φ' ψ' : σ → Prop} (h : Takes run φ l ψ) (hφ : ∀ p, φ' p → φ p) (hψ : ∀ p, ψ p → ψ' p) :
    Takes run φ' l ψ' := by
  intro p hp x hx rest
  obtain ⟨p', hp', hrun⟩ := h p (hφ p hp) x hx rest
  exact ⟨p', hψ p' hp', hrun⟩

theorem one : Takes run φ 1 φ := by
  intro p hp x hx rest
  rw [(Language.mem_one x).1 hx]
  exact ⟨p, hp, rfl⟩

theorem add (hl : Takes run φ l ψ) (hm : Takes run φ m ψ) : Takes run φ (l + m) ψ := by
  intro p hp x hx rest
  rcases (Language.mem_add l m x).1 hx with hx | hx
  · exact hl p hp x hx rest
  · exact hm p hp x hx rest

theorem mul (hl : Takes run φ l ψ) (hm : Takes run ψ m χ) : Takes run φ (l * m) χ := by
  intro p hp x hx rest
  obtain ⟨a, ha, b, hb, rfl⟩ := Language.mem_mul.1 hx
  obtain ⟨p', hp', hrun⟩ := hl p hp a ha (b ++ rest)
  obtain ⟨p'', hp'', hrun'⟩ := hm p' hp' b hb rest
  exact ⟨p'', hp'', by rw [List.append_assoc, hrun, hrun']⟩

theorem kstar (h : Takes run φ l φ) : Takes run φ l∗ φ := by
  intro p hp x hx rest
  obtain ⟨words, rfl, hwords⟩ := Language.mem_kstar.1 hx
  induction words generalizing p with
  | nil => exact ⟨p, hp, rfl⟩
  | cons word words ih =>
    obtain ⟨p', hp', hrun⟩ := h p hp word (hwords word List.mem_cons_self) (words.flatten ++ rest)
    have hrest := fun w hw => hwords w (List.mem_cons_of_mem word hw)
    obtain ⟨p'', hp'', hrun'⟩ := ih p' hp' hrest (Language.join_mem_kstar hrest)
    exact ⟨p'', hp'', by rw [List.flatten_cons, List.append_assoc, hrun, hrun']⟩

end Takes

end Portfolio
