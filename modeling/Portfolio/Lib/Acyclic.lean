import Mathlib.Data.Finset.Card
import Mathlib.Logic.Relation

/-!
# Acyclic relations

A relation without cycles has ranks on every finite set: the number of elements that can be reached.
-/

namespace Portfolio

def Acyclic {α : Type} (r : α → α → Prop) : Prop := ∀ a, ¬ Relation.TransGen r a a

theorem Acyclic.of_rank {α : Type} {r : α → α → Prop} (rank : α → Nat) (h : ∀ a b, r a b → rank b < rank a) :
    Acyclic r := by
  have htrans : ∀ a b, Relation.TransGen r a b → rank b < rank a := by
    intro a b hab
    induction hab with
    | single hab => exact h _ _ hab
    | tail _ hbc ih => exact (h _ _ hbc).trans ih
  exact fun a haa => lt_irrefl _ (htrans a a haa)

theorem Acyclic.exists_rank {α : Type} {r : α → α → Prop} (h : Acyclic r) (s : Finset α) :
    ∃ rank : α → Nat, (∀ a b, b ∈ s → r a b → rank b < rank a) ∧ ∀ a ∈ s, rank a < s.card := by
  classical
  refine ⟨fun a => (s.filter fun b => Relation.TransGen r a b).card, fun a b hb hab => ?_, fun a ha => ?_⟩
  · have hsub : (s.filter fun c => Relation.TransGen r b c) ⊆ s.filter fun c => Relation.TransGen r a c := by
      intro c hc
      obtain ⟨hc, hbc⟩ := Finset.mem_filter.1 hc
      exact Finset.mem_filter.2 ⟨hc, .head hab hbc⟩
    refine Finset.card_lt_card ((Finset.ssubset_iff_of_subset hsub).2 ⟨b, ?_, ?_⟩)
    · exact Finset.mem_filter.2 ⟨hb, .single hab⟩
    · exact fun hmem => h b (Finset.mem_filter.1 hmem).2
  · exact Finset.card_lt_card (Finset.filter_ssubset.2 ⟨a, ha, h a⟩)

end Portfolio
