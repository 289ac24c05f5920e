import Errand.Random.Dice
import Mathlib.Data.List.Forall2
import Mathlib.Tactic.SplitIfs

/-! # A shuffle looks at no item

Which places are exchanged depends on the generator and on the number of items. So lists whose items
correspond place by place still do after both are shuffled by one generator.
-/

namespace Errand

variable {α β : Type}

theorem exists_pairs {R : α → β → Prop} {xs : List α} {ys : List β} (h : List.Forall₂ R xs ys) :
    ∃ pairs : List (α × β), xs = pairs.map Prod.fst ∧ ys = pairs.map Prod.snd ∧
      ∀ p ∈ pairs, R p.1 p.2 := by
  induction h with
  | nil => exact ⟨[], rfl, rfl, fun _ hp => absurd hp List.not_mem_nil⟩
  | @cons x y xs ys hxy _ ih =>
      obtain ⟨pairs, rfl, rfl, hpairs⟩ := ih
      exact ⟨(x, y) :: pairs, rfl, rfl, List.forall_mem_cons.mpr ⟨hxy, hpairs⟩⟩

theorem forall₂_iff_map_eq {γ : Type} {f : α → γ} {g : β → γ} {xs : List α} {ys : List β} :
    List.Forall₂ (fun x y => f x = g y) xs ys ↔ xs.map f = ys.map g := by
  rw [← List.forall₂_eq_eq_eq, List.forall₂_map_left_iff, List.forall₂_map_right_iff]

theorem forall₂_imp_mem {R S : α → β → Prop} {xs : List α} {ys : List β} (h : List.Forall₂ R xs ys)
    (himp : ∀ x y, x ∈ xs → y ∈ ys → R x y → S x y) : List.Forall₂ S xs ys := by
  induction h with
  | nil => exact .nil
  | cons hxy _ ih =>
      refine .cons (himp _ _ List.mem_cons_self List.mem_cons_self hxy) (ih ?_)
      exact fun x y hx hy => himp x y (List.mem_cons_of_mem _ hx) (List.mem_cons_of_mem _ hy)

namespace Twister

theorem swapIfInBounds_map (f : α → β) (items : Array α) (i j : Nat) :
    (items.map f).swapIfInBounds i j = (items.swapIfInBounds i j).map f := by
  simp only [Array.swapIfInBounds_def, Array.size_map]
  split
  · split
    · ext k _ _
      · simp
      · simp only [Array.getElem_map, Array.getElem_swap]
        split_ifs <;> rfl
    · rfl
  · rfl

theorem shuffleFrom_map (f : α → β) (i : Nat) (items : Array α) (g : Twister) :
    shuffleFrom i (items.map f) g = ((shuffleFrom i items g).1.map f, (shuffleFrom i items g).2) := by
  induction i generalizing items g with
  | zero => rfl
  | succ i ih =>
      simp only [shuffleFrom]
      rw [swapIfInBounds_map, ih]

theorem shuffle_map (f : α → β) (items : List α) (g : Twister) :
    (shuffle (items.map f) g).1 = (shuffle items g).1.map f := by
  have harray : (items.map f).toArray = items.toArray.map f := by simp
  unfold shuffle
  rw [List.length_map, harray, shuffleFrom_map]
  simp

/-- One generator brings lists that correspond into orders that correspond. -/
theorem forall₂_shuffle {R : α → β → Prop} {xs : List α} {ys : List β} (h : List.Forall₂ R xs ys)
    (g : Twister) : List.Forall₂ R (shuffle xs g).1 (shuffle ys g).1 := by
  obtain ⟨pairs, rfl, rfl, hpairs⟩ := exists_pairs h
  rw [shuffle_map, shuffle_map, List.forall₂_map_left_iff, List.forall₂_map_right_iff,
    List.forall₂_same]
  intro p hp
  exact hpairs p ((perm_shuffle pairs g).mem_iff.mp hp)

end Twister

theorem Dice.forall₂_shuffle {R : α → β → Prop} {xs : List α} {ys : List β}
    (h : List.Forall₂ R xs ys) (d : Dice) : List.Forall₂ R (d.shuffle xs).1 (d.shuffle ys).1 :=
  Twister.forall₂_shuffle h d.generator

end Errand
