import Errand.Text.Basic

/-! # Pools

Entries in a drawn order, taken from either end without replacement.
-/

namespace Errand

/-- A draw that found nothing: the pool, and what was asked of the entry. -/
structure Shortage where
  pool : Text
  detail : Text
  deriving DecidableEq

def Shortage.message (s : Shortage) : Text :=
  "No ".toList ++ s.pool ++ " left to draw".toList ++
    (if s.detail.isEmpty then [] else " (".toList ++ s.detail ++ [')']) ++
    "; the prototype asks for more unique entries than the catalog holds".toList

namespace Pool

variable {α : Type}

def takeLast? : List α → Option (α × List α)
  | [] => none
  | item :: items =>
    match takeLast? items with
    | none => some (item, [])
    | some (last, rest) => some (last, item :: rest)

def takeFirst? (wanted : α → Bool) : List α → Option (α × List α)
  | [] => none
  | item :: items =>
    if wanted item then some (item, items)
    else (takeFirst? wanted items).map fun (first, rest) => (first, item :: rest)

theorem takeLast?_append (items : List α) (last : α) :
    takeLast? (items ++ [last]) = some (last, items) := by
  induction items with
  | nil => rfl
  | cons item items ih => simp [takeLast?, ih]

theorem takeLast?_eq_some {items rest : List α} {last : α}
    (h : takeLast? items = some (last, rest)) : items = rest ++ [last] := by
  rcases List.eq_nil_or_concat items with rfl | ⟨front, item, rfl⟩
  · simp [takeLast?] at h
  · rw [List.concat_eq_append, takeLast?_append] at h
    simp only [Option.some.injEq, Prod.mk.injEq] at h
    rw [List.concat_eq_append, h.1, h.2]

theorem takeLast?_eq_none {items : List α} : takeLast? items = none ↔ items = [] := by
  rcases List.eq_nil_or_concat items with rfl | ⟨front, item, rfl⟩
  · simp [takeLast?]
  · rw [List.concat_eq_append, takeLast?_append]
    simp

theorem takeFirst?_eq_some {wanted : α → Bool} {items rest : List α} {first : α}
    (h : takeFirst? wanted items = some (first, rest)) :
    wanted first = true ∧ ∃ before after, items = before ++ first :: after ∧
      rest = before ++ after ∧ ∀ x ∈ before, wanted x = false := by
  induction items generalizing rest with
  | nil => simp [takeFirst?] at h
  | cons item items ih =>
    simp only [takeFirst?] at h
    split at h
    · simp only [Option.some.injEq, Prod.mk.injEq] at h
      obtain ⟨rfl, rfl⟩ := h
      exact ⟨by assumption, [], _, rfl, rfl, by simp⟩
    · obtain ⟨⟨x, xs⟩, found, pair⟩ := Option.map_eq_some_iff.mp h
      simp only [Prod.mk.injEq] at pair
      obtain ⟨rfl, rfl⟩ := pair
      obtain ⟨accepted, before, after, rfl, rfl, none⟩ := ih found
      exact ⟨accepted, item :: before, after, rfl, rfl, by simp_all⟩

theorem takeFirst?_eq_none {wanted : α → Bool} {items : List α} :
    takeFirst? wanted items = none ↔ ∀ x ∈ items, wanted x = false := by
  induction items with
  | nil => simp [takeFirst?]
  | cons item items ih =>
    simp only [takeFirst?]
    split <;> simp_all

end Pool

end Errand
