import Errand.Proofs.Wildcard.Segmentation

/-! # Texts one behind the other

The search for a closing brace looks ahead as far as it must. In a text whose opening braces are all
matched within it no search leaves the text, so the cut of such a text and one behind it is the cut
of the first and then that of the second. The wildcards of the second stand so many characters
further on.
-/

namespace Errand

namespace Text

/-- Every opening brace of the text is matched by a closing brace of the text. Closing braces that
match nothing may stand anywhere. -/
def BracesClosed (t : Text) : Prop :=
  ∀ i, t[i]? = some '{' → ∃ source, source <+: t.drop i ∧ BraceMatched source

theorem BracesClosed.tail {c : Char} {t : Text} (h : BracesClosed (c :: t)) : BracesClosed t :=
  fun i hopen => h (i + 1) hopen

theorem BracesClosed.head {t : Text} (h : BracesClosed ('{' :: t)) :
    ∃ source rest, '{' :: t = source ++ rest ∧ BraceMatched source := by
  obtain ⟨source, ⟨rest, hsplit⟩, hmatched⟩ := h 0 rfl
  exact ⟨source, rest, hsplit.symm, hmatched⟩

theorem bracesClosed_cons_iff {c : Char} {t : Text} :
    BracesClosed (c :: t) ↔
      (c = '{' → (Wildcard.splitClosed? 0 (c :: t)).isSome = true) ∧ BracesClosed t := by
  constructor
  · intro h
    refine ⟨?_, h.tail⟩
    rintro rfl
    obtain ⟨source, rest, hsplit, hmatched⟩ := h.head
    rw [Wildcard.splitClosed?_of_matched hmatched hsplit]
    rfl
  · rintro ⟨hhead, htail⟩ i hopen
    cases i with
    | succ i => exact htail i hopen
    | zero =>
        obtain rfl : c = '{' := Option.some.inj hopen
        obtain ⟨⟨source, rest⟩, found⟩ := Option.isSome_iff_exists.mp (hhead rfl)
        obtain ⟨hsplit, hmatched⟩ := (Wildcard.splitClosed?_eq_some_iff rfl).mp found
        exact ⟨source, ⟨rest, hsplit.symm⟩, hmatched⟩

instance decidableBracesClosed : (t : Text) → Decidable (BracesClosed t)
  | [] => .isTrue fun _ hopen => nomatch hopen
  | _ :: t =>
      have : Decidable (BracesClosed t) := decidableBracesClosed t
      decidable_of_iff _ bracesClosed_cons_iff.symm

end Text

namespace Wildcard

open Text

def shift (n : Nat) (w : Wildcard) : Wildcard := { w with index := w.index + n }

def Reading.onWildcard (g : Wildcard → Wildcard) : Reading → Reading
  | .wildcard w => .wildcard (g w)
  | reading => reading

theorem read_shift (n : Nat) (index : Int) (t : Text) :
    read (index + n) t = (read index t).onWildcard (shift n) := by
  unfold read
  cases splitClosed? 0 t with
  | none => rfl
  | some found =>
      obtain ⟨source, rest⟩ := found
      dsimp only
      unfold ofSource ofInner
      split
      · rfl
      · cases Body.read? (source.drop 1).dropLast with
        | none => rfl
        | some body =>
            dsimp only
            unfold ofBody
            split <;> rfl

/-- What follows a text in which the first brace is matched plays no part in reading it. -/
theorem read_append {source rest : Text} {t : Text} (hmatched : BraceMatched source)
    (hsplit : t = source ++ rest) (index : Int) (u : Text) :
    read index (t ++ u) = read index t := by
  have hlonger : t ++ u = source ++ (rest ++ u) := by rw [hsplit, List.append_assoc]
  rw [read_of_matched hmatched hlonger, read_of_matched hmatched hsplit]

end Wildcard

namespace Segment

open Wildcard

theorem collect?_of_oversized {segments : List Segment} (h : .oversized ∈ segments) :
    collect? segments = none := by
  simp [collect?, h]

theorem collect?_append {segments : List Segment} (h : .oversized ∉ segments)
    (others : List Segment) :
    collect? (segments ++ others) =
      (collect? segments).bind fun ws => (collect? others).map (ws ++ ·) := by
  by_cases hothers : .oversized ∈ others <;> simp [collect?, h, hothers]

theorem collect?_map_onWildcard (g : Wildcard → Wildcard) (segments : List Segment) :
    collect? (segments.map (onWildcard g)) = (collect? segments).map (List.map g) := by
  induction segments with
  | nil => rfl
  | cons segment segments ih =>
      rw [List.map_cons]
      cases segment <;> simp [onWildcard, ih, Option.map_map, Function.comp_def]

theorem scan_shift (n skip index : Nat) (t : Text) :
    scan skip (index + n) t = (scan skip index t).map (onWildcard (shift n)) := by
  induction t generalizing skip index with
  | nil => cases skip <;> rfl
  | cons c t ih =>
      have hnext (skip : Nat) :
          scan skip (index + n + 1) t = (scan skip (index + 1) t).map (onWildcard (shift n)) := by
        rw [Nat.add_right_comm]
        exact ih skip (index + 1)
      cases skip with
      | succ skip => exact hnext skip
      | zero =>
          rw [scan, scan, Int.natCast_add, read_shift]
          by_cases hopen : c = '{'
          · rw [if_pos hopen, if_pos hopen]
            cases read index (c :: t) with
            | wildcard w => exact congrArg _ (hnext (w.source.length - 1))
            | malformed => exact congrArg _ (hnext 0)
            | oversized => rfl
          · rw [if_neg hopen, if_neg hopen]
            exact congrArg _ (hnext 0)

/-- Once a number with too many digits is met nothing more is cut, neither of this text nor of one
behind it. -/
theorem scan_append {skip index : Nat} {t : Text} (hclosed : t.BracesClosed)
    (hskip : skip ≤ t.length) (u : Text) :
    scan skip index (t ++ u) = scan skip index t ++
      if .oversized ∈ scan skip index t then [] else scan 0 (index + t.length) u := by
  induction t generalizing skip index with
  | nil =>
      obtain rfl : skip = 0 := by simpa using hskip
      simp [scan]
  | cons c t ih =>
      have hnext (skip : Nat) (hskip : skip ≤ t.length) :
          scan skip (index + 1) (t ++ u) = scan skip (index + 1) t ++
            if .oversized ∈ scan skip (index + 1) t then []
            else scan 0 (index + (c :: t).length) u := by
        rw [List.length_cons, Nat.add_comm t.length, ← Nat.add_assoc]
        exact ih hclosed.tail hskip
      rw [List.cons_append]
      cases skip with
      | succ skip => exact hnext skip (by simpa using hskip)
      | zero =>
          by_cases hopen : c = '{'
          · subst hopen
            obtain ⟨source, rest, hsplit, hmatched⟩ := hclosed.head
            have hread := read_append hmatched hsplit index u
            rw [List.cons_append] at hread
            rw [scan, scan, if_pos rfl, if_pos rfl, hread]
            cases hfound : read index ('{' :: t) with
            | oversized => simp
            | malformed => simp [hnext 0 (Nat.zero_le _)]
            | wildcard w =>
                obtain ⟨⟨tail, hwhole⟩, _⟩ := read_eq_wildcard hfound
                have hlength := congrArg List.length hwhole
                rw [List.length_append, List.length_cons] at hlength
                simp [hnext (w.source.length - 1) (by omega)]
          · rw [scan_of_ne_open hopen, scan_of_ne_open hopen, hnext 0 (Nat.zero_le _)]
            simp

end Segment

namespace Text

open Wildcard

variable {t : Text}

theorem segments_append (h : t.BracesClosed) (u : Text) :
    segments (t ++ u) = segments t ++
      if .oversized ∈ segments t then []
      else (segments u).map (Segment.onWildcard (shift t.length)) := by
  unfold segments
  rw [Segment.scan_append h (Nat.zero_le _), Segment.scan_shift]

/-- The wildcards of two texts, one behind the other. There are none if a number of either has too
many digits. -/
theorem wildcards?_append (h : t.BracesClosed) (u : Text) :
    wildcards? (t ++ u) = (wildcards? t).bind fun ws =>
      (wildcards? u).map fun vs => ws ++ vs.map (shift t.length) := by
  rw [wildcards?_eq, wildcards?_eq, wildcards?_eq, segments_append h]
  split
  · next hoversized =>
      rw [List.append_nil, Segment.collect?_of_oversized hoversized]
      rfl
  · next hsized =>
      rw [Segment.collect?_append hsized, Segment.collect?_map_onWildcard]
      simp only [Option.map_map, Function.comp_def]

end Text

end Errand
