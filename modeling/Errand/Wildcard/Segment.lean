import Errand.Wildcard.Reading

/-! # Segments of a text

A text is cut into wildcards and the characters between them, from the left. An opening brace that
starts no wildcard is a character like any other.
-/

namespace Errand

inductive Segment
  | char (c : Char)
  | wildcard (w : Wildcard)
  /-- A wildcard whose number has too many digits; nothing after it is read. -/
  | oversized
  deriving DecidableEq

namespace Segment

/-- The segments of a text that stands at `index`, after `skip` characters that belong to a wildcard
already read. -/
def scan : Nat → Nat → Text → List Segment
  | _, _, [] => []
  | skip + 1, index, _ :: t => scan skip (index + 1) t
  | 0, index, c :: t =>
    if c = '{' then
      match Wildcard.read index (c :: t) with
      | .wildcard w => .wildcard w :: scan (w.source.length - 1) (index + 1) t
      | .malformed => .char c :: scan 0 (index + 1) t
      | .oversized => [.oversized]
    else .char c :: scan 0 (index + 1) t

def wildcard? : Segment → Option Wildcard
  | .wildcard w => some w
  | _ => none

def source : Segment → Text
  | .char c => [c]
  | .wildcard w => w.source
  | .oversized => []

theorem scan_skip (skip index : Nat) (t : Text) :
    scan skip index t = scan 0 (index + skip) (t.drop skip) := by
  induction t generalizing skip index with
  | nil => cases skip <;> simp [scan]
  | cons c t ih =>
    cases skip with
    | zero => simp
    | succ skip => rw [scan, ih, List.drop_succ_cons, Nat.add_right_comm, Nat.add_assoc]

/-- Nothing is lost: the sources of the segments make up the text again. -/
theorem flatMap_source_scan (skip index : Nat) (t : Text) (h : .oversized ∉ scan skip index t) :
    (scan skip index t).flatMap source = t.drop skip := by
  induction t generalizing skip index with
  | nil => cases skip <;> simp [scan]
  | cons c t ih =>
    cases skip with
    | succ skip => exact ih _ _ h
    | zero =>
      simp only [scan] at h ⊢
      split
      · rename_i brace
        rw [if_pos brace] at h
        split
        · next w found =>
          obtain ⟨⟨rest, whole⟩, nonempty, _⟩ := Wildcard.read_eq_wildcard found
          rw [found] at h
          simp only [List.mem_cons, not_or] at h
          rw [List.flatMap_cons, ih _ _ h.2, List.drop_zero]
          cases hs : w.source with
          | nil => exact absurd hs nonempty
          | cons d s =>
            rw [hs, List.cons_append, List.cons.injEq] at whole
            simp [source, hs, whole.1, whole.2]
        · next found =>
          rw [found] at h
          simp only [List.mem_cons, not_or] at h
          simp [source, ih _ _ h.2]
        · next found => rw [found] at h; simp at h
      · rename_i brace
        rw [if_neg brace] at h
        simp only [List.mem_cons, not_or] at h
        simp [source, ih _ _ h.2]

end Segment

def Text.segments (t : Text) : List Segment := Segment.scan 0 0 t

/-- The wildcards of a text; nothing when the number of one has too many digits. -/
def Text.wildcards? (t : Text) : Option (List Wildcard) :=
  let segments := Text.segments t
  if segments.contains .oversized then none else some (segments.filterMap Segment.wildcard?)

inductive Piece
  | literal (t : Text)
  | wildcard (w : Wildcard)
  deriving DecidableEq

/-- Puts a character before the first literal. -/
def Piece.prependChar (c : Char) : List Piece → List Piece
  | .literal t :: pieces => .literal (c :: t) :: pieces
  | pieces => .literal [c] :: pieces

/-- Segments with neighbouring characters put together. -/
def Piece.ofSegments : List Segment → List Piece
  | [] => []
  | .char c :: segments => prependChar c (ofSegments segments)
  | .wildcard w :: segments => .wildcard w :: ofSegments segments
  | .oversized :: _ => []

end Errand
