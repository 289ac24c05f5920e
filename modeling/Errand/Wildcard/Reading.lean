import Errand.Wildcard.Basic
import Errand.Wildcard.Body

/-! # Reading one wildcard

A wildcard starts with an opening brace and ends at the closing brace that brings the depth back to
zero.
-/

namespace Errand

namespace Wildcard

/-- A text up to the closing brace that brings the depth back to zero, and what follows. -/
def splitClosed? : Int → Text → Option (Text × Text)
  | _, [] => none
  | depth, c :: t =>
    if c = '{' then (splitClosed? (depth + 1) t).map fun (source, rest) => (c :: source, rest)
    else if c = '}' then
      if depth = 1 then some ([c], t)
      else (splitClosed? (depth - 1) t).map fun (source, rest) => (c :: source, rest)
    else (splitClosed? depth t).map fun (source, rest) => (c :: source, rest)

/-- A closing brace ends the source at depth one. Any other character leads on, at a depth that does
not depend on what follows. -/
theorem splitClosed?_cons (depth : Int) (c : Char) :
    (c = '}' ∧ ∀ t, splitClosed? depth (c :: t) = some ([c], t)) ∨
      ∃ d, ∀ t, splitClosed? depth (c :: t) =
        (splitClosed? d t).map fun (source, rest) => (c :: source, rest) := by
  by_cases hopen : c = '{'
  · exact .inr ⟨depth + 1, fun t => if_pos hopen⟩
  · by_cases hclose : c = '}'
    · by_cases hdepth : depth = 1
      · refine .inl ⟨hclose, fun t => ?_⟩
        rw [splitClosed?, if_neg hopen, if_pos hclose, if_pos hdepth]
      · refine .inr ⟨depth - 1, fun t => ?_⟩
        rw [splitClosed?, if_neg hopen, if_pos hclose, if_neg hdepth]
    · refine .inr ⟨depth, fun t => ?_⟩
      rw [splitClosed?, if_neg hopen, if_neg hclose]

theorem splitClosed?_cons_eq_some {depth : Int} {c : Char} {t source rest : Text}
    (h : splitClosed? depth (c :: t) = some (source, rest)) :
    (c = '}' ∧ source = [c] ∧ rest = t ∧ ∀ u, splitClosed? depth (c :: u) = some ([c], u)) ∨
      ∃ d inner, source = c :: inner ∧ splitClosed? d t = some (inner, rest) ∧
        ∀ u tail, splitClosed? d u = some (inner, tail) →
          splitClosed? depth (c :: u) = some (c :: inner, tail) := by
  rcases splitClosed?_cons depth c with ⟨hclose, hends⟩ | ⟨d, hstep⟩
  · rw [hends, Option.some.injEq, Prod.mk.injEq] at h
    exact .inl ⟨hclose, h.1.symm, h.2.symm, hends⟩
  · rw [hstep] at h
    obtain ⟨⟨inner, tail⟩, found, pair⟩ := Option.map_eq_some_iff.mp h
    simp only [Prod.mk.injEq] at pair
    obtain ⟨rfl, rfl⟩ := pair
    exact .inr ⟨d, inner, rfl, found, fun u tail hu => by rw [hstep, hu, Option.map_some]⟩

theorem splitClosed?_eq_some {depth : Int} {t source rest : Text}
    (h : splitClosed? depth t = some (source, rest)) : t = source ++ rest ∧ source ≠ [] := by
  induction t generalizing depth source with
  | nil => simp [splitClosed?] at h
  | cons c t ih =>
    rcases splitClosed?_cons_eq_some h with ⟨_, rfl, rfl, _⟩ | ⟨d, inner, rfl, found, _⟩
    · simp
    · simp [(ih found).1]

inductive Reading
  | wildcard (w : Wildcard)
  | malformed
  | oversized
  deriving DecidableEq

def ofBody (source : Text) (index : Int) (body : Body) : Reading :=
  if Text.digitLimit < (body.digits.getD []).length then .oversized
  else .wildcard
    { source, index
      name := Text.lower body.name
      type := body.type.map Text.lower
      id := body.digits.map Text.number
      obfuscated := body.obfuscated
      metadata := body.metadata }

def ofInner (source inner : Text) (index : Int) : Reading :=
  if Text.allBlank inner then
    .wildcard { source, index, name := [], type := none, id := none, obfuscated := false,
                metadata := [] }
  else match Body.read? inner with
    | some body => ofBody source index body
    | none => .malformed

def ofSource (source : Text) (index : Int) : Reading :=
  ofInner source (source.drop 1).dropLast index

def read (index : Int) (t : Text) : Reading :=
  match splitClosed? 0 t with
  | some (source, _) => ofSource source index
  | none => .malformed

theorem ofSource_eq_wildcard {source : Text} {index : Int} {w : Wildcard}
    (h : ofSource source index = .wildcard w) : w.source = source ∧ w.index = index := by
  simp only [ofSource, ofInner] at h
  split at h
  · cases h; exact ⟨rfl, rfl⟩
  · split at h
    · simp only [ofBody] at h
      split at h
      · cases h
      · cases h; exact ⟨rfl, rfl⟩
    · cases h

theorem read_eq_wildcard {index : Int} {t : Text} {w : Wildcard}
    (h : read index t = .wildcard w) :
    (∃ rest, t = w.source ++ rest) ∧ w.source ≠ [] ∧ w.index = index := by
  simp only [read] at h
  split at h
  · next source rest found =>
    obtain ⟨whole, nonempty⟩ := splitClosed?_eq_some found
    obtain ⟨rfl, rfl⟩ := ofSource_eq_wildcard h
    exact ⟨⟨rest, whole⟩, nonempty, rfl⟩
  · cases h

/-! ## Reading at any count -/

/-- At a count from the end the search for the closing brace goes on from the start of the text, and
only a brace found there counts. -/
def readFromEnd (t : Text) (index : Int) : Reading × Int :=
  match splitClosed? 0 (t.drop (Text.placeOf t index) ++ t) with
  | none => (.malformed, index + 1)
  | some (source, _) =>
    let close := index + source.length - 1
    if close < 0 then (.malformed, index + 1)
    else
      let inner := Text.stretch t (index + 1) close
      match ofInner (Text.stretch t index (close + 1)) inner index with
      | .malformed => (.malformed, index + 1)
      | found => (found, close + 1)

/-- Reads the wildcard of the opening brace that is expected at a count, and says where to go on. A
count below zero is one from the end of the text; nothing is read beyond it. -/
def readAt? (t : Text) (index : Int) : Option (Reading × Int) :=
  if index < -t.length then none
  else if index < 0 then some (readFromEnd t index)
  else some (match read index (t.drop index.toNat) with
    | .wildcard w => (.wildcard w, w.stop)
    | found => (found, index + 1))

theorem readAt?_natCast (t : Text) (i : Nat) : readAt? t i = some (match read i (t.drop i) with
    | .wildcard w => (.wildcard w, w.stop)
    | found => (found, i + 1)) := by
  have inside : ¬(i : Int) < -t.length := by omega
  have fromStart : ¬(i : Int) < 0 := by omega
  simp [readAt?, inside, fromStart]

end Wildcard

end Errand
