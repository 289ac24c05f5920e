import Errand.Session.Resolve
import Errand.Text.Lines
import Errand.Wildcard.Segment

/-! # Replacing wildcards inside a text

A text with the name of an entry for each wildcard, and the lines of the metadata that these
wildcards carry. The metadata of a wildcard is a text of the same sort, one level deeper; below the
depth limit it is left as it is.
-/

namespace Errand

/-- A result, and the session after it. A failure leaves the draws made before it in force. -/
abbrev Run (α : Type) := Except Failure α × Session

namespace Session

abbrev LineReader := Text → Session → Run (List Text)

def linesOf (reader : LineReader) (w : Wildcard) (s : Session) : Run (List Text) :=
  if w.metadata.isEmpty then (.ok [], s) else reader w.metadata s

def replaceSegments (reader : LineReader) : List Segment → Session → Run (List Value × List Text)
  | [], s => (.ok ([], []), s)
  | .oversized :: _, s => (.error .oversizedNumber, s)
  | .char c :: segments, s =>
    match replaceSegments reader segments s with
    | (.ok (shown, lines), s) => (.ok (.text [c] :: shown, lines), s)
    | (.error e, s) => (.error e, s)
  | .wildcard w :: segments, s =>
    let r := resolve w s
    match r.result with
    | .error shortage => (.error (.exhausted shortage), r.session)
    | .ok element =>
      match linesOf reader w r.session with
      | (.error e, s) => (.error e, s)
      | (.ok own, s) =>
        match replaceSegments reader segments s with
        | (.error e, s) => (.error e, s)
        | (.ok (shown, lines), s) =>
          let name := match element with
            | some e => e.name
            | none => .text w.source
          (.ok (name :: shown, own ++ lines), s)

/-- Replacing the segments of two texts one after the other is replacing those of both. -/
theorem replaceSegments_append (reader : LineReader) (xs ys : List Segment) (s : Session) :
    replaceSegments reader (xs ++ ys) s =
      match replaceSegments reader xs s with
      | (.error e, t) => (.error e, t)
      | (.ok (shown, lines), t) =>
        match replaceSegments reader ys t with
        | (.error e, u) => (.error e, u)
        | (.ok (later, nested), u) => (.ok (shown ++ later, lines ++ nested), u) := by
  induction xs generalizing s with
  | nil =>
    simp only [List.nil_append, replaceSegments]
    rcases replaceSegments reader ys s with ⟨_ | _, _⟩ <;> rfl
  | cons x xs ih =>
    cases x with
    | oversized => simp only [List.cons_append, replaceSegments]
    | char c =>
      simp only [List.cons_append, replaceSegments, ih]
      rcases replaceSegments reader xs s with ⟨_ | _, t⟩
      · rfl
      · dsimp only
        rcases replaceSegments reader ys t with ⟨_ | _, _⟩ <;> rfl
    | wildcard w =>
      simp only [List.cons_append, replaceSegments]
      cases (resolve w s).result with
      | error e => rfl
      | ok element =>
        dsimp only
        rcases linesOf reader w (resolve w s).session with ⟨_ | own, t⟩
        · rfl
        · dsimp only
          rw [ih]
          rcases replaceSegments reader xs t with ⟨_ | _, u⟩
          · rfl
          · dsimp only
            rcases replaceSegments reader ys u with ⟨_ | _, _⟩
            · rfl
            · simp only [List.cons_append, List.append_assoc]

def replaceText (reader : LineReader) (t : Text) (s : Session) : Run (Text × List Text) :=
  match replaceSegments reader (Text.segments t) s with
  | (.error e, s) => (.error e, s)
  | (.ok (shown, lines), s) =>
    match Task.concat? shown with
    | some text => (.ok (text, lines), s)
    | none => (.error .nameNotText, s)

/-- The lines of a metadata text that may have `levels` levels: its own, then those of the wildcards
in it. -/
def metadataReader : Nat → LineReader
  | 0, t, s => (.ok (Text.metadataLines t), s.record (.nestedTooDeep t))
  | levels + 1, t, s =>
    match replaceText (metadataReader levels) t s with
    | (.error e, s) => (.error e, s)
    | (.ok (text, nested), s) => (.ok (Text.metadataLines text ++ nested), s)

def noLines : LineReader := fun _ s => (.ok [], s)

/-- Replaces the wildcards of a text that stands `depth` levels deep. Their metadata is read only if
it is collected. -/
def replaceNested (t : Text) (depth : Int) (collect : Bool) (s : Session) :
    Run (Text × List Text) :=
  match (depthLimit - depth).toNat with
  | 0 => (.ok (t, []), s.record (.nestedTooDeep t))
  | levels + 1 => replaceText (if collect then metadataReader levels else noLines) t s

end Session

end Errand
