import Errand.Session.Work

/-! # Runs one after the other

A run that fails ends there and then. So what a session makes of a text is a row of runs, each of
them going on where the one before it has ended.
-/

namespace Errand

/-- What is shown for a wildcard that was resolved. -/
def Wildcard.display (w : Wildcard) : Option Element → Value
  | some e => e.name
  | none => .text w.source

namespace Run

variable {α β : Type}

def bind (run : Run α) (next : α → Session → Run β) : Run β :=
  match run with
  | (.error e, s) => (.error e, s)
  | (.ok a, s) => next a s

def map (f : α → β) (run : Run α) : Run β := (run.1.map f, run.2)

theorem bind_eq_ok {run : Run α} {next : α → Session → Run β} {b : β} {u : Session} :
    run.bind next = (.ok b, u) ↔ ∃ a t, run = (.ok a, t) ∧ next a t = (.ok b, u) := by
  rcases run with ⟨_ | a, t⟩
  · simp [bind]
  · constructor
    · exact fun h => ⟨a, t, rfl, h⟩
    · rintro ⟨_, _, heq, h⟩
      cases heq
      exact h

theorem map_eq_ok {run : Run α} {f : α → β} {b : β} {u : Session} :
    run.map f = (.ok b, u) ↔ ∃ a, run = (.ok a, u) ∧ f a = b := by
  rcases run with ⟨_ | a, t⟩
  · simp [map, Except.map]
  · constructor
    · intro h
      cases h
      exact ⟨a, rfl, rfl⟩
    · rintro ⟨_, heq, rfl⟩
      cases heq
      rfl

theorem exists_ok {run : Run α} {f : α → β} {b : β} (h : run.1.toOption.map f = some b) :
    ∃ a t, run = (.ok a, t) ∧ f a = b := by
  rcases run with ⟨_ | a, t⟩
  · cases h
  · exact ⟨a, t, rfl, Option.some.inj h⟩

end Run

namespace Session

def Resolution.run (r : Resolution) : Run (Option Element) :=
  (r.result.mapError .exhausted, r.session)

theorem Resolution.run_eq_ok {r : Resolution} {element : Option Element} {u : Session} :
    r.run = (.ok element, u) ↔ r.result = .ok element ∧ r.session = u := by
  unfold run
  rw [Prod.mk.injEq]
  refine and_congr_left fun _ => ?_
  cases r.result with
  | ok x =>
      change (Except.ok x : Except Failure _) = .ok element ↔ _
      rw [Except.ok.injEq, Except.ok.injEq]
  | error shortage => exact ⟨(nomatch ·), (nomatch ·)⟩

theorem replaceSegments_char (reader : LineReader) (char : Char) (segments : List Segment)
    (s : Session) :
    replaceSegments reader (.char char :: segments) s =
      (replaceSegments reader segments s).map fun a => (.text [char] :: a.1, a.2) := by
  rw [replaceSegments]
  rcases replaceSegments reader segments s with ⟨_ | _, _⟩ <;> rfl

theorem replaceSegments_wildcard (reader : LineReader) (w : Wildcard) (segments : List Segment)
    (s : Session) :
    replaceSegments reader (.wildcard w :: segments) s =
      (resolve w s).run.bind fun element s =>
        (linesOf reader w s).bind fun own s =>
          (replaceSegments reader segments s).map fun a =>
            (w.display element :: a.1, own ++ a.2) := by
  rw [replaceSegments]
  rcases resolve w s with ⟨_, _ | element, t⟩
  · rfl
  · show _ = (linesOf reader w t).bind _
    dsimp only
    rcases linesOf reader w t with ⟨_ | own, u⟩
    · rfl
    · show _ = (replaceSegments reader segments u).map _
      dsimp only
      rcases replaceSegments reader segments u with ⟨_ | _, _⟩
      · rfl
      · cases element <;> rfl

theorem replaceText_eq (reader : LineReader) (t : Text) (s : Session) :
    replaceText reader t s =
      (replaceSegments reader (Text.segments t) s).bind fun a s =>
        match Task.concat? a.1 with
        | some text => (.ok (text, a.2), s)
        | none => (.error .nameNotText, s) := by
  rw [replaceText]
  rcases replaceSegments reader (Text.segments t) s with ⟨_ | _, _⟩ <;> rfl

theorem metadataReader_succ (levels : Nat) (t : Text) (s : Session) :
    metadataReader (levels + 1) t s =
      (replaceText (metadataReader levels) t s).map fun a => Text.metadataLines a.1 ++ a.2 := by
  rw [metadataReader]
  rcases replaceText (metadataReader levels) t s with ⟨_ | _, _⟩ <;> rfl

theorem work_literal (t : Text) (pieces : List Piece) (k : Nat) (s : Session) :
    work (.literal t :: pieces) k s = (work pieces k s).map (.literal t :: ·) := by
  rw [work]
  rcases work pieces k s with ⟨_ | _, _⟩ <;> rfl

/-- Resolves a wildcard of a prototype, the `k`-th, and notes the kind it has settled on. -/
def resolveAt (k : Nat) (w : Wildcard) (s : Session) : Resolution :=
  let r := resolve w { s with current := k }
  { r with session := r.session.settleCurrent r.kind }

theorem work_wildcard (w : Wildcard) (pieces : List Piece) (k : Nat) (s : Session) :
    work (.wildcard w :: pieces) k s =
      (resolveAt k w s).run.bind fun element s =>
        (linesOf (metadataReader depthLimit) w s).bind fun lines s =>
          (work pieces (k + 1) s).map (tokenOf w element lines :: ·) := by
  rw [work]
  unfold resolveAt
  rcases resolve w { s with current := k } with ⟨kind, _ | element, t⟩
  · rfl
  · show _ = (linesOf (metadataReader depthLimit) w (t.settleCurrent kind)).bind _
    dsimp only
    rcases linesOf (metadataReader depthLimit) w (t.settleCurrent kind) with ⟨_ | own, u⟩
    · rfl
    · show _ = (work pieces (k + 1) u).map _
      dsimp only
      rcases work pieces (k + 1) u with ⟨_ | _, _⟩ <;> rfl

theorem task_eq {prototype : Text} {ws : List Wildcard} (h : Text.wildcards? prototype = some ws)
    (s : Session) :
    task prototype s =
      (work (Piece.ofSegments (Text.segments prototype)) 0
        { s with mentions := ws.map fun w => { wildcard := w, kind := w.kind? } }).map Task.mk := by
  rw [task, h]
  dsimp only
  rcases work (Piece.ofSegments (Text.segments prototype)) 0 _ with ⟨_ | _, _⟩ <;> rfl

end Session

end Errand
