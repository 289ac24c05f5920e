import Errand.Proofs.Session.Step
import Errand.Proofs.Session.Walk
import Mathlib.Logic.Relation

/-! # Histories of a session

Whatever a session is called for, it goes on in three kinds of moves: it resolves a wildcard, it
turns to another text or wildcard, or it notes that metadata is nested too deeply. Calls that fail
make moves as well, those before the failure. So a property of the books that every resolution keeps
holds after any calls.
-/

namespace Errand

/-- What a session may be called for. -/
inductive Call
  | task (prototype : Text)
  | nested (t : Text) (depth : Int) (collect : Bool)
  | resolve (w : Wildcard)

namespace Session

def afterCall (s : Session) : Call → Session
  | .task prototype => (s.task prototype).2
  | .nested t depth collect => (s.replaceNested t depth collect).2
  | .resolve w => (resolve w s).session

def after (s : Session) (calls : List Call) : Session := calls.foldl afterCall s

inductive Move : Session → Session → Prop
  | resolved (w : Wildcard) (s : Session) : Move s (resolve w s).session
  | turned (mentions : List Mention) (current : Nat) (s : Session) :
      Move s { s with mentions, current }
  | noted (t : Text) (s : Session) : Move s (s.record (.nestedTooDeep t))

abbrev Moves : Session → Session → Prop := Relation.ReflTransGen Move

namespace Moves

/-- What every resolution keeps of the books, all moves keep. -/
theorem keep {P : Books → Prop}
    (hstep : ∀ w s, P s.books → P (resolve w s).session.books)
    {s t : Session} (h : Moves s t) (hs : P s.books) : P t.books := by
  induction h with
  | refl => exact hs
  | tail _ move ih =>
      cases move with
      | resolved w => exact hstep w _ ih
      | turned mentions current => exact ih
      | noted t =>
          rw [books_record_nestedTooDeep]
          exact ih

theorem bind {α β : Type} {run : Run α} {next : α → Session → Run β} {s : Session}
    (hrun : Moves s run.2) (hnext : ∀ a t, Moves t (next a t).2) : Moves s (run.bind next).2 := by
  rcases run with ⟨_ | a, t⟩
  · exact hrun
  · exact hrun.trans (hnext a t)

/-- Whatever a run comes to, it goes there by moves. -/
theorem rule : Run.Rule fun _ run _ => ∀ s, Moves s (run s).2 where
  done _ _ := .refl
  failed _ _ _ := .refl
  noted _ t s := .single (.noted t s)
  resolve w s := .single (.resolved w s)
  bind hrun hnext s := bind (hrun s) hnext

variable {reader : LineReader}

theorem linesOf (hreader : ∀ t s, Moves s (reader t s).2) (w : Wildcard) (s : Session) :
    Moves s (linesOf reader w s).2 :=
  rule.linesOf (fun _ => []) (fun _ _ => []) rfl hreader w s

theorem replaceSegments (hreader : ∀ t s, Moves s (reader t s).2) (segments : List Segment)
    (s : Session) : Moves s (replaceSegments reader segments s).2 :=
  rule.replaceSegments (fun _ => []) (fun _ _ => []) rfl hreader segments s

theorem replaceText (hreader : ∀ t s, Moves s (reader t s).2) (t : Text) (s : Session) :
    Moves s (replaceText reader t s).2 :=
  rule.replaceText (fun _ => []) (fun _ _ => []) rfl hreader t s

theorem metadataReader (levels : Nat) (t : Text) (s : Session) :
    Moves s (metadataReader levels t s).2 :=
  rule.metadataReader levels t s

theorem replaceNested (t : Text) (depth : Int) (collect : Bool) (s : Session) :
    Moves s (replaceNested t depth collect s).2 := by
  unfold Session.replaceNested
  split
  · exact .single (.noted t s)
  · next levels _ =>
      apply replaceText
      intro t s
      cases collect with
      | true => exact metadataReader levels t s
      | false => exact .refl

theorem resolveAt (k : Nat) (w : Wildcard) (s : Session) :
    Moves s (resolveAt k w s).session := by
  have hturned : Moves s { s with current := k } := .single (.turned s.mentions k s)
  exact (hturned.tail (.resolved w _)).tail (.turned _ _ _)

theorem work (pieces : List Piece) (k : Nat) (s : Session) : Moves s (work pieces k s).2 :=
  rule.work resolveAt pieces k s

theorem task (prototype : Text) (s : Session) : Moves s (task prototype s).2 := by
  cases hws : Text.wildcards? prototype with
  | none =>
      unfold Session.task
      rw [hws]
  | some ws =>
      rw [task_eq hws]
      have hturned : Moves s
          { s with mentions := ws.map fun w => { wildcard := w, kind := w.kind? } } :=
        .single (.turned _ s.current s)
      exact hturned.trans (work (Piece.ofSegments (Text.segments prototype)) 0 _)

theorem afterCall (s : Session) (call : Call) : Moves s (s.afterCall call) := by
  cases call with
  | task prototype => exact task prototype s
  | nested t depth collect => exact replaceNested t depth collect s
  | resolve w => exact .single (.resolved w s)

theorem after (s : Session) (calls : List Call) : Moves s (s.after calls) := by
  induction calls generalizing s with
  | nil => exact .refl
  | cons call calls ih => exact (afterCall s call).trans (ih (s.afterCall call))

end Moves

theorem keep_after {P : Books → Prop} (hstep : ∀ w s, P s.books → P (resolve w s).session.books)
    {s : Session} (hs : P s.books) (calls : List Call) : P (s.after calls).books :=
  (Moves.after s calls).keep hstep hs

end Session

end Errand
