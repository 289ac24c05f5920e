import Errand.Prototype.Choice
import Errand.Session.Metadata

/-! # Working on prototypes

A session makes a task of a prototype by resolving its wildcards from the left.
-/

namespace Errand

namespace Session

/-- Where a stand-in is shown, the name of the entry becomes the last metadata line. -/
def tokenOf (w : Wildcard) (element : Option Element) (lines : List Text) : Token :=
  let lines := lines.map Value.text
  let token : Token := { source := w.source, element, metadata := lines }
  match element with
  | some e =>
    match if w.obfuscated then w.standIn? e else none with
    | some coarser => { token with element := some coarser, metadata := lines ++ [e.name] }
    | none => token
  | none => token

def settleCurrent (kind : Option Kind) (s : Session) : Session :=
  { s with mentions := s.mentions.modify s.current fun m => { m with kind } }

def work : List Piece → Nat → Session → Run (List Token)
  | [], _, s => (.ok [], s)
  | .literal t :: pieces, k, s =>
    match work pieces k s with
    | (.ok tokens, s) => (.ok (.literal t :: tokens), s)
    | (.error e, s) => (.error e, s)
  | .wildcard w :: pieces, k, s =>
    let r := resolve w { s with current := k }
    let s := r.session.settleCurrent r.kind
    match r.result with
    | .error shortage => (.error (.exhausted shortage), s)
    | .ok element =>
      match linesOf (metadataReader depthLimit) w s with
      | (.error e, s) => (.error e, s)
      | (.ok lines, s) =>
        match work pieces (k + 1) s with
        | (.error e, s) => (.error e, s)
        | (.ok tokens, s) => (.ok (tokenOf w element lines :: tokens), s)

def task (prototype : Text) (s : Session) : Run Task :=
  match Text.wildcards? prototype with
  | none => (.error .oversizedNumber, s)
  | some ws =>
    let s := { s with mentions := ws.map fun w => { wildcard := w, kind := w.kind? } }
    match work (Piece.ofSegments (Text.segments prototype)) 0 s with
    | (.ok tokens, s) => (.ok { tokens }, s)
    | (.error e, s) => (.error e, s)

end Session

/-! ## Batches

Every task of a batch has a session of its own, whose seed is drawn from a counter for the batch. The
first thing a session's counter serves is the choice of the prototype.
-/

def generateTask (prototype : Text) (c : Catalog) (dice : Dice) (tier : Tier) :
    Except Failure Task × List Notice :=
  let (result, s) := (Session.start c dice tier).task prototype
  (result, s.notices)

def generateTasks {W : Type} [Weight W] (source : PrototypeSource W) (c : Catalog) (tier : Tier) :
    Nat → Dice → Except Failure (List Task) × List Notice
  | 0, _ => (.ok [], [])
  | count + 1, batch =>
    let (seed, batch) := batch.bits 64
    let (choice, dice) := source.choose { seed }
    match choice with
    | .nothing => (.ok [], [])
    | .outOfRange => (.error .noSuchPrototype, [])
    | .prototype prototype =>
      match generateTask prototype c dice tier with
      | (.error e, notices) => (.error e, choice.notices ++ notices)
      | (.ok task, notices) =>
        match generateTasks source c tier count batch with
        | (.error e, later) => (.error e, choice.notices ++ notices ++ later)
        | (.ok tasks, later) => (.ok (task :: tasks), choice.notices ++ notices ++ later)

end Errand
