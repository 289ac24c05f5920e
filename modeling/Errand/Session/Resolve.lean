import Errand.Session.Basic

/-! # Resolving wildcards

What stands for a wildcard. An entry is drawn from the pool of its kind, unless one was drawn for
its key before; a wildcard with a high number draws every time. A general kind without a type first
settles on one of its narrower kinds by a draw of its own.
-/

namespace Errand

namespace Kind

def detail? : Kind → Option Text
  | .beacon => some "beacon".toList
  | .room => some "room".toList
  | .placement => some "placement".toList
  | .male => some "male".toList
  | .female => some "female".toList
  | .aobject => some "alike".toList
  | .kobject => some "known".toList
  | _ => none

def accepts : Kind → Entity → Bool
  | .beacon, .location l => l.isBeacon
  | .room, .location l => l.isRoom
  | .placement, .location l => l.isPlacement
  | .male, .person p => p.gender = .male
  | .female, .person p => p.gender = .female
  | .aobject, .thing t => t.familiarity = .alike
  | .kobject, .thing t => t.familiarity = .known
  | k, e => k.detail?.isNone && k.collection? = some e.collection

def pronoun : Kind → Text
  | .name | .male => "him".toList
  | .female => "her".toList
  | .object | .kobject | .aobject => "it".toList
  | .beacon | .room | .placement | .location => "it".toList
  | _ => "them".toList

def isPerson : Kind → Bool
  | .name | .male | .female => true
  | _ => false

def isSilent : Kind → Bool
  | .void | .pron => true
  | _ => false

end Kind

namespace Session

/-- The kind a wildcard of kind `k` settles on: that of its type if it is one of the choices, one
drawn from the choices if it has no type, else `k` itself. -/
def settle (w : Wildcard) (k : Kind) (dice : Dice) : Kind × Dice :=
  if k.options.isEmpty then (k, dice)
  else match w.type with
    | none =>
      let (choice, dice) := dice.choose? k.options
      (choice.getD k, dice)
    | some type =>
      match Kind.ofQualifier? type with
      | some narrow => (if k.options.contains narrow then narrow else k, dice)
      | none => (k, dice)

/-- An entry for kind `k`, and the pool without it. A narrow kind takes the first that fits, any
other the last. -/
def pick? (k : Kind) (pool : List Entry) : Option (Entry × List Entry) :=
  if k.detail?.isSome then Pool.takeFirst? (fun e => k.accepts e.entity) pool
  else Pool.takeLast? pool

def draw (w : Wildcard) (k : Kind) (c : Collection) (s : Session) :
    Except Shortage Entry × Session :=
  match pick? k (s.pools.get c) with
  | some (e, rest) =>
    (.ok e, { s with pools := s.pools.set rest c }.record (.drew w k c e rest.length))
  | none => (.error { pool := c.label, detail := k.detail?.getD [] }, s)

structure Resolution where
  kind : Option Kind
  /-- What stands for it; nothing if its name is no kind. -/
  result : Except Shortage (Option Element)
  session : Session

def drawFresh (w : Wildcard) (k : Kind) (c : Collection) (s : Session) :
    Kind × Except Shortage Entry × Session :=
  let (k, dice) := settle w k s.dice
  (k, draw w k c { s with dice })

def keep (w : Wildcard) (e : Entry) (k : Kind) (s : Session) : Session :=
  if w.isInstance then s
  else { s with slots := s.slots ++ [{ key := w.keycode, entry := e, kind := k }] }

def sharedSlot? (w : Wildcard) (s : Session) : Option Slot :=
  if w.isInstance then none else s.slot? w.keycode

def serve (w : Wildcard) (k : Kind) (c : Collection) (s : Session) : Resolution :=
  match sharedSlot? w s with
  | some slot =>
    { kind := some slot.kind, result := .ok (some (.entry slot.entry))
      session := s.record (.reused w slot.kind slot.entry) }
  | none =>
    match drawFresh w k c s with
    | (k, .ok e, s) =>
      { kind := some k, result := .ok (some (.entry e)), session := keep w e k s }
    | (k, .error shortage, s) => { kind := some k, result := .error shortage, session := s }

/-- The pronoun for the nearest person among the wildcards before the one at work; without one, for
the nearest that shows something. -/
def pronoun (s : Session) : Text :=
  let before := (s.mentions.take s.current).reverse
  let person := before.find? fun m => (m.kind.map Kind.isPerson).getD false
  let other := before.find? fun m => !(m.kind.map Kind.isSilent).getD false
  match person.or other with
  | some m => (m.kind.map Kind.pronoun).getD "them".toList
  | none => "them".toList

/-- Resolves a wildcard. Empty braces count as `void`. -/
def resolve (w : Wildcard) (s : Session) : Resolution :=
  if w.name.isEmpty then { kind := some .void, result := .ok (some .hidden), session := s }
  else match w.kind? with
    | none => { kind := none, result := .ok none, session := s }
    | some k =>
      match k.collection? with
      | some c => serve w k c s
      | none =>
        let element := if k = .pron then .pronoun s.pronoun else .hidden
        { kind := some k, result := .ok (some element), session := s }

end Session

namespace Wildcard

/-- The coarser element shown for `e` when the wildcard asks for one; nothing for kinds that are
shown as they are. -/
def standIn? (w : Wildcard) (e : Element) : Option Element :=
  let entity? := match e with
    | .entry e => some e.entity
    | _ => none
  match w.kind? with
  | some .beacon | some .placement =>
    (entity?.bind Entity.room?).map fun r => .coarser (.location (.room r))
  | some .object | some .aobject | some .kobject =>
    (entity?.bind Entity.category?).map fun c => .coarser (.category c)
  | some .name | some .male | some .female => some (.standIn "a person".toList)
  | some .category => some (.standIn "objects".toList)
  | some .location => some (.standIn "somewhere".toList)
  | some .room => some (.standIn "apartment".toList)
  | _ => none

end Wildcard

end Errand
