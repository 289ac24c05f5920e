import Errand.Notice
import Errand.Random.Dice
import Errand.Task.Basic
import Errand.Wildcard.Basic

/-! # Sessions

A session draws from six pools, shuffled once when it starts. It keeps the entry drawn for each key,
so that a key means the same entry in all its texts, and it remembers the wildcards of the text it
works on, which pronouns refer to. Its journal tells every draw.
-/

namespace Errand

structure Pools where
  categories : List Entry
  gestures : List Entry
  locations : List Entry
  names : List Entry
  objects : List Entry
  questions : List Entry

namespace Pools

def get (p : Pools) : Collection → List Entry
  | .category => p.categories
  | .gesture => p.gestures
  | .location => p.locations
  | .name => p.names
  | .object => p.objects
  | .question => p.questions

def set (p : Pools) (entries : List Entry) : Collection → Pools
  | .category => { p with categories := entries }
  | .gesture => { p with gestures := entries }
  | .location => { p with locations := entries }
  | .name => { p with names := entries }
  | .object => { p with objects := entries }
  | .question => { p with questions := entries }

@[simp] theorem get_set_self (p : Pools) (entries : List Entry) (c : Collection) :
    (p.set entries c).get c = entries := by
  cases c <;> rfl

theorem get_set_of_ne (p : Pools) (entries : List Entry) {c d : Collection} (h : d ≠ c) :
    (p.set entries c).get d = p.get d := by
  cases c <;> cases d <;> first | rfl | exact absurd rfl h

end Pools

structure Slot where
  key : Text
  entry : Entry
  kind : Kind

structure Mention where
  wildcard : Wildcard
  kind : Option Kind

inductive Event
  | drew (w : Wildcard) (kind : Kind) (collection : Collection) (e : Entry) (left : Nat)
  | reused (w : Wildcard) (kind : Kind) (e : Entry)
  | nestedTooDeep (t : Text)

/-- How deep the metadata of wildcards may be nested. -/
def Session.depthLimit : Nat := 8

def Event.notice : Event → Notice
  | .drew _ _ collection e left => .drew collection.label e.entity.name left
  | .reused w _ e => .reusing e.entity.name w.keycode
  | .nestedTooDeep t => .nestedTooDeep Session.depthLimit t

structure Session where
  pools : Pools
  /-- The entries drawn for keys, in the order of their draws. -/
  slots : List Slot
  dice : Dice
  mentions : List Mention
  /-- The place of the wildcard at work among them. -/
  current : Nat
  journal : List Event

namespace Session

def stock (c : Catalog) (tier : Tier) (k : Collection) : List Entry :=
  ((c.entities k).zipIdx.map fun (entity, position) => { position, entity }).filter
    fun e => e.entity.allowedBy tier

def start (c : Catalog) (dice : Dice) (tier : Tier) : Session :=
  let (categories, dice) := dice.shuffle (stock c tier .category)
  let (gestures, dice) := dice.shuffle (stock c tier .gesture)
  let (locations, dice) := dice.shuffle (stock c tier .location)
  let (names, dice) := dice.shuffle (stock c tier .name)
  let (objects, dice) := dice.shuffle (stock c tier .object)
  let (questions, dice) := dice.shuffle (stock c tier .question)
  { pools := { categories, gestures, locations, names, objects, questions }
    slots := [], dice, mentions := [], current := 0, journal := [] }

def record (s : Session) (e : Event) : Session := { s with journal := s.journal ++ [e] }

def slot? (s : Session) (key : Text) : Option Slot := s.slots.find? fun slot => slot.key = key

def notices (s : Session) : List Notice := s.journal.map Event.notice

end Session

/-- The word for the kind a wildcard has settled on; its name if that is no kind. -/
def Mention.word (m : Mention) : Text :=
  match m.kind with
  | some k => k.label
  | none => m.wildcard.name

end Errand
