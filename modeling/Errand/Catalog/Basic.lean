import Errand.Kind
import Errand.Tier

/-! # Catalogs

The entities a session may draw, in the six collections that hold them. A name may be any value, so
that everything a file holds is kept; only text can be shown.
-/

namespace Errand

structure Category where
  name : Value
  /-- Where such objects belong; null if nothing is said. -/
  defaultLocation : Value

structure Gesture where
  name : Value
  tier : Tier

structure Room where
  name : Value

structure Spot where
  name : Value
  room : Room
  /-- People wait here. -/
  isBeacon : Bool
  /-- Objects lie here. -/
  isPlacement : Bool

inductive Location
  | room (r : Room)
  | spot (s : Spot)

namespace Location

def name : Location → Value
  | .room r => r.name
  | .spot s => s.name

def isRoom : Location → Bool
  | .room _ => true
  | .spot _ => false

def isBeacon : Location → Bool
  | .room _ => false
  | .spot s => s.isBeacon

def isPlacement : Location → Bool
  | .room _ => false
  | .spot s => s.isPlacement

def room? : Location → Option Room
  | .room _ => none
  | .spot s => some s.room

end Location

inductive Gender
  | male
  | female
  deriving DecidableEq

structure Person where
  name : Value
  gender : Gender

/-- How an object is recognised. -/
inductive Familiarity
  /-- Known by itself. -/
  | known
  /-- Known by what it resembles. -/
  | alike
  | unknown
  deriving DecidableEq

def Familiarity.word : Familiarity → Text
  | .known => "known".toList
  | .alike => "alike".toList
  | .unknown => "unknown".toList

def Familiarity.ofWord? (word : Text) : Option Familiarity :=
  [Familiarity.known, .alike, .unknown].find? fun f => f.word = word

structure Thing where
  name : Value
  category : Category
  familiarity : Familiarity
  tier : Tier

structure Question where
  text : Value
  answer : Value
  tier : Tier

inductive Entity
  | category (c : Category)
  | gesture (g : Gesture)
  | location (l : Location)
  | person (p : Person)
  | thing (t : Thing)
  | question (q : Question)

namespace Entity

def name : Entity → Value
  | .category c => c.name
  | .gesture g => g.name
  | .location l => l.name
  | .person p => p.name
  | .thing t => t.name
  | .question q => q.text

def tier? : Entity → Option Tier
  | .gesture g => some g.tier
  | .thing t => some t.tier
  | .question q => some q.tier
  | _ => none

def collection : Entity → Collection
  | .category _ => .category
  | .gesture _ => .gesture
  | .location _ => .location
  | .person _ => .name
  | .thing _ => .object
  | .question _ => .question

def allowedBy (tier : Tier) (e : Entity) : Bool :=
  match e.tier? with
  | some own => tier.allows own
  | none => true

def room? : Entity → Option Room
  | .location l => l.room?
  | _ => none

def category? : Entity → Option Category
  | .thing t => some t.category
  | _ => none

end Entity

/-- Everything a session may draw from. A room stands directly before the places inside it. -/
structure Catalog where
  categories : List Category
  gestures : List Gesture
  locations : List Location
  people : List Person
  things : List Thing
  questions : List Question

namespace Catalog

def empty : Catalog := ⟨[], [], [], [], [], []⟩

def entities (c : Catalog) : Collection → List Entity
  | .category => c.categories.map .category
  | .gesture => c.gestures.map .gesture
  | .location => c.locations.map .location
  | .name => c.people.map .person
  | .object => c.things.map .thing
  | .question => c.questions.map .question

theorem collection_of_mem_entities {c : Catalog} {k : Collection} {e : Entity}
    (h : e ∈ c.entities k) : e.collection = k := by
  cases k <;> simp only [entities, List.mem_map] at h <;> obtain ⟨_, _, rfl⟩ := h <;> rfl

end Catalog

end Errand
