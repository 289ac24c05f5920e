import Errand.Proofs.Catalog.Loading
import Errand.Proofs.Prototype.Writing
import Errand.Value.Writer
import Mathlib.Data.List.Permutation

/-! # Writing catalogs

The layout of the five files, told by what may be written for each entry: keys stand in any order, a key
may be left out where its default says the same, and the words for tiers and for how objects are
recognised may be written in any case. One catalog is written in many ways, so writing is a relation;
each way loads as that catalog. A file that is left out empties the collections that come from it.
-/

namespace Errand

/-! ## Words in any case -/

namespace Text

/-- A word with each of its letters in either case. -/
def AnyCase (word t : Text) : Prop :=
  List.Forall₂ (fun d c => c = d.toLower ∨ c = d.toUpper) word t

instance decidableAnyCase (word t : Text) : Decidable (AnyCase word t) :=
  inferInstanceAs (Decidable (List.Forall₂ _ word t))

theorem AnyCase.all {word t : Text} {p : Char → Bool} (h : AnyCase word t)
    (hword : word.all fun d => p d.toLower && p d.toUpper) : ∀ c ∈ t, p c = true := by
  unfold AnyCase at h
  induction h with
  | nil => simp
  | @cons d c word t hc _ ih =>
      rw [List.all_cons, Bool.and_eq_true, Bool.and_eq_true] at hword
      obtain ⟨⟨hlower, hupper⟩, hword⟩ := hword
      refine List.forall_mem_cons.mpr ⟨?_, ih hword⟩
      rcases hc with rfl | rfl
      · exact hlower
      · exact hupper

theorem AnyCase.map_eq {word t : Text} {f : Char → Char} (h : AnyCase word t)
    (hword : word.all fun d => f d.toLower = d && f d.toUpper = d) : t.map f = word := by
  unfold AnyCase at h
  induction h with
  | nil => rfl
  | @cons d c word t hc _ ih =>
      rw [List.all_cons, Bool.and_eq_true, Bool.and_eq_true, decide_eq_true_eq,
        decide_eq_true_eq] at hword
      obtain ⟨⟨hlower, hupper⟩, hword⟩ := hword
      rw [List.map_cons, ih hword]
      rcases hc with rfl | rfl
      · rw [hlower]
      · rw [hupper]

/-- Without the two letters that are treated apart, each character is lowered alone. -/
theorem lower_eq_map {t : Text} (h : ∀ c ∈ t, (c != 'Σ' && c != '\u0130') = true) :
    lower t = t.map lowerChar := by
  have hafter (seen : Text) : lowerAfter seen t = t.map lowerChar := by
    induction t generalizing seen with
    | nil => rfl
    | cons c t ih =>
        obtain ⟨hc, ht⟩ := List.forall_mem_cons.mp h
        obtain ⟨hsigma, hdotted⟩ : c ≠ 'Σ' ∧ c ≠ '\u0130' := by simpa using hc
        rw [lowerAfter, if_neg hsigma, if_neg hdotted, ih ht]
        rfl
  exact hafter []

end Text

open Text

/-! ## Objects and lists -/

namespace Value

/-- A key of an object, what may stand at it, and what counts where it is left out. -/
structure Field where
  key : Text
  Writes : Value → Prop
  default? : Option Value

def Field.needed (key : String) (Writes : Value → Prop) : Field := ⟨key.toList, Writes, none⟩

def Field.free (key : String) (default : Value) (Writes : Value → Prop) : Field :=
  ⟨key.toList, Writes, some default⟩

/-- The field is written, or left out where its default says the same. -/
inductive Field.In (f : Field) (fields : List (Text × Value)) : Prop
  | written {v : Value} (hmem : (f.key, v) ∈ fields) (hv : f.Writes v)
  | omitted {d : Value} (hmem : f.key ∉ fields.map (·.1)) (hdefault : f.default? = some d)
      (hd : f.Writes d)

/-- An object with the given fields, in any order. -/
inductive IsObject (layout : List Field) : Value → Prop
  | mk {fields : List (Text × Value)} (hkeys : (fields.map (·.1)).Nodup)
      (hfields : layout.Forall (·.In fields)) : IsObject layout (.object fields)

inductive IsList {α : Type} (Writes : α → Value → Prop) (xs : List α) : Value → Prop
  | mk {items : List Value} (hitems : List.Forall₂ Writes xs items) : IsList Writes xs (.list items)

theorem field?_of_mem {fields : List (Text × Value)} {key : Text} {v : Value}
    (hkeys : (fields.map (·.1)).Nodup) (h : (key, v) ∈ fields) : field? key fields = some v := by
  induction fields with
  | nil => cases h
  | cons field fields ih =>
      obtain ⟨k, w⟩ := field
      obtain ⟨hk, hkeys⟩ := List.nodup_cons.mp hkeys
      rcases List.mem_cons.mp h with hfirst | h
      · cases hfirst
        exact if_pos rfl
      · have hin : key ∈ fields.map (·.1) := List.mem_map_of_mem h
        have hne : k ≠ key := fun heq => hk (heq ▸ hin)
        exact (if_neg hne).trans (ih hkeys h)

theorem field?_of_not_mem {fields : List (Text × Value)} {key : Text}
    (h : key ∉ fields.map (·.1)) : field? key fields = none := by
  induction fields with
  | nil => rfl
  | cons field fields ih =>
      rw [List.map_cons, List.mem_cons, not_or] at h
      exact (if_neg (Ne.symm h.1)).trans (ih h.2)

theorem Field.In.exists_found {f : Field} {fields : List (Text × Value)} (h : f.In fields)
    (hkeys : (fields.map (·.1)).Nodup) :
    ∃ w, (field? f.key fields).or f.default? = some w ∧ f.Writes w := by
  cases h with
  | @written v hmem hv =>
      refine ⟨v, ?_, hv⟩
      rw [field?_of_mem hkeys hmem, Option.some_or]
  | @omitted d hmem hdefault hd =>
      refine ⟨d, ?_, hd⟩
      rw [field?_of_not_mem hmem, Option.none_or, hdefault]

variable {layout : List Field} {v : Value} {key : String} {Writes : Value → Prop}

theorem IsObject.required (h : IsObject layout v) (hform : .needed key Writes ∈ layout) :
    ∃ w, v.required key.toList = .ok w ∧ Writes w := by
  cases h with
  | @mk fields hkeys hfields =>
      have hfield := List.forall_iff_forall_mem.mp hfields _ hform
      obtain ⟨w, hfound, hw⟩ := hfield.exists_found hkeys
      have hstands : field? key.toList fields = some w := by simpa [Field.needed] using hfound
      refine ⟨w, ?_, hw⟩
      unfold Value.required
      simp only [hstands]

theorem IsObject.optional {default : Value} (h : IsObject layout v)
    (hform : .free key default Writes ∈ layout) :
    ∃ w, v.optional key.toList default = .ok w ∧ Writes w := by
  cases h with
  | @mk fields hkeys hfields =>
      have hfield := List.forall_iff_forall_mem.mp hfields _ hform
      obtain ⟨w, hfound, hw⟩ := hfield.exists_found hkeys
      have hstands : (field? key.toList fields).getD default = w := by
        simpa [Field.free, Option.or_some] using hfound
      refine ⟨w, ?_, hw⟩
      unfold Value.optional
      simp only [hstands]

theorem IsList.entries {α : Type} {Writes : α → Value → Prop} {xs : List α}
    (h : IsList Writes xs v) : ∃ items, v.entries = .ok items ∧ List.Forall₂ Writes xs items := by
  obtain ⟨hitems⟩ := h
  exact ⟨_, rfl, hitems⟩

theorem IsList.fileEntries {α : Type} {Writes : α → Value → Prop} {xs : List α}
    (h : IsList Writes xs v) :
    ∃ items, v.fileEntries = .ok items ∧ List.Forall₂ Writes xs items := by
  obtain ⟨hitems⟩ := h
  refine ⟨_, ?_, hitems⟩
  cases hitems <;> rfl

end Value

open Value

/-! ## Entries -/

structure Place where
  name : Value
  isBeacon : Bool
  isPlacement : Bool

structure RoomPlan where
  room : Room
  places : List Place

structure Item where
  name : Value
  familiarity : Familiarity
  tier : Tier

structure Shelf where
  category : Category
  items : List Item

def Place.location (place : Place) (room : Room) : Location :=
  .spot { name := place.name, room, isBeacon := place.isBeacon, isPlacement := place.isPlacement }

def RoomPlan.locations (plan : RoomPlan) : List Location :=
  .room plan.room :: plan.places.map (·.location plan.room)

def Item.thing (item : Item) (category : Category) : Thing :=
  { name := item.name, category, familiarity := item.familiarity, tier := item.tier }

def Shelf.things (shelf : Shelf) : List Thing := shelf.items.map (·.thing shelf.category)

inductive Tier.Written (tier : Tier) : Value → Prop
  | mk {before word after : Text} (hbefore : Blank before) (hword : AnyCase tier.label word)
      (hafter : Blank after) : Written tier (.text (before ++ word ++ after))

inductive Familiarity.Written (familiarity : Familiarity) : Value → Prop
  | mk {word : Text} (hword : AnyCase familiarity.word word) : Written familiarity (.text word)

def Tier.field (tier : Tier) : Field := .free "tier" (.text "easy".toList) tier.Written

def Gesture.Written (g : Gesture) : Value → Prop :=
  IsObject [.needed "name" (· = g.name), g.tier.field]

def Question.Written (q : Question) : Value → Prop :=
  IsObject [.needed "question" (· = q.text), .free "answer" (.text []) (· = q.answer), q.tier.field]

def Place.Written (place : Place) : Value → Prop :=
  IsObject [.needed "name" (· = place.name),
    .free "beacon" (.bool false) (· = .bool place.isBeacon),
    .free "placement" (.bool false) (· = .bool place.isPlacement)]

def RoomPlan.Written (plan : RoomPlan) : Value → Prop :=
  IsObject [.needed "room" (· = plan.room.name),
    .free "locations" (.list []) (IsList Place.Written plan.places)]

def Item.Written (item : Item) : Value → Prop :=
  IsObject [.needed "name" (· = item.name),
    .free "type" (.text "known".toList) item.familiarity.Written, item.tier.field]

def Shelf.Written (shelf : Shelf) : Value → Prop :=
  IsObject [.needed "category" (· = shelf.category.name),
    .free "location" .null (· = shelf.category.defaultLocation),
    .free "objects" (.list []) (IsList Item.Written shelf.items)]

theorem Tier.ofText_label (tier : Tier) {t : Text} (h : asciiUpper (strip t) = tier.label) :
    ofText t = tier := by
  unfold ofText
  simp only [h]
  cases tier <;> rfl

theorem Tier.ofValue_of_written {tier : Tier} {v : Value} (h : tier.Written v) :
    ofValue v = tier := by
  cases h with
  | @mk before word after hbefore hword hafter =>
      have hlabel : tier.label ≠ [] := by cases tier <;> decide
      have hne : word ≠ [] := by
        rintro rfl
        exact hlabel (List.forall₂_nil_right_iff.mp hword)
      have hsolid : ∀ c ∈ word, isBlank c = false := by
        have hall : ∀ c ∈ word, (!isBlank c) = true := hword.all (by cases tier <;> decide)
        simpa using hall
      have hstripped : Stripped word :=
        ⟨fun c hc => hsolid c (List.mem_of_mem_head? hc),
          fun c hc => hsolid c (List.mem_of_mem_getLast? hc)⟩
      have hupper : asciiUpper word = tier.label := by
        refine hword.map_eq ?_
        cases tier <;> decide
      have hstrip : strip (before ++ word ++ after) = word := by
        rw [strip_blank_append hbefore hafter, strip_of_stripped hstripped hne]
      exact ofText_label tier ((congrArg asciiUpper hstrip).trans hupper)

theorem Familiarity.ofWord?_of_written {familiarity : Familiarity} {v : Value}
    (h : familiarity.Written v) : ofWord? (lower v.shown) = some familiarity := by
  cases h with
  | @mk word hword =>
      have hplain : ∀ c ∈ word, (c != 'Σ' && c != '\u0130') = true := by
        refine hword.all ?_
        cases familiarity <;> decide
      have hlower : word.map lowerChar = familiarity.word := by
        refine hword.map_eq ?_
        cases familiarity <;> decide +kernel
      have hshown : lower (Value.text word).shown = familiarity.word :=
        (lower_eq_map hplain).trans hlower
      rw [hshown]
      cases familiarity <;> rfl

namespace Catalog

theorem tierOf_of_written {layout : List Field} {entry : Value} {tier : Tier}
    (h : IsObject layout entry) (hform : tier.field ∈ layout) : tierOf entry = .ok tier := by
  obtain ⟨w, hw, hwritten⟩ := h.optional hform
  exact bind_eq_ok.mpr ⟨w, hw, congrArg _ (Tier.ofValue_of_written hwritten)⟩

theorem gestureOf_of_written {g : Gesture} {entry : Value} (h : g.Written entry) :
    gestureOf entry = .ok g := by
  obtain ⟨_, hname, rfl⟩ := h.required (.head _)
  have htier : tierOf entry = .ok g.tier := tierOf_of_written h (.tail _ (.head _))
  exact bind_eq_ok.mpr ⟨_, hname, bind_eq_ok.mpr ⟨_, htier, rfl⟩⟩

theorem questionOf_of_written {q : Question} {entry : Value} (h : q.Written entry) :
    questionOf entry = .ok q := by
  obtain ⟨_, htext, rfl⟩ := h.required (.head _)
  obtain ⟨_, hanswer, rfl⟩ := h.optional (.tail _ (.head _))
  have htier : tierOf entry = .ok q.tier := tierOf_of_written h (.tail _ (.tail _ (.head _)))
  refine bind_eq_ok.mpr ⟨_, htext, ?_⟩
  refine bind_eq_ok.mpr ⟨_, hanswer, ?_⟩
  exact bind_eq_ok.mpr ⟨_, htier, rfl⟩

theorem spotOf_of_written {place : Place} {entry : Value} (h : place.Written entry) (room : Room) :
    spotOf room entry = .ok (place.location room) := by
  obtain ⟨_, hname, rfl⟩ := h.required (.head _)
  obtain ⟨_, hbeacon, rfl⟩ := h.optional (.tail _ (.head _))
  obtain ⟨_, hplacement, rfl⟩ := h.optional (.tail _ (.tail _ (.head _)))
  refine bind_eq_ok.mpr ⟨_, hname, ?_⟩
  refine bind_eq_ok.mpr ⟨_, hbeacon, ?_⟩
  exact bind_eq_ok.mpr ⟨_, hplacement, rfl⟩

theorem roomOf_of_written {plan : RoomPlan} {entry : Value} (h : plan.Written entry) :
    roomOf entry = .ok plan.locations := by
  obtain ⟨_, hname, rfl⟩ := h.required (.head _)
  obtain ⟨listed, hlisted, hplaces⟩ := h.optional (.tail _ (.head _))
  obtain ⟨places, hentries, hplaces⟩ := hplaces.entries
  have hspots := mapM_of_forall₂ hplaces fun _ _ hplace => spotOf_of_written hplace plan.room
  refine bind_eq_ok.mpr ⟨_, hname, ?_⟩
  refine bind_eq_ok.mpr ⟨_, hlisted, ?_⟩
  refine bind_eq_ok.mpr ⟨_, hentries, ?_⟩
  exact bind_eq_ok.mpr ⟨_, hspots, rfl⟩

theorem thingOf_of_written {item : Item} {entry : Value} (h : item.Written entry)
    (category : Category) : thingOf category entry = .ok (item.thing category) := by
  obtain ⟨_, hname, rfl⟩ := h.required (.head _)
  obtain ⟨type, htype, hfamiliarity⟩ := h.optional (.tail _ (.head _))
  have htier : tierOf entry = .ok item.tier := tierOf_of_written h (.tail _ (.tail _ (.head _)))
  refine bind_eq_ok.mpr ⟨_, htype, ?_⟩
  simp only [Familiarity.ofWord?_of_written hfamiliarity]
  refine bind_eq_ok.mpr ⟨_, hname, ?_⟩
  exact bind_eq_ok.mpr ⟨_, htier, rfl⟩

theorem categoryOf_of_written {shelf : Shelf} {entry : Value} (h : shelf.Written entry) :
    categoryOf entry = .ok (shelf.category, shelf.things) := by
  obtain ⟨_, hname, rfl⟩ := h.required (.head _)
  obtain ⟨_, hlocation, rfl⟩ := h.optional (.tail _ (.head _))
  obtain ⟨listed, hlisted, hitems⟩ := h.optional (.tail _ (.tail _ (.head _)))
  obtain ⟨items, hentries, hitems⟩ := hitems.entries
  have hthings := mapM_of_forall₂ hitems fun _ _ hitem => thingOf_of_written hitem shelf.category
  refine bind_eq_ok.mpr ⟨_, hname, ?_⟩
  refine bind_eq_ok.mpr ⟨_, hlocation, ?_⟩
  refine bind_eq_ok.mpr ⟨_, hlisted, ?_⟩
  refine bind_eq_ok.mpr ⟨_, hentries, ?_⟩
  exact bind_eq_ok.mpr ⟨_, hthings, rfl⟩

/-! ## Files -/

variable {file : Value}

theorem gesturesOf_of_written {gestures : List Gesture} (h : IsList Gesture.Written gestures file) :
    gesturesOf file = .ok gestures := by
  obtain ⟨entries, hentries, hgestures⟩ := h.fileEntries
  have hread := mapM_of_forall₂ hgestures fun _ _ => gestureOf_of_written
  rw [List.map_id'] at hread
  exact bind_eq_ok.mpr ⟨_, hentries, hread⟩

theorem questionsOf_of_written {questions : List Question}
    (h : IsList Question.Written questions file) : questionsOf file = .ok questions := by
  obtain ⟨entries, hentries, hquestions⟩ := h.fileEntries
  have hread := mapM_of_forall₂ hquestions fun _ _ => questionOf_of_written
  rw [List.map_id'] at hread
  exact bind_eq_ok.mpr ⟨_, hentries, hread⟩

theorem locationsOf_of_written {rooms : List RoomPlan} (h : IsList RoomPlan.Written rooms file) :
    locationsOf file = .ok (rooms.flatMap (·.locations)) := by
  obtain ⟨entries, hentries, hrooms⟩ := h.fileEntries
  have hread := mapM_of_forall₂ hrooms fun _ _ => roomOf_of_written
  refine bind_eq_ok.mpr ⟨_, hentries, ?_⟩
  exact bind_eq_ok.mpr ⟨_, hread, rfl⟩

theorem thingsOf_of_written {shelves : List Shelf} (h : IsList Shelf.Written shelves file) :
    thingsOf file = .ok (shelves.map (·.category), shelves.flatMap (·.things)) := by
  obtain ⟨entries, hentries, hshelves⟩ := h.fileEntries
  have hread := mapM_of_forall₂ hshelves fun _ _ => categoryOf_of_written
  refine bind_eq_ok.mpr ⟨_, hentries, ?_⟩
  refine bind_eq_ok.mpr ⟨_, hread, ?_⟩
  simp only [List.map_map, Function.comp_def]
  rfl

theorem peopleOf_of_written {layout : List Field} {key : String} {names : List Value}
    (h : IsObject layout file) (hform : .free key (.list []) (· = .list names) ∈ layout)
    (gender : Gender) : peopleOf gender key.toList file = .ok (names.map (⟨·, gender⟩)) := by
  obtain ⟨_, hlisted, rfl⟩ := h.optional hform
  refine bind_eq_ok.mpr ⟨_, hlisted, ?_⟩
  exact bind_eq_ok.mpr ⟨names, rfl, rfl⟩

theorem namesOf_of_written {layout : List Field} {males females : List Value}
    (h : IsObject layout file) (hmale : .free "male" (.list []) (· = .list males) ∈ layout)
    (hfemale : .free "female" (.list []) (· = .list females) ∈ layout) :
    namesOf file = .ok (males.map (⟨·, .male⟩) ++ females.map (⟨·, .female⟩)) := by
  have hmales := peopleOf_of_written h hmale .male
  have hfemales := peopleOf_of_written h hfemale .female
  unfold namesOf
  split
  · refine bind_eq_ok.mpr ⟨_, hmales, ?_⟩
    exact bind_eq_ok.mpr ⟨_, hfemales, rfl⟩
  · next hnothing =>
      cases h with
      | @mk fields _ _ =>
          obtain rfl : fields = [] := by simpa [isTruthy] using hnothing
          rw [← Except.ok.inj hmales, ← Except.ok.inj hfemales]
          rfl

end Catalog

/-! ## Folders -/

structure Contents where
  rooms : List RoomPlan
  shelves : List Shelf
  males : List Value
  females : List Value
  gestures : List Gesture
  questions : List Question

/-- The catalog that is told. Male names stand before female ones. -/
def Contents.catalog (c : Contents) : Catalog where
  categories := c.shelves.map (·.category)
  gestures := c.gestures
  locations := c.rooms.flatMap (·.locations)
  people := c.males.map (⟨·, .male⟩) ++ c.females.map (⟨·, .female⟩)
  things := c.shelves.flatMap (·.things)
  questions := c.questions

namespace Contents

def WrittenIn (c : Contents) : CatalogFile → Value → Prop
  | .objects => IsList Shelf.Written c.shelves
  | .gestures => IsList Gesture.Written c.gestures
  | .questions => IsList Question.Written c.questions
  | .locations => IsList RoomPlan.Written c.rooms
  | .names => IsObject [.free "male" (.list []) (· = .list c.males),
      .free "female" (.list []) (· = .list c.females)]

/-- A file holds what is written in it, or it is left out. -/
inductive Holds (c : Contents) (files : Text → Found) (f : CatalogFile) : Bool → Prop
  | written {t : Text} {v : Value} (hfile : files f.name = .file t.toUtf8)
      (hread : Value.read t = .ok v) (hv : c.WrittenIn f v) : Holds c files f true
  | leftOut (hfile : files f.name = .missing) : Holds c files f false

end Contents

namespace Catalog

variable {folder : Text} {files : Text → Found} {c : Contents}

theorem takeApart_of_holds (folder : Text) {f : CatalogFile} {present : Bool}
    (h : c.Holds files f present) {α : Type} {take : Value → Except Defect α} {full empty : α}
    (hfull : ∀ v, c.WrittenIn f v → take v = .ok full) (hnull : take .null = .ok empty) :
    ∃ v, (readFile folder files f).result = .ok v ∧
      (takeApart folder (take v)).result = .ok (if present then full else empty) := by
  cases h with
  | @written t v hfile hread hv =>
      exact ⟨v, readFile_of_text hfile hread, takeApart_eq_ok.mpr (hfull v hv)⟩
  | leftOut hfile => exact ⟨.null, readFile_of_missing hfile, takeApart_eq_ok.mpr hnull⟩

def only (c : Catalog) (present : CatalogFile → Bool) : Catalog where
  categories := if present .objects then c.categories else []
  gestures := if present .gestures then c.gestures else []
  locations := if present .locations then c.locations else []
  people := if present .names then c.people else []
  things := if present .objects then c.things else []
  questions := if present .questions then c.questions else []

theorem entities_only (c : Catalog) (present : CatalogFile → Bool) (k : Collection) :
    (c.only present).entities k = if present k.file then c.entities k else [] := by
  cases k <;> exact apply_ite (List.map _) _ _ _

/-- However a catalog is written, a folder that holds some of its files loads as the collections that
come from these files, each whole and in order, and the others are empty. -/
theorem load_written {present : CatalogFile → Bool} (h : ∀ f, c.Holds files f (present f)) :
    ∃ loaded, (load folder files).result = .ok loaded ∧
      ∀ k, loaded.entities k = if present k.file then c.catalog.entities k else [] := by
  refine ⟨c.catalog.only present, ?_, entities_only c.catalog present⟩
  obtain ⟨_, hobjectfile, hobjects⟩ :=
    takeApart_of_holds folder (h .objects) (fun _ => thingsOf_of_written) rfl
  obtain ⟨_, hgesturefile, hgestures⟩ :=
    takeApart_of_holds folder (h .gestures) (fun _ => gesturesOf_of_written) rfl
  obtain ⟨_, hquestionfile, hquestions⟩ :=
    takeApart_of_holds folder (h .questions) (fun _ => questionsOf_of_written) rfl
  obtain ⟨_, hlocationfile, hlocations⟩ :=
    takeApart_of_holds folder (h .locations) (fun _ => locationsOf_of_written) rfl
  obtain ⟨_, hnamefile, hpeople⟩ :=
    takeApart_of_holds folder (h .names)
      (fun _ hv => namesOf_of_written hv (.head _) (.tail _ (.head _))) rfl
  unfold load
  refine Reading.bind_eq_ok.mpr ⟨_, hobjectfile, ?_⟩
  refine Reading.bind_eq_ok.mpr ⟨_, hobjects, ?_⟩
  refine Reading.bind_eq_ok.mpr ⟨_, hgesturefile, ?_⟩
  refine Reading.bind_eq_ok.mpr ⟨_, hgestures, ?_⟩
  refine Reading.bind_eq_ok.mpr ⟨_, hquestionfile, ?_⟩
  refine Reading.bind_eq_ok.mpr ⟨_, hquestions, ?_⟩
  refine Reading.bind_eq_ok.mpr ⟨_, hlocationfile, ?_⟩
  refine Reading.bind_eq_ok.mpr ⟨_, hlocations, ?_⟩
  refine Reading.bind_eq_ok.mpr ⟨_, hnamefile, ?_⟩
  refine Reading.bind_eq_ok.mpr ⟨_, hpeople, ?_⟩
  unfold only
  cases present .objects <;> rfl

/-! ### A home, told without a file of questions -/

def home : Contents where
  rooms := [⟨⟨string "kitchen"⟩, [⟨string "sink", false, false⟩]⟩, ⟨⟨string "hall"⟩, []⟩]
  shelves := [⟨⟨string "tea", .null⟩, [⟨string "pot", .alike, .easy⟩]⟩]
  males := [string "Max"]
  females := [string "Ada"]
  gestures := [⟨string "waving", .high⟩]
  questions := [⟨string "Who?", string "", .easy⟩]

def homeValue : CatalogFile → Value
  | .objects => .list [record [("category", string "tea"),
      ("objects", .list [record [("type", string "Alike"), ("name", string "pot")]])]]
  | .gestures => .list [record [("name", string "waving"), ("tier", string " High")]]
  | .questions => .list []
  | .locations => .list [
      record [("locations", .list [record [("name", string "sink")]]), ("room", string "kitchen")],
      record [("room", string "hall")]]
  | .names => record [("female", .list [string "Ada"]), ("male", .list [string "Max"])]

def homeFolder : FileTree :=
  .folder <| [CatalogFile.objects, .gestures, .locations, .names].map fun f =>
    (f.name, .file (homeValue f).written.toUtf8)

theorem writtenIn_homeValue {f : CatalogFile} (hf : f ≠ .questions) :
    home.WrittenIn f (homeValue f) := by
  have heasy : Tier.easy.Written (.text ([] ++ "easy".toList ++ [])) :=
    .mk (by decide) (by decide) (by decide)
  have hhigh : Tier.high.Written (.text (" ".toList ++ "High".toList ++ [])) :=
    .mk (by decide) (by decide) (by decide)
  cases f with
  | objects =>
      refine .mk (.cons (.mk (by decide) ⟨.written (.head _) rfl, .omitted (by decide) rfl rfl,
        .written (.tail _ (.head _)) (.mk (.cons ?pot .nil))⟩) .nil)
      exact .mk (by decide) ⟨.written (.tail _ (.head _)) rfl, .written (.head _) (.mk (by decide)),
        .omitted (by decide) rfl heasy⟩
  | gestures =>
      exact .mk (.cons (.mk (by decide) ⟨.written (.head _) rfl,
        .written (.tail _ (.head _)) hhigh⟩) .nil)
  | questions => exact absurd rfl hf
  | locations =>
      refine .mk (.cons (.mk (by decide) ⟨.written (.tail _ (.head _)) rfl,
        .written (.head _) (.mk (.cons ?sink .nil))⟩) (.cons ?hall .nil))
      case sink =>
        exact .mk (by decide) ⟨.written (.head _) rfl, .omitted (by decide) rfl rfl,
          .omitted (by decide) rfl rfl⟩
      case hall =>
        exact .mk (by decide) ⟨.written (.head _) rfl, .omitted (by decide) rfl (.mk .nil)⟩
  | names => exact .mk (by decide) ⟨.written (.tail _ (.head _)) rfl, .written (.head _) rfl⟩

theorem read_homeValue (f : CatalogFile) :
    Value.read (homeValue f).written = .ok (homeValue f) := by
  cases f <;> cbv

theorem load_written_home :
    let files : Text → Found := fun name => homeFolder.find [name]
    (∀ f, home.Holds files f (f != .questions)) ∧
      ∃ loaded, (load "home".toList files).result = .ok loaded ∧
        loaded.entities .location = [.location (.room ⟨string "kitchen"⟩),
          .location (.spot ⟨string "sink", ⟨string "kitchen"⟩, false, false⟩),
          .location (.room ⟨string "hall"⟩)] ∧
        loaded.entities .object = [.thing ⟨string "pot", ⟨string "tea", .null⟩, .alike, .easy⟩] ∧
        loaded.entities .gesture = [.gesture ⟨string "waving", .high⟩] ∧
        loaded.entities .name = [.person ⟨string "Max", .male⟩, .person ⟨string "Ada", .female⟩] ∧
        loaded.entities .question = [] := by
  intro files
  have hholds : ∀ f, home.Holds files f (f != .questions) := by
    intro f
    cases f
    case questions => exact .leftOut rfl
    all_goals exact .written rfl (read_homeValue _) (writtenIn_homeValue (by decide))
  obtain ⟨loaded, hloaded, hentities⟩ := load_written hholds
  exact ⟨hholds, loaded, hloaded, hentities .location, hentities .object, hentities .gesture,
    hentities .name, hentities .question⟩

end Catalog

end Errand
