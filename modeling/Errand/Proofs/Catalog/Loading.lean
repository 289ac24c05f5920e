import Errand.Catalog.Folder
import Errand.Proofs.Session.Tiling

/-! # What a folder loads as

A folder that can be read gives its rooms with the places inside them and its categories with their
objects. So the room of a place and the category of an object are entities of the catalog as well, and
where the names of all entities are text everything that can be shown of them is. That they are text
is not looked at when a folder is read.
-/

namespace Errand

theorem Text.ofUtf8?_toUtf8 (t : Text) : ofUtf8? t.toUtf8 = some t := by
  have hvalid : t.toUtf8.IsValidUTF8 := (String.ofList t).isValidUTF8
  unfold ofUtf8? String.fromUTF8?
  rw [dif_pos hvalid]
  change some (String.ofList t).toList = some t
  rw [String.toList_ofList]

theorem Value.text?_eq_some {v : Value} {t : Text} : v.text? = some t ↔ v = .text t := by
  cases v <;> simp [text?]

namespace Catalog

theorem namesAreText_of_people {people : List Person}
    (h : ∀ p ∈ people, ∃ t, p.name.text? = some t) :
    NamesAreText { empty with people } := by
  intro k e he
  cases k <;> simp only [entities, empty, List.map_nil, List.not_mem_nil] at he
  obtain ⟨p, hp, rfl⟩ := List.mem_map.mp he
  obtain ⟨t, ht⟩ := h p hp
  exact ⟨t, Value.text?_eq_some.mp ht⟩

/-- The room of a place and the category of an object belong to the catalog themselves. -/
structure Closed (c : Catalog) : Prop where
  rooms : ∀ s, .spot s ∈ c.locations → .room s.room ∈ c.locations
  categories : ∀ t ∈ c.things, t.category ∈ c.categories

theorem Closed.room_mem {c : Catalog} (h : c.Closed) {k : Collection} {e : Entity} {r : Room}
    (he : e ∈ c.entities k) (hr : e.room? = some r) :
    .location (.room r) ∈ c.entities .location := by
  cases k <;> simp only [entities, List.mem_map] at he <;> obtain ⟨x, hx, rfl⟩ := he
  case location =>
    cases x with
    | room _ => cases hr
    | spot s =>
        obtain rfl : s.room = r := Option.some.inj hr
        exact List.mem_map_of_mem (h.rooms s hx)
  all_goals cases hr

theorem Closed.category_mem {c : Catalog} (h : c.Closed) {k : Collection} {e : Entity} {d : Category}
    (he : e ∈ c.entities k) (hd : e.category? = some d) : .category d ∈ c.entities .category := by
  cases k <;> simp only [entities, List.mem_map] at he <;> obtain ⟨x, hx, rfl⟩ := he
  case object =>
    obtain rfl : x.category = d := Option.some.inj hd
    exact List.mem_map_of_mem (h.categories x hx)
  all_goals cases hd

theorem Closed.showsText {c : Catalog} (h : c.Closed) (named : c.NamesAreText) : c.ShowsText where
  names := named
  rooms _ _ he _ hr := named .location _ (h.room_mem he hr)
  categories _ _ he _ hd := named .category _ (h.category_mem he hd)

/-! ## Steps that may fail -/

section

variable {α β : Type} {b : β}

theorem bind_eq_ok {x : Except Defect α} {f : α → Except Defect β} :
    x >>= f = .ok b ↔ ∃ a, x = .ok a ∧ f a = .ok b := by
  cases x with
  | error e =>
      constructor
      · intro h
        cases h
      · intro ⟨_, h, _⟩
        cases h
  | ok a =>
      constructor
      · exact fun h => ⟨a, rfl, h⟩
      · intro ⟨_, ha, h⟩
        cases ha
        exact h

theorem mem_of_mapM_eq_ok {f : α → Except Defect β} {xs : List α} {ys : List β}
    (h : xs.mapM f = .ok ys) (hb : b ∈ ys) : ∃ x ∈ xs, f x = .ok b := by
  induction xs generalizing ys with
  | nil =>
      cases h
      cases hb
  | cons x xs ih =>
      rw [List.mapM_cons] at h
      obtain ⟨y, hy, h⟩ := bind_eq_ok.mp h
      obtain ⟨rest, hrest, h⟩ := bind_eq_ok.mp h
      cases h
      rcases List.mem_cons.mp hb with rfl | hb
      · exact ⟨x, List.mem_cons_self, hy⟩
      · obtain ⟨z, hz, hfound⟩ := ih hrest hb
        exact ⟨z, List.mem_cons_of_mem x hz, hfound⟩

theorem mapM_of_forall₂ {γ : Type} {Related : γ → α → Prop} {f : α → Except Defect β} {g : γ → β}
    {zs : List γ} {xs : List α} (h : List.Forall₂ Related zs xs)
    (hf : ∀ z x, Related z x → f x = .ok (g z)) : xs.mapM f = .ok (zs.map g) := by
  induction h with
  | nil => rfl
  | cons hx _ ih =>
      rw [List.mapM_cons]
      exact bind_eq_ok.mpr ⟨_, hf _ _ hx, bind_eq_ok.mpr ⟨_, ih, rfl⟩⟩

theorem Reading.bind_eq_ok {r : Reading α} {next : α → Reading β} :
    (r >>= next).result = .ok b ↔ ∃ a, r.result = .ok a ∧ (next a).result = .ok b := by
  change (Reading.bind r next).result = _ ↔ _
  unfold Reading.bind
  cases r.result <;> simp

theorem takeApart_eq_ok {folder : Text} {x : Except Defect β} :
    (takeApart folder x).result = .ok b ↔ x = .ok b := by
  cases x with
  | error defect => constructor <;> intro h <;> cases h
  | ok a =>
      change Except.ok a = .ok b ↔ _
      rw [Except.ok.injEq, Except.ok.injEq]

end

/-! ## The layout -/

theorem room_of_spotOf {room : Room} {entry : Value} {l : Location}
    (h : spotOf room entry = .ok l) : ∃ s, l = .spot s ∧ s.room = room := by
  unfold spotOf at h
  obtain ⟨name, _, h⟩ := bind_eq_ok.mp h
  obtain ⟨beacon, _, h⟩ := bind_eq_ok.mp h
  obtain ⟨placement, _, h⟩ := bind_eq_ok.mp h
  cases h
  exact ⟨_, rfl, rfl⟩

theorem room_mem_of_roomOf {entry : Value} {ls : List Location} {s : Spot}
    (h : roomOf entry = .ok ls) (hs : .spot s ∈ ls) : .room s.room ∈ ls := by
  unfold roomOf at h
  obtain ⟨name, _, h⟩ := bind_eq_ok.mp h
  obtain ⟨listed, _, h⟩ := bind_eq_ok.mp h
  obtain ⟨places, _, h⟩ := bind_eq_ok.mp h
  obtain ⟨spots, hspots, h⟩ := bind_eq_ok.mp h
  cases h
  rcases List.mem_cons.mp hs with hroom | hs
  · cases hroom
  · obtain ⟨place, _, hplace⟩ := mem_of_mapM_eq_ok hspots hs
    obtain ⟨_, hspot, hinside⟩ := room_of_spotOf hplace
    cases hspot
    rw [hinside]
    exact List.mem_cons_self

theorem room_mem_of_locationsOf {file : Value} {ls : List Location} {s : Spot}
    (h : locationsOf file = .ok ls) (hs : .spot s ∈ ls) : .room s.room ∈ ls := by
  unfold locationsOf at h
  obtain ⟨entries, _, h⟩ := bind_eq_ok.mp h
  obtain ⟨rooms, hrooms, h⟩ := bind_eq_ok.mp h
  cases h
  obtain ⟨inside, hinside, hs⟩ := List.mem_flatten.mp hs
  obtain ⟨entry, _, hentry⟩ := mem_of_mapM_eq_ok hrooms hinside
  exact List.mem_flatten.mpr ⟨inside, hinside, room_mem_of_roomOf hentry hs⟩

theorem category_of_thingOf {category : Category} {entry : Value} {t : Thing}
    (h : thingOf category entry = .ok t) : t.category = category := by
  unfold thingOf at h
  obtain ⟨type, _, h⟩ := bind_eq_ok.mp h
  split at h
  · obtain ⟨name, _, h⟩ := bind_eq_ok.mp h
    cases h
  · obtain ⟨name, _, h⟩ := bind_eq_ok.mp h
    obtain ⟨tier, _, h⟩ := bind_eq_ok.mp h
    cases h
    rfl

theorem category_of_categoryOf {entry : Value} {group : Category × List Thing} {t : Thing}
    (h : categoryOf entry = .ok group) (ht : t ∈ group.2) : t.category = group.1 := by
  unfold categoryOf at h
  obtain ⟨name, _, h⟩ := bind_eq_ok.mp h
  obtain ⟨place, _, h⟩ := bind_eq_ok.mp h
  obtain ⟨listed, _, h⟩ := bind_eq_ok.mp h
  obtain ⟨entries, _, h⟩ := bind_eq_ok.mp h
  obtain ⟨things, hthings, h⟩ := bind_eq_ok.mp h
  cases h
  obtain ⟨item, _, hitem⟩ := mem_of_mapM_eq_ok hthings ht
  exact category_of_thingOf hitem

theorem category_mem_of_thingsOf {file : Value} {categories : List Category} {things : List Thing}
    {t : Thing} (h : thingsOf file = .ok (categories, things)) (ht : t ∈ things) :
    t.category ∈ categories := by
  unfold thingsOf at h
  obtain ⟨entries, _, h⟩ := bind_eq_ok.mp h
  obtain ⟨groups, hgroups, h⟩ := bind_eq_ok.mp h
  cases h
  obtain ⟨inside, hinside, ht⟩ := List.mem_flatten.mp ht
  obtain ⟨group, hgroup, rfl⟩ := List.mem_map.mp hinside
  obtain ⟨entry, _, hentry⟩ := mem_of_mapM_eq_ok hgroups hgroup
  rw [category_of_categoryOf hentry ht]
  exact List.mem_map_of_mem hgroup

/-! ## Folders -/

variable {folder : Text} {files : Text → Found}

theorem closed_of_load {c : Catalog} (h : (load folder files).result = .ok c) : c.Closed := by
  unfold load at h
  obtain ⟨objects, _, h⟩ := Reading.bind_eq_ok.mp h
  obtain ⟨⟨categories, things⟩, hthings, h⟩ := Reading.bind_eq_ok.mp h
  obtain ⟨_, _, h⟩ := Reading.bind_eq_ok.mp h
  obtain ⟨gestures, _, h⟩ := Reading.bind_eq_ok.mp h
  obtain ⟨_, _, h⟩ := Reading.bind_eq_ok.mp h
  obtain ⟨questions, _, h⟩ := Reading.bind_eq_ok.mp h
  obtain ⟨_, _, h⟩ := Reading.bind_eq_ok.mp h
  obtain ⟨locations, hlocations, h⟩ := Reading.bind_eq_ok.mp h
  obtain ⟨_, _, h⟩ := Reading.bind_eq_ok.mp h
  obtain ⟨people, _, h⟩ := Reading.bind_eq_ok.mp h
  cases h
  constructor
  · exact fun s hs => room_mem_of_locationsOf (takeApart_eq_ok.mp hlocations) hs
  · exact fun t ht => category_mem_of_thingsOf (takeApart_eq_ok.mp hthings) ht

theorem readFile_of_missing {f : CatalogFile} (h : files f.name = .missing) :
    (readFile folder files f).result = .ok .null := by
  unfold readFile
  rw [h]

theorem readFile_of_text {f : CatalogFile} {t : Text} {v : Value}
    (h : files f.name = .file t.toUtf8) (hread : Value.read t = .ok v) :
    (readFile folder files f).result = .ok v := by
  unfold readFile
  rw [h]
  dsimp only
  rw [Text.ofUtf8?_toUtf8]
  dsimp only
  rw [hread]

def onlyNames (t : Text) (name : Text) : Found :=
  if name = CatalogFile.names.name then .file t.toUtf8 else .missing

theorem load_onlyNames {t : Text} {v : Value} {people : List Person} (hread : Value.read t = .ok v)
    (hnames : namesOf v = .ok people) :
    (load folder (onlyNames t)).result = .ok { empty with people } := by
  have hmissing {f : CatalogFile} (hne : f.name ≠ CatalogFile.names.name) :
      (readFile folder (onlyNames t) f).result = .ok .null := readFile_of_missing (if_neg hne)
  have hfile : (readFile folder (onlyNames t) .names).result = .ok v :=
    readFile_of_text (if_pos rfl) hread
  unfold load
  refine Reading.bind_eq_ok.mpr ⟨_, hmissing (by decide), ?_⟩
  refine Reading.bind_eq_ok.mpr ⟨([], []), rfl, ?_⟩
  refine Reading.bind_eq_ok.mpr ⟨_, hmissing (by decide), ?_⟩
  refine Reading.bind_eq_ok.mpr ⟨[], rfl, ?_⟩
  refine Reading.bind_eq_ok.mpr ⟨_, hmissing (by decide), ?_⟩
  refine Reading.bind_eq_ok.mpr ⟨[], rfl, ?_⟩
  refine Reading.bind_eq_ok.mpr ⟨_, hmissing (by decide), ?_⟩
  refine Reading.bind_eq_ok.mpr ⟨[], rfl, ?_⟩
  refine Reading.bind_eq_ok.mpr ⟨_, hfile, ?_⟩
  exact Reading.bind_eq_ok.mpr ⟨people, takeApart_eq_ok.mpr hnames, rfl⟩

/-- What comes of the names in a file comes of the catalog that a folder with the file loads as. -/
theorem exists_load_onlyNames (folder : Text) {α : Type} {t : Text} {f : List Person → α} {a : α}
    (h : ((Value.read t).toOption.bind fun v => (namesOf v).toOption.map f) = some a) :
    ∃ people, (load folder (onlyNames t)).result = .ok { empty with people } ∧ f people = a := by
  cases hread : Value.read t with
  | error e => simp [hread, Except.toOption] at h
  | ok v =>
      cases hnames : namesOf v with
      | error e => simp [hread, hnames, Except.toOption] at h
      | ok people =>
          refine ⟨people, load_onlyNames hread hnames, ?_⟩
          simpa [hread, hnames, Except.toOption] using h

end Catalog

end Errand
