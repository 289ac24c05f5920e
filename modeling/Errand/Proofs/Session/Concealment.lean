import Errand.Proofs.Session.Coupling
import Errand.Proofs.Session.Tiling

/-! # Stand-ins conceal names

The names of people, of objects and of places inside rooms decide nothing: no draw, no kind, no pronoun
and no failure depends on them. So where the wildcards of a prototype that would show such a name ask for
a stand-in, catalogs that differ in these names alone give tasks of the same text. Metadata may tell them
apart.
-/

namespace Errand

/-! ## Catalogs without names -/

def Location.anonymous : Location → Location
  | .room r => .room r
  | .spot s => .spot { s with name := .null }

/-- The entity without a name, if it is a person, an object or a place inside a room. -/
def Entity.anonymous : Entity → Entity
  | .location l => .location l.anonymous
  | .person p => .person { p with name := .null }
  | .thing t => .thing { t with name := .null }
  | e => e

def Catalog.anonymous (c : Catalog) : Catalog :=
  { c with
    locations := c.locations.map Location.anonymous
    people := c.people.map fun p => { p with name := .null }
    things := c.things.map fun t => { t with name := .null } }

/-- Wildcards of this kind show names that a catalog without names lacks. -/
def Kind.isSecret : Kind → Bool
  | .name | .male | .female => true
  | .object | .aobject | .kobject => true
  | .location | .beacon | .placement => true
  | _ => false

namespace Entity

@[simp] theorem room?_anonymous (e : Entity) : e.anonymous.room? = e.room? := by
  cases e with
  | location l => cases l <;> rfl
  | _ => rfl

@[simp] theorem category?_anonymous (e : Entity) : e.anonymous.category? = e.category? := by
  cases e <;> rfl

@[simp] theorem allowedBy_anonymous (tier : Tier) (e : Entity) :
    e.anonymous.allowedBy tier = e.allowedBy tier := by
  cases e <;> rfl

@[simp] theorem accepts_anonymous (k : Kind) (e : Entity) : k.accepts e.anonymous = k.accepts e := by
  cases e with
  | location l => cases l <;> cases k <;> rfl
  | _ => cases k <;> rfl

theorem eq_of_anonymous_eq {k : Kind} (hk : k.isSecret = false) {a b : Entity}
    (ha : k.Describes a) (h : a.anonymous = b.anonymous) : a = b := by
  cases k with
  | category =>
      obtain ⟨d, rfl⟩ := ha
      cases b <;> simp_all [anonymous]
  | gesture =>
      obtain ⟨g, rfl⟩ := ha
      cases b <;> simp_all [anonymous]
  | question =>
      obtain ⟨q, rfl⟩ := ha
      cases b <;> simp_all [anonymous]
  | room =>
      obtain ⟨r, rfl⟩ := ha
      cases b with
      | location l => cases l <;> simp_all [anonymous, Location.anonymous]
      | _ => simp [anonymous] at h
  | void => exact ha.elim
  | pron => exact ha.elim
  | _ => simp [Kind.isSecret] at hk

end Entity

theorem Catalog.entities_anonymous (c : Catalog) (k : Collection) :
    c.anonymous.entities k = (c.entities k).map Entity.anonymous := by
  cases k <;> simp [entities, anonymous, Entity.anonymous]

theorem Wildcard.standIn?_eq_of_anonymous_eq (w : Wildcard) {a b : Entry}
    (h : a.entity.anonymous = b.entity.anonymous) :
    w.standIn? (.entry a) = w.standIn? (.entry b) := by
  have hroom : a.entity.room? = b.entity.room? := by
    rw [← Entity.room?_anonymous, h, Entity.room?_anonymous]
  have hcategory : a.entity.category? = b.entity.category? := by
    rw [← Entity.category?_anonymous, h, Entity.category?_anonymous]
  exact w.standIn?_congr hroom hcategory

namespace Session

/-! ## Entries that differ in their names -/

/-- The entities differ in their names at most, and these are texts. -/
structure SameButName (a b : Entry) : Prop where
  anonymous : a.entity.anonymous = b.entity.anonymous
  named : ∃ t, a.entity.name = .text t
  otherNamed : ∃ t, b.entity.name = .text t

/-- Some text is shown in both runs; their lines have nothing in common. -/
def Likeness.anyText : Likeness where
  shown x y := (∃ t, x = .text t) ∧ ∃ t, y = .text t
  lines _ _ := True
  shown_text t := ⟨⟨t, rfl⟩, ⟨t, rfl⟩⟩
  lines_same _ := trivial
  lines_append _ _ := trivial
  lines_concat := by
    intro xs ys h
    have hboth : ∃ t u, Task.concat? xs = some t ∧ Task.concat? ys = some u := by
      induction h with
      | nil => exact ⟨[], [], rfl, rfl⟩
      | cons hxy _ ih =>
          obtain ⟨⟨x, rfl⟩, ⟨y, rfl⟩⟩ := hxy
          obtain ⟨t, u, ht, hu⟩ := ih
          exact ⟨x ++ t, y ++ u, by rw [concat?_cons, ht]; rfl, by rw [concat?_cons, hu]; rfl⟩
    obtain ⟨t, u, ht, hu⟩ := hboth
    rw [ht, hu]
    exact .some trivial

theorem bond_sameButName : Bond SameButName Likeness.anyText where
  accepts h k := by rw [← Entity.accepts_anonymous, h.anonymous, Entity.accepts_anonymous]
  shown h := ⟨h.named, h.otherNamed⟩

theorem stock_anonymous (c : Catalog) (tier : Tier) (k : Collection) :
    stock c.anonymous tier k =
      (stock c tier k).map fun e => { e with entity := e.entity.anonymous } := by
  unfold stock
  rw [Catalog.entities_anonymous, List.zipIdx_map, List.map_map, List.filter_map, List.filter_map,
    List.map_map]
  congr 1
  refine List.filter_congr fun x _ => ?_
  simp

/-- Catalogs that differ in names alone have stocks that do. -/
theorem sameButName_stock {c d : Catalog} (hc : c.NamesAreText) (hd : d.NamesAreText)
    (same : c.anonymous = d.anonymous) (tier : Tier) (k : Collection) :
    List.Forall₂ SameButName (stock c tier k) (stock d tier k) := by
  have hmap : (stock c tier k).map (fun e => e.entity.anonymous) =
      (stock d tier k).map fun e => e.entity.anonymous := by
    have h := congrArg (fun c => (stock c tier k).map Entry.entity) same
    simpa only [stock_anonymous, List.map_map, Function.comp_def] using h
  have hpaired : List.Forall₂ (fun a b : Entry => a.entity.anonymous = b.entity.anonymous)
      (stock c tier k) (stock d tier k) := forall₂_iff_map_eq.mpr hmap
  have hnamed {c : Catalog} (hc : c.NamesAreText) {e : Entry} (he : e ∈ stock c tier k) :
      ∃ t, e.entity.name = .text t :=
    hc k e.entity (List.mem_of_getElem? (mem_stock.mp he).1)
  exact forall₂_imp_mem hpaired fun a b ha hb h => ⟨h, hnamed hc ha, hnamed hd hb⟩

/-! ## Tokens -/

theorem shown_tokenOf (w : Wildcard) (x : Element) (lines : List Text) :
    (tokenOf w (some x) lines).shown =
      ((if w.obfuscated then w.standIn? x else none).getD x).name := by
  unfold tokenOf
  dsimp only
  split
  · next coarser hcoarser =>
      rw [hcoarser]
      rfl
  · next hnone =>
      rw [hnone]
      rfl

variable {c : Catalog} {tier : Tier} {first s : Session}

/-- The wildcard asks for a stand-in if it might show a secret. -/
def Guarded (w : Wildcard) : Prop :=
  ∀ k, w.kind? = some k → k.isSecret = true → w.obfuscated = true

theorem isObscurable_of_isSecret {k : Kind} (h : k.isSecret = true) : k.isObscurable = true := by
  cases k <;> first | rfl | simp [Kind.isSecret] at h

/-- A wildcard on guard shows the same for entries that differ in their names. -/
theorem shown_tokenOf_guarded {w : Wildcard} (hw : Guarded w)
    (horder : Orderly first (stock c tier) s.books) {x y : Option Element}
    (hresult : (resolve w s).result = .ok x) (hxy : Element.Coupled SameButName x y)
    (lines others : List Text) : (tokenOf w x lines).shown = (tokenOf w y others).shown := by
  cases hxy with
  | unknown => rfl
  | hidden => rw [shown_tokenOf, shown_tokenOf]
  | pronoun word => rw [shown_tokenOf, shown_tokenOf]
  | @entry a b hab =>
      rw [shown_tokenOf, shown_tokenOf, w.standIn?_eq_of_anonymous_eq hab.anonymous]
      rcases entry_or_plain hresult with ⟨n, k, e, ⟨hn, hk⟩, heq⟩ | plain
      · obtain rfl : a = e := by simpa using heq
        cases hsecret : n.isSecret with
        | true =>
            have hfound := standIn?_of_result horder hresult
            rw [hn, Option.bind_some, w.standIn?_eq_of_anonymous_eq hab.anonymous] at hfound
            rw [hw n hn hsecret, if_pos rfl]
            obtain ⟨coarser, hcoarser⟩ := Option.isSome_iff_exists.mp
              (hfound.trans (isObscurable_of_isSecret hsecret))
            rw [hcoarser]
            rfl
        | false =>
            obtain ⟨_, hchoice, _, haccepts⟩ := horder.kind_of_entry hn hresult
            have hdescribes := describes_of_mem_choices hchoice haccepts
            have hentity := Entity.eq_of_anonymous_eq hsecret hdescribes hab.anonymous
            cases (if w.obfuscated then w.standIn? (.entry b) else none) with
            | some coarser => rfl
            | none => exact congrArg Entity.name hentity
      · generalize (resolve w s).kind = kind at plain
        cases plain

/-! ## Tasks -/

/-- Catalogs that differ in nothing but the names of people, of objects and of places inside rooms give
tasks of the same text, or fail of the same cause, if every wildcard of the prototype that would show such
a name asks for a stand-in. -/
theorem generateTask_conceals (c d : Catalog) (hc : c.ShowsText) (hd : d.ShowsText)
    (same : c.anonymous = d.anonymous) (dice : Dice) (tier : Tier) (prototype : Text)
    (marked : ∀ w ∈ Text.wildcards prototype, ∀ k, w.kind? = some k → k.isSecret = true →
      w.obfuscated = true) :
    SameOutcome
      (fun t u =>
        List.Forall₂ (fun x y => x.source = y.source ∧ x.shown = y.shown) t.tokens u.tokens ∧
          ∃ text, t.text? = some text ∧ u.text? = some text)
      (generateTask prototype c dice tier).1 (generateTask prototype d dice tier).1 := by
  have tokens : TokenBond (start c dice tier) (stock c tier) SameButName Likeness.anyText
      (Text.wildcards prototype)
      (fun x y => (x.source = y.source ∧ x.shown = y.shown) ∧ ∃ t, x.shown = .text t) := by
    refine ⟨fun t => ⟨⟨rfl, rfl⟩, ⟨t, rfl⟩⟩, ?_⟩
    intro w hw s x y lines others horder hresult hxy _
    refine ⟨⟨?_, ?_⟩, text_shown_tokenOf hc horder hresult lines⟩
    · rw [source_tokenOf, source_tokenOf]
    · exact shown_tokenOf_guarded (marked w hw) horder hresult hxy lines others
  have hstock : ∀ k, True → List.Forall₂ SameButName (stock c tier k) (stock d tier k) :=
    fun k _ => sameButName_stock hc.names hd.names same tier k
  have houtcome := sameOutcome_generateTask bond_sameButName dice hstock tokens fun _ =>
    (Text.throughout_iff []).mpr fun _ _ _ _ _ => trivial
  refine houtcome.imp fun t u htokens => ?_
  obtain ⟨shown, hshown⟩ := exists_shown (htokens.imp fun _ _ h => h.2)
  have hsame : t.tokens.map Token.shown = u.tokens.map Token.shown :=
    forall₂_iff_map_eq.mp (htokens.imp fun _ _ h => h.1.2)
  refine ⟨htokens.imp fun _ _ h => h.1, shown.flatten, ?_, ?_⟩
  · rw [Task.text?, hshown, concat?_map_text]
  · rw [Task.text?, ← hsame, hshown, concat?_map_text]

/-- The person and the object are shown by their stand-ins, and named in the metadata. -/
theorem generateTask_conceals_person :
    let fruits : Category := { name := .text "fruits".toList, defaultLocation := .null }
    let catalog (person object : Text) : Catalog :=
      { categories := [fruits], gestures := [], locations := []
        people := [{ name := .text person, gender := .male }]
        things := [{ name := .text object, category := fruits, familiarity := .known, tier := .easy }]
        questions := [] }
    let c := catalog "Bob".toList "pear".toList
    let d := catalog "Adam".toList "fig".toList
    let prototype : Text := "Bring {male?} one of the {kobject? meta: ask {male}}.".toList
    c.ShowsText ∧ d.ShowsText ∧ c.anonymous = d.anonymous ∧
      (∀ w ∈ Text.wildcards prototype, ∀ k, w.kind? = some k → k.isSecret = true →
        w.obfuscated = true) ∧
      ∃ t u, (generateTask prototype c ⟨0⟩ .easy).1 = .ok t ∧
        (generateTask prototype d ⟨0⟩ .easy).1 = .ok u ∧
        t.text? = some "Bring a person one of the fruits.".toList ∧ u.text? = t.text? ∧
        t.metadata.map Value.text? = ["Bob".toList, "ask Bob".toList, "pear".toList].map some ∧
        u.metadata.map Value.text? = ["Adam".toList, "ask Adam".toList, "fig".toList].map some := by
  intro fruits catalog c d prototype
  have shows (person object : Text) : (catalog person object).ShowsText := by
    refine ⟨?_, ?_, ?_⟩ <;> intro k e he <;> cases k <;>
      simp_all [Catalog.entities, catalog, fruits, Entity.name, Entity.room?, Entity.category?]
  have same : c.anonymous = d.anonymous := rfl
  have marked : ∀ w ∈ Text.wildcards prototype, ∀ k, w.kind? = some k → k.isSecret = true →
      w.obfuscated = true := by
    have hall : ∀ w ∈ Text.wildcards prototype, w.obfuscated = true := by decide +kernel
    exact fun w hw _ _ _ => hall w hw
  have hfirst : (generateTask prototype c ⟨0⟩ .easy).1.toOption.map
      (fun t => (t.text?, t.metadata.map Value.text?)) =
        some (some "Bring a person one of the fruits.".toList,
          ["Bob".toList, "ask Bob".toList, "pear".toList].map some) := by decide +kernel
  have hsecond : (generateTask prototype d ⟨0⟩ .easy).1.toOption.map
      (fun t => t.metadata.map Value.text?) =
        some (["Adam".toList, "ask Adam".toList, "fig".toList].map some) := by decide +kernel
  have hconceals := generateTask_conceals c d (shows _ _) (shows _ _) same ⟨0⟩ .easy prototype marked
  generalize (generateTask prototype c ⟨0⟩ .easy).1 = x at hfirst hconceals ⊢
  generalize (generateTask prototype d ⟨0⟩ .easy).1 = y at hsecond hconceals ⊢
  cases hconceals with
  | failed e => cases hfirst
  | @done t u h =>
      obtain ⟨_, text, ht, hu⟩ := h
      obtain ⟨hshown, hlines⟩ := Prod.mk.inj (Option.some.inj hfirst)
      exact ⟨shows _ _, shows _ _, same, marked, t, u, rfl, rfl, hshown, hu.trans ht.symm, hlines,
        Option.some.inj hsecond⟩

end Session

end Errand
