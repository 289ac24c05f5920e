import Errand.Proofs.Session.Coupling
import Errand.Proofs.Session.Tiling

/-! # Unused collections

A task depends on the collections that its prototype draws from, and of these only on what the tier
leaves in them. Six shuffles come before it and draws come between its own, but each of them advances
the seed by one, whatever it shuffles or chooses from.
-/

namespace Errand

/-- A wildcard of the prototype, or of the metadata that is read with it, draws from the collection.
Nothing is drawn for a prototype with a number that has too many digits. -/
def Text.Uses (prototype : Text) (k : Collection) : Prop :=
  .oversized ∉ Text.segments prototype ∧
    ∃ stop ∈ Session.itinerary prototype, ∃ kind, stop.wildcard.Asks kind k

def Collection.isTiered : Collection → Bool
  | .gesture | .object | .question => true
  | _ => false

theorem Entity.allowedBy_of_untiered {e : Entity} (h : e.collection.isTiered = false) (tier : Tier) :
    e.allowedBy tier = true := by
  cases e <;> first | rfl | cases h

theorem Catalog.available_of_untiered {k : Collection} (hk : k.isTiered = false) (c : Catalog)
    (tier : Tier) : c.available tier k = c.entities k := by
  unfold available
  rw [List.filter_eq_self]
  intro e he
  apply Entity.allowedBy_of_untiered
  rw [Catalog.collection_of_mem_entities he]
  exact hk

namespace Session

variable {c d : Catalog} {tier other : Tier} {first s : Session}

/-! ## Entries of one entity -/

def SameEntity (a b : Entry) : Prop := a.entity = b.entity

theorem bond_sameEntity : Bond SameEntity .equal where
  accepts h k := by rw [h]
  shown h := congrArg Entity.name h

theorem sameEntity_stock {k : Collection} (h : c.available tier k = d.available other k) :
    List.Forall₂ SameEntity (stock c tier k) (stock d other k) := by
  rw [← map_entity_stock, ← map_entity_stock] at h
  exact forall₂_iff_map_eq.mpr h

/-- The tokens have one source, show the same and have the same metadata. -/
structure SameToken (x y : Token) : Prop where
  source : x.source = y.source
  shown : x.shown = y.shown
  metadata : x.metadata = y.metadata

def SameTask (t u : Task) : Prop := List.Forall₂ SameToken t.tokens u.tokens

theorem sameToken_tokenOf (w : Wildcard) {x y : Option Element}
    (h : Element.Coupled SameEntity x y) (lines : List Text) :
    SameToken (tokenOf w x lines) (tokenOf w y lines) := by
  cases h with
  | unknown | hidden | pronoun => exact ⟨rfl, rfl, rfl⟩
  | @entry a b hab =>
      have hstandIn : w.standIn? (.entry a) = w.standIn? (.entry b) :=
        w.standIn?_congr (congrArg Entity.room? hab) (congrArg Entity.category? hab)
      have hname : (Element.entry a).name = (Element.entry b).name := congrArg Entity.name hab
      unfold tokenOf
      dsimp only
      rw [hstandIn, hname]
      cases if w.obfuscated = true then w.standIn? (.entry b) else none with
      | some coarser => exact ⟨rfl, rfl, rfl⟩
      | none => exact ⟨rfl, hname, rfl⟩

/-! ## Tasks -/

/-- Where a prototype draws from the same entities it comes to the same. -/
theorem sameOutcome_of_available {prototype : Text}
    (same : ∀ k, Text.Uses prototype k → c.available tier k = d.available other k) (dice : Dice) :
    SameOutcome SameTask
      (generateTask prototype c dice tier).1 (generateTask prototype d dice other).1 := by
  have tokens : TokenBond (start c dice tier) (stock c tier) SameEntity .equal
      (Text.wildcards prototype) SameToken := by
    refine ⟨fun t => ⟨rfl, rfl, rfl⟩, ?_⟩
    rintro w _ s x y lines _ _ _ hxy rfl
    exact sameToken_tokenOf w hxy lines
  have hstock : ∀ k, Text.Uses prototype k →
      List.Forall₂ SameEntity (stock c tier k) (stock d other k) :=
    fun k hk => sameEntity_stock (same k hk)
  refine sameOutcome_generateTask bond_sameEntity dice hstock tokens fun sized => ?_
  exact (Text.throughout_iff []).mpr fun stop hstop kind k asks =>
    ⟨sized, stop, hstop, kind, asks⟩

/-- A task depends on nothing but what the tier leaves in the collections that its prototype uses. So
the tier is of no account where only categories, locations and names are used, and neither is a
collection that is not used. -/
theorem generateTask_depends_on_used (prototype : Text) (dice : Dice) :
    (∀ (c d : Catalog) (tier other : Tier),
      (∀ k, Text.Uses prototype k → c.available tier k = d.available other k) →
        SameOutcome SameTask (generateTask prototype c dice tier).1
          (generateTask prototype d dice other).1) ∧
    (¬ Text.Uses prototype .gesture → ¬ Text.Uses prototype .object →
      ¬ Text.Uses prototype .question → ∀ (c : Catalog) (tier other : Tier),
        SameOutcome SameTask (generateTask prototype c dice tier).1
          (generateTask prototype c dice other).1) ∧
    ∀ unused, ¬ Text.Uses prototype unused → ∀ (c d : Catalog) (tier : Tier),
      (∀ k, k ≠ unused → c.entities k = d.entities k) →
        SameOutcome SameTask (generateTask prototype c dice tier).1
          (generateTask prototype d dice tier).1 := by
  refine ⟨fun c d tier other same => sameOutcome_of_available same dice, ?_, ?_⟩
  · intro hgesture hobject hquestion c tier other
    refine sameOutcome_of_available (fun k hk => ?_) dice
    have hk : k.isTiered = false := by
      cases k with
      | gesture => exact absurd hk hgesture
      | object => exact absurd hk hobject
      | question => exact absurd hk hquestion
      | _ => rfl
    rw [Catalog.available_of_untiered hk, Catalog.available_of_untiered hk]
  · intro unused hunused c d tier same
    refine sameOutcome_of_available (fun k hk => ?_) dice
    have hne : k ≠ unused := fun heq => hunused (heq ▸ hk)
    unfold Catalog.available
    rw [same k hne]

/-- A gesture that is too hard, a question and an object are added, none of which the prototypes
use. -/
theorem generateTask_depends_on_used_gesture :
    let fruits : Category := { name := .text "fruits".toList, defaultLocation := .null }
    let waving : Gesture := { name := .text "waving".toList, tier := .easy }
    let c : Catalog :=
      { categories := [fruits], gestures := [waving], locations := []
        people := [{ name := .text "Bob".toList, gender := .male }], things := [], questions := [] }
    let d : Catalog :=
      { c with
        gestures := [{ name := .text "juggling".toList, tier := .high }, waving]
        questions := [{ text := .text "Why?".toList, answer := .null, tier := .easy }] }
    let e : Catalog :=
      { c with
        things := [{ name := .text "pear".toList, category := fruits, familiarity := .known
                     tier := .high }] }
    let prototype : Text := "Find {male meta: by his {gesture}} for {pron}.".toList
    let greeting : Text := "Ask {male meta: of {category}} twice.".toList
    (∀ k, Text.Uses prototype k → c.available .easy k = d.available .easy k) ∧
      (∃ t u, (generateTask prototype c ⟨0⟩ .easy).1 = .ok t ∧
        (generateTask prototype d ⟨0⟩ .easy).1 = .ok u ∧ SameTask t u ∧
        t.text? = some "Find Bob for him.".toList) ∧
      (¬ Text.Uses greeting .gesture ∧ ¬ Text.Uses greeting .object ∧
        ¬ Text.Uses greeting .question ∧
        SameOutcome SameTask (generateTask greeting e ⟨0⟩ .easy).1
          (generateTask greeting e ⟨0⟩ .high).1) ∧
      (∀ k, k ≠ .object → c.entities k = e.entities k) ∧
      SameOutcome SameTask (generateTask greeting c ⟨0⟩ .easy).1
        (generateTask greeting e ⟨0⟩ .easy).1 := by
  intro fruits waving c d e prototype greeting
  have hprototype : ∀ stop ∈ itinerary prototype,
      stop.wildcard.kind?.bind Kind.collection? ∈ [some .name, some .gesture, none] := by
    decide +kernel
  have hgreeting : ∀ stop ∈ itinerary greeting,
      stop.wildcard.kind?.bind Kind.collection? ∈ [some .name, some .category] := by
    decide +kernel
  have same : ∀ k, Text.Uses prototype k → c.available .easy k = d.available .easy k := by
    rintro k ⟨_, stop, hstop, kind, hkind, hk⟩
    have hmem := hprototype stop hstop
    rw [hkind, Option.bind_some, hk] at hmem
    cases k <;> first | rfl | simp at hmem
  have hunused : ∀ k, k.isTiered = true → ¬ Text.Uses greeting k := by
    rintro k htiered ⟨_, stop, hstop, kind, hkind, hk⟩
    have hmem := hgreeting stop hstop
    rw [hkind, Option.bind_some, hk] at hmem
    cases k <;> simp [Collection.isTiered] at htiered hmem
  have hothers : ∀ k, k ≠ .object → c.entities k = e.entities k := by
    intro k hk
    cases k <;> first | rfl | exact absurd rfl hk
  have hrun : (generateTask prototype c ⟨0⟩ .easy).1.toOption.map Task.text? =
      some (some "Find Bob for him.".toList) := by decide +kernel
  obtain ⟨hmain, _, _⟩ := generateTask_depends_on_used prototype ⟨0⟩
  obtain ⟨_, htiers, hadded⟩ := generateTask_depends_on_used greeting ⟨0⟩
  refine ⟨same, ?_, ⟨hunused _ rfl, hunused _ rfl, hunused _ rfl,
    htiers (hunused _ rfl) (hunused _ rfl) (hunused _ rfl) e .easy .high⟩, hothers,
    hadded .object (hunused _ rfl) c e .easy hothers⟩
  have hsame := hmain c d .easy .easy same
  generalize (generateTask prototype c ⟨0⟩ .easy).1 = x at hrun hsame ⊢
  generalize (generateTask prototype d ⟨0⟩ .easy).1 = y at hsame ⊢
  cases hsame with
  | failed => cases hrun
  | @done t u hsame => exact ⟨t, u, rfl, rfl, hsame, Option.some.inj hrun⟩

end Session

end Errand
