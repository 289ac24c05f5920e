import Errand.Proofs.Session.Conservation

/-! # What a wildcard gets is what it asks for

A wildcard that shares the entry of a slot takes over the kind of the slot unseen. That is sound
because a slot always holds a kind on which every wildcard of its key might have settled, and an
entity that this kind describes.
-/

namespace Errand

def Kind.Describes : Kind → Entity → Prop
  | .category, e => ∃ c, e = .category c
  | .gesture, e => ∃ g, e = .gesture g
  | .question, e => ∃ q, e = .question q
  | .name, e => ∃ p, e = .person p
  | .male, e => ∃ p, e = .person p ∧ p.gender = .male
  | .female, e => ∃ p, e = .person p ∧ p.gender = .female
  | .location, e => ∃ l, e = .location l
  | .beacon, e => ∃ s, e = .location (.spot s) ∧ s.isBeacon = true
  | .placement, e => ∃ s, e = .location (.spot s) ∧ s.isPlacement = true
  | .room, e => ∃ r, e = .location (.room r)
  | .object, e => ∃ t, e = .thing t
  | .kobject, e => ∃ t, e = .thing t ∧ t.familiarity = .known
  | .aobject, e => ∃ t, e = .thing t ∧ t.familiarity = .alike
  | .void, _ => False
  | .pron, _ => False

def Kind.Shows : Kind → Element → Prop
  | .void, x => x = .hidden
  | .pron, x => ∃ word, x = .pronoun word
  | k, x => ∃ e, x = .entry e ∧ k.Describes e.entity

namespace Kind

theorem shows_entry {k : Kind} {e : Entry} (h : k.Describes e.entity) : k.Shows (.entry e) := by
  cases k with
  | void => exact h.elim
  | pron => exact h.elim
  | _ => exact ⟨e, rfl, h⟩

theorem describes_of_shows {k : Kind} {x : Element} (hk : k.collection?.isSome = true)
    (h : k.Shows x) : ∃ e, x = .entry e ∧ k.Describes e.entity := by
  cases k with
  | void => simp [collection?] at hk
  | pron => simp [collection?] at hk
  | _ => exact h

theorem collection?_of_accepts {k : Kind} {e : Entity} (h : k.accepts e = true) :
    k.collection? = some e.collection := by
  unfold accepts at h
  split at h
  all_goals first | rfl | skip
  simp only [Bool.and_eq_true, decide_eq_true_eq] at h
  exact h.2

theorem accepts_of_collection {k : Kind} {e : Entity} (hk : k.detail?.isSome = false)
    (he : k.collection? = some e.collection) : k.accepts e = true := by
  cases k <;> cases e <;> simp_all [detail?, collection?, Entity.collection, accepts]

theorem describes_of_accepts {k : Kind} {e : Entity} (h : k.accepts e = true) :
    k.Describes e := by
  have hc := collection?_of_accepts h
  cases e with
  | location l =>
      cases l <;> cases k <;>
        simp_all [Describes, accepts, collection?, Entity.collection, Location.isBeacon,
          Location.isPlacement, Location.isRoom]
  | category | gesture | person | thing | question =>
      cases k <;> simp_all [Describes, accepts, collection?, Entity.collection]

theorem describes_of_collection {k : Kind} {e : Entity} (hk : k.options ≠ [])
    (hc : k.collection? = some e.collection) : k.Describes e := by
  cases k <;> cases e <;>
    simp_all [Describes, options, collection?, Entity.collection]

theorem room?_of_describes {k : Kind} {e : Entity} (hk : k = .beacon ∨ k = .placement)
    (h : k.Describes e) : ∃ r, e.room? = some r := by
  rcases hk with rfl | rfl <;>
  · obtain ⟨spot, rfl, _⟩ := h
    exact ⟨spot.room, rfl⟩

theorem category?_of_describes {k : Kind} {e : Entity} (hk : k.collection? = some .object)
    (h : k.Describes e) : ∃ c, e.category? = some c := by
  cases k <;> simp only [collection?, reduceCtorEq, Option.some.injEq] at hk
  · obtain ⟨t, rfl⟩ := h
    exact ⟨t.category, rfl⟩
  · obtain ⟨t, rfl, _⟩ := h
    exact ⟨t.category, rfl⟩
  · obtain ⟨t, rfl, _⟩ := h
    exact ⟨t.category, rfl⟩

end Kind

namespace Wildcard

/-- Of an entity a stand-in takes the room and the category, and nothing else. -/
theorem standIn?_congr (w : Wildcard) {a b : Entry} (hroom : a.entity.room? = b.entity.room?)
    (hcategory : a.entity.category? = b.entity.category?) :
    w.standIn? (.entry a) = w.standIn? (.entry b) := by
  unfold standIn?
  simp only [Option.bind_some, hroom, hcategory]

theorem standIn?_of_room {w : Wildcard} {n : Kind} {e : Entry} {r : Room} (hw : w.kind? = some n)
    (hn : n = .beacon ∨ n = .placement) (hr : e.entity.room? = some r) :
    w.standIn? (.entry e) = some (.coarser (.location (.room r))) := by
  unfold standIn?
  rcases hn with rfl | rfl <;>
  · rw [hw]
    change e.entity.room?.map _ = _
    rw [hr, Option.map_some]

theorem standIn?_of_category {w : Wildcard} {n : Kind} {e : Entry} {d : Category}
    (hw : w.kind? = some n) (hn : n = .object ∨ n = .aobject ∨ n = .kobject)
    (hd : e.entity.category? = some d) :
    w.standIn? (.entry e) = some (.coarser (.category d)) := by
  unfold standIn?
  rcases hn with rfl | rfl | rfl <;>
  · rw [hw]
    change e.entity.category?.map _ = _
    rw [hd, Option.map_some]

end Wildcard

namespace Session

theorem choose?_mem {α : Type} {items : List α} (h : items ≠ []) (d : Dice) :
    ∃ x ∈ items, (d.choose? items).1 = some x := by
  have hlength : 0 < items.length := List.length_pos_iff.mpr h
  have hbelow : (d.below items.length).1 < items.length := Dice.below_lt hlength d
  refine ⟨items[(d.below items.length).1], List.getElem_mem hbelow, ?_⟩
  exact List.getElem?_eq_getElem hbelow

theorem settle_mem_choices (w : Wildcard) (n : Kind) (dice : Dice) :
    (settle w n dice).1 ∈ w.choices n := by
  rw [Wildcard.mem_choices_iff]
  unfold settle
  by_cases hn : n.options = []
  · simp [hn]
  · rw [if_neg hn, if_neg (by simpa using hn)]
    cases w.type with
    | none =>
        obtain ⟨x, hx, hchoose⟩ := choose?_mem hn dice
        simp only [hchoose, Option.getD_some]
        exact hx
    | some type =>
        cases hq : Kind.ofQualifier? type with
        | none => simp [hq]
        | some q => simp [hq]

/-! ## Slots -/

/-- The slot holds a kind on which the wildcards of its key may settle, and what it describes. -/
def SoundSlot (slot : Slot) : Prop :=
  slot.kind.accepts slot.entry.entity = true ∧
    ∃ (w : Wildcard) (n : Kind) (c : Collection),
      w.Asks n c ∧ w.keycode = slot.key ∧ slot.kind ∈ w.choices n

def Sound (b : Books) : Prop := ∀ slot ∈ b.slots, SoundSlot slot

variable {c : Catalog} {tier : Tier} {first s : Session}

theorem accepts_of_pick? {w : Wildcard} {n kind : Kind} {k : Collection} {dice : Dice} {e : Entry}
    {rest : List Entry} (hb : Balanced first (stock c tier) s.books) (asks : w.Asks n k)
    (settled : settle w n s.dice = (kind, dice))
    (picked : pick? kind (s.pools.get k) = some (e, rest)) :
    kind ∈ w.choices n ∧ kind.accepts e.entity = true := by
  have hchoice : kind ∈ w.choices n := by
    have h := settle_mem_choices w n s.dice
    rw [settled] at h
    exact h
  refine ⟨hchoice, ?_⟩
  cases hdetail : kind.detail?.isSome with
  | true =>
      obtain ⟨_, _, _, _, hfit⟩ := pick?_eq_some picked
      rw [if_pos hdetail] at hfit
      exact hfit.1
  | false =>
      apply Kind.accepts_of_collection hdetail
      rw [Wildcard.collection?_of_mem_choices hchoice, asks.2,
        hb.collection_of_mem_pool (mem_of_pick? picked)]

theorem Sound.of_shared (hs : Sound s.books) {w : Wildcard} {n : Kind} {k : Collection}
    (asks : w.Asks n k) {slot : Slot} (found : sharedSlot? w s = some slot) :
    slot.kind ∈ w.choices n ∧ slot.kind.accepts slot.entry.entity = true := by
  obtain ⟨_, hslot⟩ := sharedSlot?_eq_some found
  obtain ⟨hmem, hkey⟩ := slot?_eq_some hslot
  obtain ⟨haccepts, v, m, d, hv, hvkey, hkind⟩ := hs slot hmem
  refine ⟨?_, haccepts⟩
  rw [Wildcard.choices_eq_of_keycode_eq asks.1 hv.1 (hkey.symm.trans hvkey.symm)]
  exact hkind

theorem Sound.afterResolve (hb : Balanced first (stock c tier) s.books) (hs : Sound s.books)
    (w : Wildcard) : Sound (resolve w s).session.books := by
  have hstep := step_resolve w s
  generalize resolve w s = r at hstep ⊢
  cases hstep with
  | quiet => exact hs
  | shared => exact hs
  | drew asks _ settled picked =>
      obtain ⟨hchoice, haccepts⟩ := accepts_of_pick? hb asks settled picked
      intro slot hmem
      rcases mem_slots_drawn.mp hmem with hmem | ⟨_, rfl⟩
      · exact hs slot hmem
      · exact ⟨haccepts, w, _, _, asks, rfl, hchoice⟩
  | short => exact hs

/-- Books in balance whose slots are sound. -/
structure Orderly (first : Session) (stock : Collection → List Entry) (b : Books) : Prop where
  balanced : Balanced first stock b
  sound : Sound b

theorem Orderly.afterResolve (h : Orderly first (stock c tier) s.books) (w : Wildcard) :
    Orderly first (stock c tier) (resolve w s).session.books :=
  ⟨h.balanced.afterResolve w, h.sound.afterResolve h.balanced w⟩

theorem orderly_after (c : Catalog) (dice : Dice) (tier : Tier) (calls : List Call) :
    Orderly (start c dice tier) (stock c tier) ((start c dice tier).after calls).books := by
  have hstart : Sound (start c dice tier).books := fun slot hslot => absurd hslot List.not_mem_nil
  obtain ⟨hbalanced, hsound⟩ :=
    balanced_and_after (fun w _ hb h => Sound.afterResolve hb h w) hstart calls
  exact ⟨hbalanced, hsound⟩

/-- A wildcard that gets an entry has settled on one of its choices, which accepts the entity. -/
theorem Orderly.kind_of_entry (h : Orderly first (stock c tier) s.books)
    {w : Wildcard} {n : Kind} {e : Entry} (hn : w.kind? = some n)
    (hresult : (resolve w s).result = .ok (some (.entry e))) :
    ∃ k ∈ w.choices n, (resolve w s).kind = some k ∧ k.accepts e.entity = true := by
  have hstep := step_resolve w s
  generalize resolve w s = r at hstep hresult ⊢
  cases hstep with
  | quiet _ plain =>
      obtain rfl := Except.ok.inj hresult
      cases plain
  | @shared l d slot asks found =>
      simp only [Except.ok.injEq, Option.some.injEq, Element.entry.injEq] at hresult
      subst hresult
      obtain rfl : n = l := Option.some.inj (hn.symm.trans asks.1)
      obtain ⟨hchoice, haccepts⟩ := h.sound.of_shared asks found
      exact ⟨slot.kind, hchoice, rfl, haccepts⟩
  | @drew l kind d dice e' rest asks _ settled picked =>
      simp only [Except.ok.injEq, Option.some.injEq, Element.entry.injEq] at hresult
      subst hresult
      obtain rfl : n = l := Option.some.inj (hn.symm.trans asks.1)
      obtain ⟨hchoice, haccepts⟩ := accepts_of_pick? h.balanced asks settled picked
      exact ⟨kind, hchoice, rfl, haccepts⟩
  | short => simp at hresult

theorem describes_of_mem_choices {w : Wildcard} {n k : Kind} {e : Entity}
    (hk : k ∈ w.choices n) (h : k.accepts e = true) : n.Describes e := by
  by_cases hn : n.options = []
  · rw [Wildcard.mem_choices_iff, if_pos hn] at hk
    rw [← hk]
    exact Kind.describes_of_accepts h
  · apply Kind.describes_of_collection hn
    rw [← Wildcard.collection?_of_mem_choices hk]
    exact Kind.collection?_of_accepts h

/-- Whatever a wildcard gets is what its name asks for, and what the kind it has settled on asks
for. -/
theorem Orderly.shows (h : Orderly first (stock c tier) s.books) {w : Wildcard} {x : Element}
    (hresult : (resolve w s).result = .ok (some x)) :
    ∃ n k, (w.kind? = some n ∨ w.name = [] ∧ n = .void) ∧ (resolve w s).kind = some k ∧
      k ∈ w.choices n ∧ n.Shows x ∧ k.Shows x := by
  rcases entry_or_plain hresult with ⟨n, _, e, asks, heq⟩ | plain
  · obtain rfl := Option.some.inj heq
    obtain ⟨k, hchoice, hkind, haccepts⟩ := h.kind_of_entry asks.1 hresult
    have hdescribes := describes_of_mem_choices hchoice haccepts
    exact ⟨n, k, .inl asks.1, hkind, hchoice, Kind.shows_entry hdescribes,
      Kind.shows_entry (Kind.describes_of_accepts haccepts)⟩
  · generalize (resolve w s).kind = kind at plain ⊢
    cases plain with
    | blank hkind =>
        refine ⟨.void, .void, ?_, rfl, Wildcard.mem_choices_iff.mpr rfl, rfl, rfl⟩
        rcases hkind with hname | hkind
        · exact .inr ⟨hname, rfl⟩
        · exact .inl hkind
    | pronoun hkind =>
        exact ⟨.pron, .pron, .inl hkind, rfl, Wildcard.mem_choices_iff.mpr rfl, ⟨_, rfl⟩, ⟨_, rfl⟩⟩

/-- Whatever a session was called for, what a wildcard gets is what its name asks for and what the
kind it has settled on asks for; its name and type determine that kind as far as they can. So a
stand-in finds the room or the category it shows. And kinds that different collections serve never
share a key. -/
theorem resolve_after_shows (c : Catalog) (dice : Dice) (tier : Tier) (calls : List Call) :
    let s := (start c dice tier).after calls
    (∀ (w : Wildcard) (x : Element), (resolve w s).result = .ok (some x) →
      ∃ n k, (w.kind? = some n ∨ w.name = [] ∧ n = .void) ∧ (resolve w s).kind = some k ∧
        n.Shows x ∧ k.Shows x ∧
        (if n.options = [] then k = n
          else match w.type with
            | none => k ∈ n.options
            | some type => match Kind.ofQualifier? type with
              | none => k = n
              | some q => k = if q ∈ n.options then q else n) ∧
        (n = .beacon ∨ n = .placement → ∃ e r, x = .entry e ∧ e.entity.room? = some r ∧
          w.standIn? x = some (.coarser (.location (.room r)))) ∧
        (n = .object ∨ n = .aobject ∨ n = .kobject → ∃ e d, x = .entry e ∧
          e.entity.category? = some d ∧ w.standIn? x = some (.coarser (.category d)))) ∧
      ∀ (w v : Wildcard) (n m : Kind) (a b : Collection), w.Asks n a → v.Asks m b → a ≠ b →
        w.keycode ≠ v.keycode := by
  refine ⟨?_, fun w v n m a b => Wildcard.keycode_ne_of_collection_ne⟩
  intro w x hresult
  obtain ⟨n, k, hname, hkind, hchoice, hn, hk⟩ := (orderly_after c dice tier calls).shows hresult
  refine ⟨n, k, hname, hkind, hn, hk, Wildcard.mem_choices_iff.mp hchoice, ?_, ?_⟩
  · intro hplace
    have hserved : n.collection?.isSome = true := by rcases hplace with rfl | rfl <;> rfl
    obtain ⟨e, rfl, hdescribes⟩ := Kind.describes_of_shows hserved hn
    obtain ⟨r, hr⟩ := Kind.room?_of_describes hplace hdescribes
    refine ⟨e, r, rfl, hr, ?_⟩
    rcases hname with hname | ⟨_, rfl⟩
    · exact Wildcard.standIn?_of_room hname hplace hr
    · simp at hplace
  · intro hthing
    have hobject : n.collection? = some .object := by
      rcases hthing with rfl | rfl | rfl <;> rfl
    obtain ⟨e, rfl, hdescribes⟩ := Kind.describes_of_shows (by rw [hobject]; rfl) hn
    obtain ⟨d, hd⟩ := Kind.category?_of_describes hobject hdescribes
    refine ⟨e, d, rfl, hd, ?_⟩
    rcases hname with hname | ⟨_, rfl⟩
    · exact Wildcard.standIn?_of_category hname hthing hd
    · simp at hthing

/-- A wildcard whose type is none of its choices shares the entry it has drawn before. -/
theorem resolve_after_shows_reused :
    let fruits : Category := { name := .text "fruits".toList, defaultLocation := .null }
    let pear : Thing :=
      { name := .text "pear".toList, category := fruits, familiarity := .unknown, tier := .easy }
    let c : Catalog :=
      { categories := [], gestures := [], locations := [], people := [], things := [pear]
        questions := [] }
    let w : Wildcard :=
      { source := "{object room?}".toList, index := 0, name := "object".toList
        type := some "room".toList, id := none, obfuscated := true, metadata := [] }
    let v : Wildcard := { w with name := "gesture".toList }
    let s := (start c ⟨0⟩ .easy).after [.resolve w]
    let x := Element.entry { position := 0, entity := .thing pear }
    ((resolve w s).result = .ok (some x) ∧ w.Asks .object .object ∧ v.Asks .gesture .gesture) ∧
      (resolve w s).kind = some .object ∧ Kind.object.Shows x ∧
      w.standIn? x = some (.coarser (.category fruits)) ∧ w.keycode ≠ v.keycode := by
  intro fruits pear c w v s x
  have hresult : (resolve w s).result = .ok (some x) := rfl
  have hw : w.Asks .object .object := ⟨rfl, rfl⟩
  have hv : v.Asks .gesture .gesture := ⟨rfl, rfl⟩
  obtain ⟨hshows, hkeys⟩ := resolve_after_shows c ⟨0⟩ .easy [.resolve w]
  obtain ⟨n, k, hname, hkind, hn, _, hchoice, _, hthing⟩ := hshows w x hresult
  obtain rfl : n = .object := by
    rcases hname with hname | ⟨hname, _⟩
    · exact Option.some.inj (hname.symm.trans hw.1)
    · exact absurd hname (by decide)
  obtain rfl : k = .object := hchoice
  obtain ⟨e, d, he, hd, hstandIn⟩ := hthing (.inl rfl)
  obtain rfl := Element.entry.inj he
  obtain rfl : fruits = d := Option.some.inj hd
  exact ⟨⟨hresult, hw, hv⟩, hkind, hn, hstandIn, hkeys w v _ _ _ _ hw hv (by decide)⟩

end Session

end Errand
