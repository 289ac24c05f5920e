import Errand.Proofs.Session.Accounting
import Errand.Proofs.Wildcard.Qualified

/-! # Draws from different pools

What a wildcard gets depends on one pool, on the slot of its key and on the seed, and it changes
nothing else that a session can give. Keys of kinds that different collections serve are different.
So two wildcards with different pools, neither of which takes a number, get the same in either order
and leave the session able to give the same.
-/

namespace Errand

theorem Pools.ext_get {p q : Pools} (h : ∀ c, p.get c = q.get c) : p = q := by
  cases p
  cases q
  simp only [Pools.mk.injEq]
  exact ⟨h .category, h .gesture, h .location, h .name, h .object, h .question⟩

namespace Session

/-- What a wildcard of this pool and this key looks at. -/
structure Reach where
  pool : List Entry
  slot : Option Slot
  dice : Dice

def reach (s : Session) (c : Collection) (key : Text) : Reach :=
  { pool := s.pools.get c, slot := s.slot? key, dice := s.dice }

variable {w v : Wildcard} {n m : Kind} {c d : Collection} {s t : Session}

theorem resolve_eq_serve (asks : w.Asks n c) (s : Session) : resolve w s = serve w n c s := by
  have hname : w.name.isEmpty = false := by
    rw [Bool.eq_false_iff]
    intro hempty
    have hunknown := Wildcard.kind?_of_blank (List.isEmpty_iff.mp hempty)
    exact Wildcard.not_asks_of_unknown hunknown n c asks
  unfold resolve
  rw [hname, asks.1]
  simp only [asks.2]
  rfl

/-! ## What changes -/

theorem get_pools_resolve (asks : w.Asks n c) (hd : d ≠ c) (s : Session) :
    (resolve w s).session.pools.get d = s.pools.get d := by
  rcases resolve_of_asks asks s with ⟨_, _, hr⟩ | ⟨_, _, _, _, ⟨_, _, _, hr⟩ | ⟨_, hr⟩⟩
  · rw [hr]
    rfl
  · rw [hr, get_pools_drawn, if_neg hd]
  · rw [hr]

theorem slot?_resolve (asks : w.Asks n c) {key : Text} (hkey : key ≠ w.keycode) (s : Session) :
    (resolve w s).session.slot? key = s.slot? key := by
  rcases resolve_of_asks asks s with ⟨_, _, hr⟩ | ⟨_, _, _, _, ⟨_, _, _, hr⟩ | ⟨_, hr⟩⟩
  · rw [hr]
    rfl
  · rw [hr, slot?_drawn, if_neg fun h => hkey h.2.symm, Option.or_none]
  · rw [hr]
    rfl

/-! ## What is looked at -/

theorem reach_drawn (w : Wildcard) (kind : Kind) (c : Collection) (dice : Dice) (e : Entry)
    (rest : List Entry) (s : Session) (key : Text) :
    (s.drawn w kind c dice e rest).reach c key =
      { pool := rest
        slot := (s.slot? key).or (if w.isInstance = false ∧ w.keycode = key then
          some { key := w.keycode, entry := e, kind } else none)
        dice } := by
  rw [reach, get_pools_drawn, if_pos rfl, slot?_drawn, dice_drawn]

/-- What a wildcard gets, and what it leaves in its reach, depends on nothing outside of it. -/
theorem resolve_of_reach (asks : w.Asks n c) (h : s.reach c w.keycode = t.reach c w.keycode) :
    (resolve w s).kind = (resolve w t).kind ∧ (resolve w s).result = (resolve w t).result ∧
      (resolve w s).session.reach c w.keycode = (resolve w t).session.reach c w.keycode := by
  have hpool : s.pools.get c = t.pools.get c := congrArg Reach.pool h
  have hslot : s.slot? w.keycode = t.slot? w.keycode := congrArg Reach.slot h
  have hdice : s.dice = t.dice := congrArg Reach.dice h
  have hshared : sharedSlot? w s = sharedSlot? w t := by
    unfold sharedSlot?
    rw [hslot]
  rw [resolve_eq_serve asks, resolve_eq_serve asks]
  unfold serve
  rw [hshared]
  cases sharedSlot? w t with
  | some slot => exact ⟨rfl, rfl, h⟩
  | none =>
      simp only [drawFresh, draw, hdice]
      rcases settle w n t.dice with ⟨kind, dice⟩
      dsimp only
      rw [hpool]
      cases pick? kind (t.pools.get c) with
      | none =>
          refine ⟨rfl, rfl, ?_⟩
          change Reach.mk (s.pools.get c) (s.slot? w.keycode) dice =
            Reach.mk (t.pools.get c) (t.slot? w.keycode) dice
          rw [hpool, hslot]
      | some taken =>
          obtain ⟨e, rest⟩ := taken
          refine ⟨rfl, rfl, ?_⟩
          change (s.drawn w kind c dice e rest).reach c w.keycode =
            (t.drawn w kind c dice e rest).reach c w.keycode
          rw [reach_drawn, reach_drawn, hslot]

/-! ## Either order -/

/-- Every slot is kept for the key of a wildcard that shares its entry. -/
def Kept (b : Books) : Prop :=
  ∀ slot ∈ b.slots, ∃ (w : Wildcard) (k : Kind),
    w.kind? = some k ∧ w.isInstance = false ∧ w.keycode = slot.key

theorem Kept.afterResolve (w : Wildcard) (s : Session) (h : Kept s.books) :
    Kept (resolve w s).session.books := by
  have hstep := step_resolve w s
  generalize resolve w s = r at hstep ⊢
  cases hstep with
  | quiet => exact h
  | shared => exact h
  | drew asks =>
      intro slot hmem
      rcases mem_slots_drawn.mp hmem with hmem | ⟨hw, rfl⟩
      · exact h slot hmem
      · exact ⟨w, _, asks.1, hw, rfl⟩
  | short => exact h

theorem kept_after (c : Catalog) (dice : Dice) (tier : Tier) (calls : List Call) :
    Kept ((start c dice tier).after calls).books :=
  keep_after Kept.afterResolve (fun _ hslot => absurd hslot List.not_mem_nil) calls

theorem Kept.isInstance (h : Kept s.books) (hw : w.kind? = some n) (bare : w.type = none)
    {slot : Slot} (found : s.slot? w.keycode = some slot) : w.isInstance = false := by
  obtain ⟨hmem, hkey⟩ := slot?_eq_some found
  obtain ⟨v, k, hv, hshares, hkeycode⟩ := h slot hmem
  rcases Wildcard.same_or_blurs_of_keycode_eq hw hv (hkey.symm.trans hkeycode.symm) with
    ⟨_, hid⟩ | ⟨_, _, _, hpair, _⟩
  · unfold Wildcard.isInstance at hshares ⊢
    rw [hid]
    exact hshares
  · -- Without a type a wildcard asks for its kind and nothing beside it.
    simp [Wildcard.qualified, bare] at hpair

/-- The key of the wildcard has a slot, or the wildcard has a type, or its kind settles on no
narrower one. -/
def Predetermined (w : Wildcard) (n : Kind) (s : Session) : Prop :=
  (s.slot? w.keycode).isSome = true ∨ w.type.isSome = true ∨
    n ≠ .name ∧ n ≠ .location ∧ n ≠ .object

theorem Kept.dice_resolve (h : Kept s.books) (hw : w.kind? = some n) (hs : Predetermined w n s) :
    (resolve w s).session.dice = s.dice := by
  have hnone : (Moment.mk w s).takesNumber = false := by
    unfold Moment.takesNumber
    rw [hw]
    rcases hs with hslot | htype | ⟨hname, hlocation, hobject⟩
    · obtain ⟨slot, found⟩ := Option.isSome_iff_exists.mp hslot
      cases htype : w.type with
      | none => simp [found, h.isInstance hw htype found]
      | some type => simp
    · simp [Option.isNone_iff_eq_none, Option.isSome_iff_ne_none.mp htype]
    · cases n <;> simp_all [Kind.isGeneral]
  rw [Session.dice_resolve, hnone]
  simp

/-- A wildcard leaves what another with a different pool looks at. -/
theorem reach_resolve (hw : w.Asks n c) (hv : v.Asks m d) (hne : c ≠ d)
    (hdice : (resolve w s).session.dice = s.dice) :
    (resolve w s).session.reach d v.keycode = s.reach d v.keycode := by
  have hkey := Wildcard.keycode_ne_of_collection_ne hw hv hne
  rw [reach, get_pools_resolve hw hne.symm, slot?_resolve hw hkey.symm, hdice]
  rfl

theorem resolve_swap (hw : w.Asks n c) (hv : v.Asks m d) (apart : c ≠ d)
    (hwdice : (resolve w s).session.dice = s.dice) (hvdice : (resolve v s).session.dice = s.dice) :
    let r := resolve w s
    let q := resolve v s
    let later := resolve v r.session
    let sooner := resolve w q.session
    (sooner.kind = r.kind ∧ sooner.result = r.result) ∧
      (later.kind = q.kind ∧ later.result = q.result) ∧
      later.session.pools = sooner.session.pools ∧
      (∀ key, later.session.slot? key = sooner.session.slot? key) ∧
      later.session.dice = sooner.session.dice := by
  intro r q later sooner
  have hkey := Wildcard.keycode_ne_of_collection_ne hw hv apart
  obtain ⟨hwkind, hwresult, hwreach⟩ := resolve_of_reach hw (reach_resolve hv hw apart.symm hvdice)
  obtain ⟨hvkind, hvresult, hvreach⟩ := resolve_of_reach hv (reach_resolve hw hv apart hwdice)
  refine ⟨⟨hwkind, hwresult⟩, ⟨hvkind, hvresult⟩, Pools.ext_get fun e => ?_, fun key => ?_, ?_⟩
  · by_cases he : e = c
    · subst he
      rw [get_pools_resolve hv apart]
      exact (congrArg Reach.pool hwreach).symm
    · rw [get_pools_resolve hw he]
      by_cases he' : e = d
      · subst he'
        exact congrArg Reach.pool hvreach
      · rw [get_pools_resolve hv he', get_pools_resolve hw he, get_pools_resolve hv he']
  · by_cases he : key = w.keycode
    · subst he
      rw [slot?_resolve hv hkey]
      exact (congrArg Reach.slot hwreach).symm
    · rw [slot?_resolve hw he]
      by_cases he' : key = v.keycode
      · subst he'
        exact congrArg Reach.slot hvreach
      · rw [slot?_resolve hv he', slot?_resolve hw he, slot?_resolve hv he']
  · calc later.session.dice = q.session.dice := congrArg Reach.dice hvreach
      _ = s.dice := hvdice
      _ = r.session.dice := hwdice.symm
      _ = sooner.session.dice := (congrArg Reach.dice hwreach).symm

/-- Two wildcards with different pools, neither of which takes a number, get the same in either
order, or find nothing in either order; and the pools, the slots and the seed are the same
afterwards. -/
theorem resolve_commutes (c : Catalog) (dice : Dice) (tier : Tier) (calls : List Call)
    (w v : Wildcard) (n m : Kind) (a b : Collection) (hw : w.Asks n a) (hv : v.Asks m b)
    (apart : a ≠ b) (hws : Predetermined w n ((start c dice tier).after calls))
    (hvs : Predetermined v m ((start c dice tier).after calls)) :
    let s := (start c dice tier).after calls
    let r := resolve w s
    let q := resolve v s
    let later := resolve v r.session
    let sooner := resolve w q.session
    (sooner.kind = r.kind ∧ sooner.result = r.result) ∧
      (later.kind = q.kind ∧ later.result = q.result) ∧
      later.session.pools = sooner.session.pools ∧
      (∀ key, later.session.slot? key = sooner.session.slot? key) ∧
      later.session.dice = sooner.session.dice := by
  have hkept := kept_after c dice tier calls
  exact resolve_swap hw hv apart (hkept.dice_resolve hw.1 hws) (hkept.dice_resolve hv.1 hvs)

/-- A man is asked for where only a woman is left, and a gesture before or after that. -/
theorem resolve_commutes_male :
    let w : Wildcard :=
      { source := "{name male}".toList, index := 0, name := "name".toList
        type := some "male".toList, id := none, obfuscated := false, metadata := [] }
    let v : Wildcard :=
      { w with source := "{gesture}".toList, name := "gesture".toList, type := none }
    let ann : Person := { name := .text "Ann".toList, gender := .female }
    let waving : Gesture := { name := .text "waving".toList, tier := .easy }
    let s := start { Catalog.empty with people := [ann], gestures := [waving] } ⟨0⟩ .easy
    let later := resolve v (resolve w s).session
    let sooner := resolve w (resolve v s).session
    (w.Asks .name .name ∧ v.Asks .gesture .gesture ∧ Predetermined w .name s ∧
      Predetermined v .gesture s) ∧
      sooner.result = .error { pool := "name".toList, detail := "male".toList } ∧
      later.result = .ok (some (.entry ⟨0, .gesture waving⟩)) ∧
      later.session.pools = sooner.session.pools ∧ later.session.dice = sooner.session.dice := by
  intro w v ann waving s later sooner
  have hw : w.Asks .name .name := ⟨rfl, rfl⟩
  have hv : v.Asks .gesture .gesture := ⟨rfl, rfl⟩
  have hws : Predetermined w .name s := .inr (.inl rfl)
  have hvs : Predetermined v .gesture s := .inr (.inr ⟨by decide, by decide, by decide⟩)
  obtain ⟨⟨_, hsooner⟩, ⟨_, hlater⟩, hpools, _, hdice⟩ := resolve_commutes
    { Catalog.empty with people := [ann], gestures := [waving] } ⟨0⟩ .easy [] w v _ _ _ _ hw hv
    (by decide) hws hvs
  exact ⟨⟨hw, hv, hws, hvs⟩, hsooner, hlater, hpools, hdice⟩

end Session

end Errand
