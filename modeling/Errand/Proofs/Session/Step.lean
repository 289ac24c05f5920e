import Errand.Proofs.Wildcard.Keycode
import Errand.Session.Resolve

/-! # Resolving one wildcard

A resolution takes one of four ways: nothing is asked of the pools, the entry of a key is shared,
an entry is drawn, or the pool has none to give. `Step` says for each way what becomes of the
session, so that an invariant is proved once for each of them. Only the books of a session decide
what a wildcard that asks for an entry gets, and only they change.
-/

namespace Errand

structure Serving where
  wildcard : Wildcard
  kind : Kind
  entry : Entry

def Event.serving? : Event → Option Serving
  | .drew w kind _ e _ => some ⟨w, kind, e⟩
  | .reused w kind e => some ⟨w, kind, e⟩
  | .nestedTooDeep _ => none

namespace Session

/-- All wildcards of a session that got an entry, in the order in which they were resolved. -/
def servings (s : Session) : List Serving := s.journal.filterMap Event.serving?

/-- What a session still holds, what it keeps for its keys, the seed it has come to, and what it has
handed to wildcards. The rest of a session is about the text at work. -/
structure Books where
  pools : Pools
  slots : List Slot
  dice : Dice
  servings : List Serving

def books (s : Session) : Books :=
  { pools := s.pools, slots := s.slots, dice := s.dice, servings := s.servings }

theorem servings_record (s : Session) (e : Event) :
    (s.record e).servings = s.servings ++ e.serving?.toList := by
  cases h : e.serving? <;> simp [servings, record, h]

@[simp] theorem books_record_nestedTooDeep (s : Session) (t : Text) :
    (s.record (.nestedTooDeep t)).books = s.books := by
  have h : (s.record (.nestedTooDeep t)).servings = s.servings := by
    simp [servings_record, Event.serving?]
  simp only [books, h]
  rfl

theorem books_record_reused (s : Session) (w : Wildcard) (kind : Kind) (e : Entry) :
    (s.record (.reused w kind e)).books =
      { s.books with servings := s.servings ++ [⟨w, kind, e⟩] } := by
  simp only [books, servings_record]
  rfl

/-! ## The slot of a key -/

theorem slot?_eq_some {s : Session} {key : Text} {slot : Slot} (h : s.slot? key = some slot) :
    slot ∈ s.slots ∧ slot.key = key := by
  refine ⟨List.mem_of_find?_eq_some h, ?_⟩
  simpa using List.find?_some h

theorem slot?_eq_none {s : Session} {key : Text} (h : s.slot? key = none) :
    ∀ slot ∈ s.slots, slot.key ≠ key := by
  intro slot hmem
  simpa using List.find?_eq_none.mp h slot hmem

theorem sharedSlot?_eq_some {w : Wildcard} {s : Session} {slot : Slot}
    (h : sharedSlot? w s = some slot) : w.isInstance = false ∧ s.slot? w.keycode = some slot := by
  unfold sharedSlot? at h
  cases hw : w.isInstance with
  | true => simp [hw] at h
  | false => simpa [hw] using h

theorem sharedSlot?_eq_none {w : Wildcard} {s : Session} :
    sharedSlot? w s = none ↔ w.isInstance = true ∨ s.slot? w.keycode = none := by
  unfold sharedSlot?
  cases w.isInstance <;> simp

/-! ## Taking an entry out of a pool -/

/-- A narrow kind takes the first entry that fits it, any other kind the last one. -/
theorem pick?_eq_some {k : Kind} {pool rest : List Entry} {e : Entry}
    (h : pick? k pool = some (e, rest)) :
    ∃ before after, pool = before ++ e :: after ∧ rest = before ++ after ∧
      if k.detail?.isSome then
        k.accepts e.entity = true ∧ ∀ x ∈ before, k.accepts x.entity = false
      else after = [] := by
  unfold pick? at h
  by_cases hk : k.detail?.isSome = true
  · rw [if_pos hk] at h
    obtain ⟨hfit, before, after, hpool, hrest, hbefore⟩ := Pool.takeFirst?_eq_some h
    refine ⟨before, after, hpool, hrest, ?_⟩
    rw [if_pos hk]
    exact ⟨hfit, hbefore⟩
  · rw [if_neg hk] at h
    have hpool := Pool.takeLast?_eq_some h
    refine ⟨rest, [], hpool, by simp, ?_⟩
    rw [if_neg hk]

theorem pick?_eq_none {k : Kind} {pool : List Entry} (h : pick? k pool = none) :
    ∀ e ∈ pool, k.accepts e.entity = false := by
  unfold pick? at h
  split at h
  · exact Pool.takeFirst?_eq_none.mp h
  · rw [Pool.takeLast?_eq_none.mp h]
    exact fun e he => absurd he List.not_mem_nil

theorem perm_of_pick? {k : Kind} {pool rest : List Entry} {e : Entry}
    (h : pick? k pool = some (e, rest)) : pool.Perm (e :: rest) := by
  obtain ⟨before, after, hpool, hrest, _⟩ := pick?_eq_some h
  rw [hpool, hrest]
  exact List.perm_middle

theorem sublist_of_pick? {k : Kind} {pool rest : List Entry} {e : Entry}
    (h : pick? k pool = some (e, rest)) : rest.Sublist pool := by
  obtain ⟨before, after, hpool, hrest, _⟩ := pick?_eq_some h
  rw [hpool, hrest]
  exact List.Sublist.append_left (List.sublist_cons_self e after) before

theorem mem_of_pick? {k : Kind} {pool rest : List Entry} {e : Entry}
    (h : pick? k pool = some (e, rest)) : e ∈ pool :=
  (perm_of_pick? h).mem_iff.mpr List.mem_cons_self

/-! ## The four ways of a resolution -/

def drawn (w : Wildcard) (kind : Kind) (c : Collection) (dice : Dice) (e : Entry)
    (rest : List Entry) (s : Session) : Session :=
  keep w e kind
    (({ s with dice, pools := s.pools.set rest c } : Session).record
      (.drew w kind c e rest.length))

theorem servings_drawn (w : Wildcard) (kind : Kind) (c : Collection) (dice : Dice) (e : Entry)
    (rest : List Entry) (s : Session) :
    (s.drawn w kind c dice e rest).servings = s.servings ++ [⟨w, kind, e⟩] := by
  unfold drawn keep
  split <;> exact servings_record _ _

theorem slots_drawn (w : Wildcard) (kind : Kind) (c : Collection) (dice : Dice) (e : Entry)
    (rest : List Entry) (s : Session) :
    (s.drawn w kind c dice e rest).slots =
      s.slots ++ if w.isInstance then [] else [{ key := w.keycode, entry := e, kind }] := by
  unfold drawn keep
  cases w.isInstance <;> simp [record]

theorem dice_drawn (w : Wildcard) (kind : Kind) (c : Collection) (dice : Dice) (e : Entry)
    (rest : List Entry) (s : Session) : (s.drawn w kind c dice e rest).dice = dice := by
  unfold drawn keep
  cases w.isInstance <;> rfl

theorem mem_slots_drawn {w : Wildcard} {kind : Kind} {c : Collection} {dice : Dice} {e : Entry}
    {rest : List Entry} {s : Session} {slot : Slot} :
    slot ∈ (s.drawn w kind c dice e rest).slots ↔
      slot ∈ s.slots ∨ w.isInstance = false ∧ slot = { key := w.keycode, entry := e, kind } := by
  rw [slots_drawn]
  cases w.isInstance <;> simp

theorem slot?_drawn (w : Wildcard) (kind : Kind) (c : Collection) (dice : Dice) (e : Entry)
    (rest : List Entry) (s : Session) (key : Text) :
    (s.drawn w kind c dice e rest).slot? key =
      (s.slot? key).or (if w.isInstance = false ∧ w.keycode = key then
        some { key := w.keycode, entry := e, kind } else none) := by
  unfold slot?
  rw [slots_drawn, List.find?_append]
  cases w.isInstance with
  | true => simp
  | false => by_cases hkey : w.keycode = key <;> simp [hkey]

theorem books_drawn (w : Wildcard) (kind : Kind) (c : Collection) (dice : Dice) (e : Entry)
    (rest : List Entry) (s : Session) :
    (s.drawn w kind c dice e rest).books =
      { pools := s.pools.set rest c
        slots := s.slots ++ if w.isInstance then [] else [{ key := w.keycode, entry := e, kind }]
        dice
        servings := s.servings ++ [⟨w, kind, e⟩] } := by
  simp only [books, servings_drawn, slots_drawn]
  unfold drawn keep
  cases w.isInstance <;> rfl

/-- What becomes of a wildcard that asks nothing of the pools. -/
inductive Plain (w : Wildcard) (s : Session) : Option Kind → Option Element → Prop
  | unknown (hkind : w.kind? = none) : Plain w s none none
  | blank (hkind : w.name = [] ∨ w.kind? = some .void) : Plain w s (some .void) (some .hidden)
  | pronoun (hkind : w.kind? = some .pron) :
      Plain w s (some .pron) (some (.pronoun s.pronoun))

/-- What becomes of a wildcard and of the session that resolves it. -/
inductive Step (w : Wildcard) (s : Session) : Resolution → Prop
  /-- Nothing is asked of the pools. -/
  | quiet {kind : Option Kind} {element : Option Element}
      (asksNothing : ∀ k c, ¬ w.Asks k c)
      (plain : Plain w s kind element) :
      Step w s { kind, result := .ok element, session := s }
  /-- The entry of the wildcard's key is shared. -/
  | shared {k : Kind} {c : Collection} {slot : Slot}
      (asks : w.Asks k c) (found : sharedSlot? w s = some slot) :
      Step w s
        { kind := some slot.kind, result := .ok (some (.entry slot.entry))
          session := s.record (.reused w slot.kind slot.entry) }
  /-- An entry is drawn, and kept unless the wildcard shares it with no other. -/
  | drew {k kind : Kind} {c : Collection} {dice : Dice} {e : Entry} {rest : List Entry}
      (asks : w.Asks k c) (absent : sharedSlot? w s = none)
      (settled : settle w k s.dice = (kind, dice))
      (picked : pick? kind (s.pools.get c) = some (e, rest)) :
      Step w s
        { kind := some kind, result := .ok (some (.entry e))
          session := s.drawn w kind c dice e rest }
  /-- The pool has nothing that fits; only a draw of the kind may have been made. -/
  | short {k kind : Kind} {c : Collection} {dice : Dice}
      (asks : w.Asks k c) (absent : sharedSlot? w s = none)
      (settled : settle w k s.dice = (kind, dice))
      (nothing : pick? kind (s.pools.get c) = none) :
      Step w s
        { kind := some kind
          result := .error { pool := c.label, detail := kind.detail?.getD [] }
          session := { s with dice } }

theorem step_serve {w : Wildcard} {k : Kind} {c : Collection} (asks : w.Asks k c) (s : Session) :
    Step w s (serve w k c s) := by
  unfold serve
  cases found : sharedSlot? w s with
  | some slot => exact .shared asks found
  | none =>
      cases settled : settle w k s.dice with
      | mk kind dice =>
          simp only [drawFresh, settled, draw]
          cases picked : pick? kind (s.pools.get c) with
          | none => exact .short asks found settled picked
          | some taken =>
              obtain ⟨e, rest⟩ := taken
              exact .drew asks found settled picked

/-- Every resolution takes one of the four ways. -/
theorem step_resolve (w : Wildcard) (s : Session) : Step w s (resolve w s) := by
  unfold resolve
  by_cases hname : w.name.isEmpty = true
  · rw [if_pos hname]
    have hblank : w.name = [] := List.isEmpty_iff.mp hname
    exact .quiet (Wildcard.not_asks_of_unknown (Wildcard.kind?_of_blank hblank))
      (.blank (.inl hblank))
  · rw [if_neg hname]
    cases hkind : w.kind? with
    | none => exact .quiet (Wildcard.not_asks_of_unknown hkind) (.unknown hkind)
    | some k =>
        cases hc : k.collection? with
        | some c =>
            simp only [hc]
            exact step_serve ⟨hkind, hc⟩ s
        | none =>
            simp only [hc]
            refine .quiet (Wildcard.not_asks_of_unserved hkind hc) ?_
            cases k with
            | void => exact .blank (.inr hkind)
            | pron => exact .pronoun hkind
            | _ => simp [Kind.collection?] at hc

theorem mem_of_result {w : Wildcard} {s : Session} {e : Entry}
    (h : (resolve w s).result = .ok (some (.entry e))) :
    (∃ slot ∈ s.slots, slot.entry = e) ∨ ∃ k, e ∈ s.pools.get k := by
  have hstep := step_resolve w s
  generalize resolve w s = r at hstep h
  cases hstep with
  | quiet _ plain =>
      obtain rfl := Except.ok.inj h
      cases plain
  | @shared _ _ slot _ found =>
      simp only [Except.ok.injEq, Option.some.injEq, Element.entry.injEq] at h
      obtain ⟨_, hslot⟩ := sharedSlot?_eq_some found
      exact .inl ⟨slot, (slot?_eq_some hslot).1, h⟩
  | drew _ _ _ picked =>
      simp only [Except.ok.injEq, Option.some.injEq, Element.entry.injEq] at h
      rw [← h]
      exact .inr ⟨_, mem_of_pick? picked⟩
  | short => simp at h

/-- Whatever a wildcard gets is an entry that it asks for, or comes from nowhere. -/
theorem entry_or_plain {w : Wildcard} {s : Session} {element : Option Element}
    (h : (resolve w s).result = .ok element) :
    (∃ n c e, w.Asks n c ∧ element = some (.entry e)) ∨ Plain w s (resolve w s).kind element := by
  have hstep := step_resolve w s
  generalize resolve w s = r at hstep h ⊢
  cases hstep with
  | quiet _ plain =>
      obtain rfl := Except.ok.inj h
      exact .inr plain
  | shared asks => exact .inl ⟨_, _, _, asks, (Except.ok.inj h).symm⟩
  | drew asks => exact .inl ⟨_, _, _, asks, (Except.ok.inj h).symm⟩
  | short => simp at h

end Session

end Errand
