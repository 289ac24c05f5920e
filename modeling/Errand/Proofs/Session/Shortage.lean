import Errand.Proofs.Session.Soundness

/-! # Draws that find nothing

A wildcard that asks for an entry gets none exactly if it shares no slot and its pool has nothing for
the kind that it has settled on. Then everything stays as it was, but for the number that a general
kind without a type takes to settle. A draw that finds something takes one entry out of one pool.

A general kind without a type settles before its pool is looked at. So it may find nothing although
an entry is left that another of its choices would take.
-/

namespace Errand

namespace Kind

/-- The pool has nothing for the kind: a narrow kind finds no entry that fits it, any other kind finds
no entry at all. -/
def Lacks (k : Kind) (pool : List Entry) : Prop :=
  if k.detail?.isSome then ∀ e ∈ pool, k.accepts e.entity = false else pool = []

/-- The kind takes an entry out of the pool: a narrow kind the first that fits it, any other kind the
last. The others keep their order. -/
def Takes (k : Kind) (pool : List Entry) (e : Entry) (rest : List Entry) : Prop :=
  ∃ before after, pool = before ++ e :: after ∧ rest = before ++ after ∧
    if k.detail?.isSome then
      k.accepts e.entity = true ∧ ∀ x ∈ before, k.accepts x.entity = false
    else after = []

theorem options_ne_nil_iff {k : Kind} : k.options ≠ [] ↔ k = .name ∨ k = .location ∨ k = .object := by
  cases k <;> simp [options]

theorem detail?_of_mem_options {k l : Kind} (h : l ∈ k.options) : l.detail?.isSome = true := by
  cases k <;> cases l <;> first | rfl | exact absurd h (by decide)

theorem lacks_of_mem_options {k l : Kind} {pool : List Entry} (h : l ∈ k.options) :
    l.Lacks pool ↔ ∀ e ∈ pool, l.accepts e.entity = false := by
  unfold Lacks
  rw [if_pos (detail?_of_mem_options h)]

end Kind

namespace Session

theorem pick?_eq_none_iff {k : Kind} {pool : List Entry} : pick? k pool = none ↔ k.Lacks pool := by
  unfold pick? Kind.Lacks
  by_cases hk : k.detail?.isSome = true
  · rw [if_pos hk, if_pos hk]
    exact Pool.takeFirst?_eq_none
  · rw [if_neg hk, if_neg hk]
    exact Pool.takeLast?_eq_none

theorem takes_of_pick? {k : Kind} {pool rest : List Entry} {e : Entry}
    (h : pick? k pool = some (e, rest)) : k.Takes pool e rest := pick?_eq_some h

/-! ## Settling -/

variable {w : Wildcard} {n : Kind} {c : Collection}

theorem settle_of_bare (bare : w.type = none) (general : n.options ≠ []) (dice : Dice) :
    ∃ k ∈ n.options, (dice.choose? n.options).1 = some k ∧ settle w n dice = (k, dice.next) := by
  obtain ⟨k, hk, hchoose⟩ := choose?_mem general dice
  refine ⟨k, hk, hchoose, ?_⟩
  unfold settle
  rw [if_neg (by simpa using general), bare]
  simp only [hchoose, Option.getD_some]
  rfl

/-- Settling takes a number for a general kind without a type, and for no other. -/
theorem dice_of_settle (w : Wildcard) (n : Kind) (dice : Dice) :
    (settle w n dice).2 = ⟨dice.seed + if w.type = none ∧ n.options ≠ [] then 1 else 0⟩ := by
  by_cases general : n.options ≠ []
  · cases htype : w.type with
    | none =>
        obtain ⟨k, _, _, hsettle⟩ := settle_of_bare htype general dice
        rw [hsettle, if_pos ⟨rfl, general⟩]
        rfl
    | some type =>
        rw [if_neg (by simp), Int.add_zero]
        unfold settle
        rw [if_neg (by simpa using general), htype]
        cases hq : Kind.ofQualifier? type <;> simp [hq]
  · rw [if_neg fun h => general h.2, Int.add_zero]
    unfold settle
    rw [if_pos (by simpa using general)]

/-! ## The ways of a draw -/

/-- A wildcard that asks for an entry shares a slot, or settles on a kind and then gets an entry or
finds none. -/
theorem resolve_of_asks (asks : w.Asks n c) (s : Session) :
    (∃ slot, sharedSlot? w s = some slot ∧
      resolve w s =
        { kind := some slot.kind, result := .ok (some (.entry slot.entry))
          session := s.record (.reused w slot.kind slot.entry) }) ∨
    sharedSlot? w s = none ∧ ∃ kind dice, settle w n s.dice = (kind, dice) ∧
      ((∃ e rest, pick? kind (s.pools.get c) = some (e, rest) ∧
        resolve w s =
          { kind := some kind, result := .ok (some (.entry e))
            session := s.drawn w kind c dice e rest }) ∨
      pick? kind (s.pools.get c) = none ∧
        resolve w s =
          { kind := some kind
            result := .error { pool := c.label, detail := kind.detail?.getD [] }
            session := { s with dice } }) := by
  have hstep := step_resolve w s
  generalize resolve w s = r at hstep ⊢
  cases hstep with
  | quiet asksNothing => exact absurd asks (asksNothing n c)
  | shared _ found => exact .inl ⟨_, found, rfl⟩
  | drew asks' absent settled picked =>
      obtain rfl := Option.some.inj (asks.1.symm.trans asks'.1)
      obtain rfl := Option.some.inj (asks.2.symm.trans asks'.2)
      exact .inr ⟨absent, _, _, settled, .inl ⟨_, _, picked, rfl⟩⟩
  | short asks' absent settled nothing =>
      obtain rfl := Option.some.inj (asks.1.symm.trans asks'.1)
      obtain rfl := Option.some.inj (asks.2.symm.trans asks'.2)
      exact .inr ⟨absent, _, _, settled, .inr ⟨nothing, rfl⟩⟩

theorem get_pools_drawn (w : Wildcard) (kind : Kind) (c : Collection) (dice : Dice) (e : Entry)
    (rest : List Entry) (s : Session) (d : Collection) :
    (s.drawn w kind c dice e rest).pools.get d = if d = c then rest else s.pools.get d := by
  have hpools : (s.drawn w kind c dice e rest).pools = s.pools.set rest c :=
    congrArg Books.pools (books_drawn w kind c dice e rest s)
  rw [hpools]
  by_cases hd : d = c
  · rw [if_pos hd, hd, Pools.get_set_self]
  · rw [if_neg hd, Pools.get_set_of_ne _ _ hd]

/-- A wildcard that asks for an entry gets none exactly if it shares no slot and its pool has nothing
for the kind that it has settled on. Then pools and slots stay as they were, and the seed goes on by
one for a name, a location or an object without a type. A wildcard that shares a slot changes none of
them. Any other gets an entry that leaves the pool, and no other pool changes. -/
theorem resolve_fails_iff (w : Wildcard) (n : Kind) (c : Collection) (asks : w.Asks n c)
    (s : Session) :
    let r := resolve w s
    let unshared := w.isInstance = true ∨ s.slot? w.keycode = none
    ∃ k, r.kind = some k ∧
      ((∃ e, r.result = .error e) ↔ unshared ∧ k.Lacks (s.pools.get c)) ∧
      (∀ e, r.result = .error e →
        e = { pool := c.label, detail := k.detail?.getD [] } ∧
        r.session = { s with
          dice := ⟨s.dice.seed +
            if w.type = none ∧ (n = .name ∨ n = .location ∨ n = .object) then 1 else 0⟩ }) ∧
      (¬ unshared → ∃ slot, s.slot? w.keycode = some slot ∧ k = slot.kind ∧
        r.result = .ok (some (.entry slot.entry)) ∧
        r.session.pools = s.pools ∧ r.session.slots = s.slots ∧ r.session.dice = s.dice) ∧
      ∀ x, r.result = .ok x → unshared →
        ∃ e rest, x = some (.entry e) ∧ k.Takes (s.pools.get c) e rest ∧
          ∀ d, r.session.pools.get d = if d = c then rest else s.pools.get d := by
  intro r unshared
  have hunshared : sharedSlot? w s = none ↔ unshared := sharedSlot?_eq_none
  rcases resolve_of_asks asks s with ⟨slot, found, hr⟩ | ⟨absent, kind, dice, settled, hdraw⟩
  · obtain ⟨_, hslot⟩ := sharedSlot?_eq_some found
    have hshared : ¬ unshared := by simp [← hunshared, found]
    rw [show r = _ from hr]
    refine ⟨slot.kind, rfl, by simp [hshared], ?_, ?_, ?_⟩
    · intro e herror
      cases herror
    · exact fun _ => ⟨slot, hslot, rfl, rfl, rfl, rfl, rfl⟩
    · exact fun _ _ h => absurd h hshared
  · have habsent : unshared := hunshared.mp absent
    rcases hdraw with ⟨e, rest, picked, hr⟩ | ⟨nothing, hr⟩
    · have hfinds : ¬ kind.Lacks (s.pools.get c) := by simp [← pick?_eq_none_iff, picked]
      rw [show r = _ from hr]
      refine ⟨kind, rfl, by simp [hfinds], ?_, fun h => absurd habsent h, ?_⟩
      · intro e herror
        cases herror
      · intro x hx _
        exact ⟨e, rest, (Except.ok.inj hx).symm, takes_of_pick? picked,
          get_pools_drawn w kind c dice e rest s⟩
    · have hlacks : kind.Lacks (s.pools.get c) := pick?_eq_none_iff.mp nothing
      rw [show r = _ from hr]
      refine ⟨kind, rfl, by simp [habsent, hlacks], ?_, fun h => absurd habsent h, ?_⟩
      · intro e herror
        have hdice := dice_of_settle w n s.dice
        simp only [settled, Kind.options_ne_nil_iff] at hdice
        exact ⟨(Except.error.inj herror).symm, by rw [hdice]⟩
      · intro x hx
        cases hx

/-- A man is asked for where only a woman is left, and she stays. -/
theorem resolve_fails_iff_male :
    let w : Wildcard :=
      { source := "{name male}".toList, index := 0, name := "name".toList
        type := some "male".toList, id := none, obfuscated := false, metadata := [] }
    let ann : Person := { name := .text "Ann".toList, gender := .female }
    let s := start { Catalog.empty with people := [ann] } ⟨0⟩ .easy
    w.Asks .name .name ∧
      (resolve w s).result = .error { pool := "name".toList, detail := "male".toList } ∧
      (resolve w s).session = s := by
  intro w ann s
  have hw : w.Asks .name .name := ⟨rfl, rfl⟩
  obtain ⟨k, hkind, hfails, herror, _⟩ := resolve_fails_iff w .name .name hw s
  have hmale : (resolve w s).kind = some .male := rfl
  obtain rfl := Option.some.inj (hkind.symm.trans hmale)
  have hlacks : Kind.male.Lacks (s.pools.get .name) := by
    change Kind.male.Lacks [⟨0, .person ann⟩]
    rw [Kind.lacks_of_mem_options (k := .name) (by decide)]
    intro x hx
    rw [List.mem_singleton.mp hx]
    rfl
  obtain ⟨e, he⟩ := hfails.mpr ⟨.inr rfl, hlacks⟩
  obtain ⟨rfl, hsession⟩ := herror e he
  refine ⟨hw, he, hsession.trans ?_⟩
  rw [if_neg (by simp [w]), Int.add_zero]

/-- A general kind without a type fails exactly if nothing is left for the choice that the dice have
made for it. So it fails where nothing is left for any choice, and gets an entry where something is
left for each of them. -/
theorem resolve_bare_fails_iff (w : Wildcard) (n : Kind) (c : Collection) (asks : w.Asks n c)
    (bare : w.type = none) (general : n.options ≠ []) (s : Session)
    (unshared : w.isInstance = true ∨ s.slot? w.keycode = none) :
    let r := resolve w s
    let left (k : Kind) := ∃ x ∈ s.pools.get c, k.accepts x.entity = true
    ∃ k ∈ n.options, (s.dice.choose? n.options).1 = some k ∧ r.kind = some k ∧
      ((∃ e, r.result = .error e) ↔ ¬ left k) ∧
      ((∀ l ∈ n.options, ¬ left l) → ∃ e, r.result = .error e) ∧
      ((∀ l ∈ n.options, left l) → ∃ x ∈ s.pools.get c, k.accepts x.entity = true ∧
        r.result = .ok (some (.entry x))) := by
  intro r left
  obtain ⟨k, hk, hchoose, hsettle⟩ := settle_of_bare bare general s.dice
  have hnarrow : k.Lacks (s.pools.get c) ↔ ¬ left k := by
    rw [Kind.lacks_of_mem_options hk]
    simp [left]
  refine ⟨k, hk, hchoose, ?_⟩
  rcases resolve_of_asks asks s with ⟨slot, found, _⟩ | ⟨_, kind, dice, settled, hdraw⟩
  · rw [sharedSlot?_eq_none.mpr unshared] at found
    cases found
  · obtain ⟨rfl, rfl⟩ := Prod.mk.inj (hsettle.symm.trans settled)
    rcases hdraw with ⟨e, rest, picked, hr⟩ | ⟨nothing, hr⟩
    · obtain ⟨_, _, _, _, hfit⟩ := takes_of_pick? picked
      rw [if_pos (Kind.detail?_of_mem_options hk)] at hfit
      have hmem := mem_of_pick? picked
      have hleft : left k := ⟨e, hmem, hfit.1⟩
      rw [show r = _ from hr]
      refine ⟨rfl, by simp [hleft], fun hnone => absurd hleft (hnone k hk), fun _ => ?_⟩
      exact ⟨e, hmem, hfit.1, rfl⟩
    · have hnothing : ¬ left k := hnarrow.mp (pick?_eq_none_iff.mp nothing)
      rw [show r = _ from hr]
      exact ⟨rfl, by simp [hnothing], fun _ => ⟨_, rfl⟩, fun hall => absurd (hall k hk) hnothing⟩

/-- Where a man and a woman are left, a name is found whatever the dice say. -/
theorem resolve_bare_fails_iff_both :
    let w : Wildcard :=
      { source := "{name}".toList, index := 0, name := "name".toList, type := none, id := none
        obfuscated := false, metadata := [] }
    let bob : Person := { name := .text "Bob".toList, gender := .male }
    let ann : Person := { name := .text "Ann".toList, gender := .female }
    let s := start { Catalog.empty with people := [bob, ann] } ⟨0⟩ .easy
    (w.Asks .name .name ∧ w.type = none ∧ Kind.name.options ≠ [] ∧ s.slot? w.keycode = none) ∧
      ∃ x, (resolve w s).result = .ok (some (.entry x)) := by
  intro w bob ann s
  have hw : w.Asks .name .name := ⟨rfl, rfl⟩
  have hoptions : Kind.name.options ≠ [] := by decide
  have hslot : s.slot? w.keycode = none := rfl
  have hpool : (s.pools.get .name).Perm [⟨0, .person bob⟩, ⟨1, .person ann⟩] :=
    perm_start { Catalog.empty with people := [bob, ann] } ⟨0⟩ .easy .name
  have hleft : ∀ l ∈ Kind.name.options, ∃ x ∈ s.pools.get .name, l.accepts x.entity = true := by
    intro l hl
    have hgender : l = .male ∨ l = .female := by simpa [Kind.options] using hl
    rcases hgender with rfl | rfl
    · exact ⟨⟨0, .person bob⟩, hpool.mem_iff.mpr List.mem_cons_self, rfl⟩
    · exact ⟨⟨1, .person ann⟩, hpool.mem_iff.mpr (by simp), rfl⟩
  obtain ⟨k, _, _, _, _, _, hfound⟩ :=
    resolve_bare_fails_iff w .name .name hw rfl hoptions s (.inr hslot)
  obtain ⟨x, _, _, hresult⟩ := hfound hleft
  exact ⟨⟨hw, rfl, hoptions, hslot⟩, x, hresult⟩

/-- Of two catalogs, one with a single man and one with a single woman, a name is not found in one of
them, although the person is still there. -/
theorem resolve_bare_fails_with_person_left :
    let w : Wildcard :=
      { source := "{name}".toList, index := 0, name := "name".toList, type := none, id := none
        obfuscated := false, metadata := [] }
    let kim (gender : Gender) : Person := { name := .text "Kim".toList, gender }
    let s (gender : Gender) := start { Catalog.empty with people := [kim gender] } ⟨0⟩ .easy
    ∃ gender, (∃ e, (resolve w (s gender)).result = .error e) ∧
      (s gender).pools.get .name = [⟨0, .person (kim gender)⟩] := by
  intro w kim s
  have hw : w.Asks .name .name := ⟨rfl, rfl⟩
  obtain ⟨k, hk, _, hsettle⟩ := settle_of_bare (w := w) (n := .name) rfl (by decide) ⟨6⟩
  have hfails (gender : Gender) (hnone : pick? k [⟨0, .person (kim gender)⟩] = none) :
      ∃ e, (resolve w (s gender)).result = .error e := by
    rcases resolve_of_asks hw (s gender) with
      ⟨slot, found, _⟩ | ⟨_, kind, dice, settled, ⟨e, rest, picked, _⟩ | ⟨_, hr⟩⟩
    · cases found
    · obtain ⟨rfl, _⟩ := Prod.mk.inj (hsettle.symm.trans settled)
      exact absurd (hnone.symm.trans picked) (by simp)
    · exact ⟨_, congrArg Resolution.result hr⟩
  have hgender : k = .male ∨ k = .female := by simpa [Kind.options] using hk
  rcases hgender with rfl | rfl
  · exact ⟨.female, hfails .female rfl, rfl⟩
  · exact ⟨.male, hfails .male rfl, rfl⟩

end Session

end Errand
