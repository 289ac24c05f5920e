import Errand.Session.Work
import Errand.Proofs.Session.Agreement
import Errand.Proofs.Session.DepthFirst
import Mathlib.Data.Finset.Card
import Mathlib.Data.List.Dedup

/-! # Demand and supply

Entries fall into classes, and some wildcards ask for a class and for no other: what they draw is missed
by no other class, though several classes share a pool. Such wildcards take an entry for each new key and
one for each number that asks for a fresh entry. So a task of them comes about if and only if no class is
asked for more entries than the catalog has of it; which entries are drawn is of no account.
-/

namespace Errand

/-- Entries that one of these kinds accepts none of the others accepts. -/
def Kind.isClass : Kind → Bool
  | .category | .gesture | .question => true
  | .male | .female => true
  | .aobject | .kobject => true
  | .room => true
  | _ => false

def Entity.class? : Entity → Option Kind
  | .category _ => some .category
  | .gesture _ => some .gesture
  | .question _ => some .question
  | .person p => match p.gender with
    | .male => some .male
    | .female => some .female
  | .thing t => match t.familiarity with
    | .known => some .kobject
    | .alike => some .aobject
    | .unknown => none
  | .location (.room _) => some .room
  | .location (.spot _) => none

/-- The class that a wildcard asks for: that of its name, or of its type if that is one of the choices of
its name. -/
def Wildcard.class? (w : Wildcard) : Option Kind :=
  w.kind?.bind fun n =>
    let settled := if n.options = [] then some n
      else (w.type.bind Kind.ofQualifier?).filter fun q => n.options.contains q
    settled.filter Kind.isClass

def Catalog.supply (c : Catalog) (tier : Tier) (k : Kind) : Nat :=
  match k.collection? with
  | some l => (c.available tier l).countP fun e => e.class? = some k
  | none => 0

def sharedKeys (k : Kind) (ws : List Wildcard) : Finset Text :=
  ((ws.filter fun w => w.class? = some k ∧ w.isInstance = false).map Wildcard.keycode).toFinset

/-- How many entries of a class the wildcards need: one for each key, and one for each wildcard that
shares its entry with no other. -/
def demand (k : Kind) (ws : List Wildcard) : Nat :=
  (sharedKeys k ws).card + ws.countP fun w => w.class? = some k ∧ w.isInstance = true

/-- Which class an entity is of decides which of these kinds accepts it. -/
theorem Kind.accepts_iff_class? {k : Kind} (hk : k.isClass = true) (e : Entity) :
    k.accepts e = true ↔ e.class? = some k := by
  cases e with
  | location l =>
      cases l <;> cases k <;> simp_all [isClass, detail?, collection?, Entity.collection, accepts,
        Entity.class?, Location.isRoom]
  | person p =>
      cases hp : p.gender <;> cases k <;>
        simp_all [isClass, detail?, collection?, Entity.collection, accepts, Entity.class?]
  | thing t =>
      cases ht : t.familiarity <;> cases k <;>
        simp_all [isClass, detail?, collection?, Entity.collection, accepts, Entity.class?]
  | category | gesture | question =>
      cases k <;> simp_all [isClass, detail?, collection?, Entity.collection, accepts, Entity.class?]

namespace Wildcard

variable {w v : Wildcard} {k : Kind}

theorem choices_of_class? (h : w.class? = some k) :
    ∃ n c, w.Asks n c ∧ k.collection? = some c ∧ k.isClass = true ∧ ∀ j, j ∈ w.choices n ↔ j = k := by
  unfold class? at h
  obtain ⟨n, hn, h⟩ := Option.bind_eq_some_iff.mp h
  obtain ⟨hsettled, hclass⟩ := Option.filter_eq_some_iff.mp h
  have hserved : k.collection?.isSome = true := by
    cases k <;> first | rfl | cases hclass
  obtain ⟨c, hc⟩ := Option.isSome_iff_exists.mp hserved
  by_cases hoptions : n.options = []
  · rw [if_pos hoptions] at hsettled
    obtain rfl := Option.some.inj hsettled
    refine ⟨n, c, ⟨hn, hc⟩, hc, hclass, fun j => ?_⟩
    rw [mem_choices_iff, if_pos hoptions]
  · rw [if_neg hoptions] at hsettled
    obtain ⟨hqualifier, hmem⟩ := Option.filter_eq_some_iff.mp hsettled
    obtain ⟨type, htype, hq⟩ := Option.bind_eq_some_iff.mp hqualifier
    have hmem : k ∈ n.options := by simpa using hmem
    refine ⟨n, c, ⟨hn, (Kind.collection?_of_mem_options hmem).symm.trans hc⟩, hc, hclass, fun j => ?_⟩
    rw [mem_choices_iff, if_neg hoptions]
    simp [htype, hq, hmem]

theorem class?_eq_of_keycode_eq {l : Kind} (hw : w.class? = some k) (hv : v.class? = some l)
    (h : w.keycode = v.keycode) : k = l := by
  obtain ⟨n, c, asks, _, _, hchoices⟩ := choices_of_class? hw
  obtain ⟨m, d, others, _, _, hothers⟩ := choices_of_class? hv
  rw [← hothers, ← choices_eq_of_keycode_eq asks.1 others.1 h, hchoices]

def Repeats (w : Wildcard) (before : List Wildcard) : Prop :=
  w.isInstance = false ∧
    ∃ v ∈ before, v.class?.isSome = true ∧ v.isInstance = false ∧ v.keycode = w.keycode

end Wildcard

/-! ## The demand of a row of wildcards -/

section Demand

variable {k : Kind} {w : Wildcard} {ws : List Wildcard}

theorem mem_sharedKeys {key : Text} :
    key ∈ sharedKeys k ws ↔
      ∃ v ∈ ws, v.class? = some k ∧ v.isInstance = false ∧ v.keycode = key := by
  simp [sharedKeys, and_assoc]

theorem sharedKeys_append (k : Kind) (ws others : List Wildcard) :
    sharedKeys k (ws ++ others) = sharedKeys k ws ∪ sharedKeys k others := by
  simp only [sharedKeys, List.filter_append, List.map_append, List.toFinset_append]

theorem demand_le_append (k : Kind) (ws others : List Wildcard) :
    demand k ws ≤ demand k (ws ++ others) := by
  have hkeys : (sharedKeys k ws).card ≤ (sharedKeys k (ws ++ others)).card := by
    rw [sharedKeys_append]
    exact Finset.card_le_card Finset.subset_union_left
  unfold demand
  rw [List.countP_append]
  omega

theorem demand_of_unasked (h : ∀ w ∈ ws, w.class? ≠ some k) : demand k ws = 0 := by
  have hkeys : sharedKeys k ws = ∅ := by
    rw [Finset.eq_empty_iff_forall_notMem]
    intro key hmem
    obtain ⟨w, hw, hclass, _⟩ := mem_sharedKeys.mp hmem
    exact h w hw hclass
  have hfresh : ws.countP (fun w => w.class? = some k ∧ w.isInstance = true) = 0 := by
    rw [List.countP_eq_zero]
    intro w hw hasks
    exact h w hw (of_decide_eq_true hasks).1
  unfold demand
  rw [hkeys, hfresh, Finset.card_empty]

theorem demand_append_of_other (h : w.class? ≠ some k) : demand k (ws ++ [w]) = demand k ws := by
  have hkeys : sharedKeys k [w] = ∅ := by simp [sharedKeys, h]
  unfold demand
  rw [sharedKeys_append, hkeys, Finset.union_empty, List.countP_append]
  simp [h]

theorem demand_append_of_repeats (hw : w.class? = some k) (h : w.Repeats ws) :
    demand k (ws ++ [w]) = demand k ws := by
  obtain ⟨hshares, v, hv, hclass, hvShares, hkey⟩ := h
  obtain ⟨l, hl⟩ := Option.isSome_iff_exists.mp hclass
  obtain rfl := Wildcard.class?_eq_of_keycode_eq hl hw hkey
  have hkeys : sharedKeys l [w] ⊆ sharedKeys l ws := by
    intro key hmem
    obtain ⟨x, hx, _, _, rfl⟩ := mem_sharedKeys.mp hmem
    obtain rfl := List.mem_singleton.mp hx
    exact mem_sharedKeys.mpr ⟨v, hv, hl, hvShares, hkey⟩
  unfold demand
  rw [sharedKeys_append, Finset.union_eq_left.mpr hkeys, List.countP_append]
  simp [hshares]

/-- A new key asks for one more entry, and so does every wildcard that shares with no other. -/
theorem demand_append_of_new (hw : w.class? = some k) (h : ¬ w.Repeats ws) :
    demand k (ws ++ [w]) = demand k ws + 1 := by
  unfold demand
  rw [sharedKeys_append, List.countP_append]
  cases hshares : w.isInstance with
  | true =>
      have hkeys : sharedKeys k [w] = ∅ := by simp [sharedKeys, hshares]
      rw [hkeys, Finset.union_empty]
      simp [hw, hshares, Nat.add_assoc]
  | false =>
      have hkeys : sharedKeys k [w] = {w.keycode} := by simp [sharedKeys, hw, hshares]
      have hnew : Disjoint (sharedKeys k ws) {w.keycode} := by
        rw [Finset.disjoint_singleton_right]
        intro hmem
        obtain ⟨v, hv, hclass, hvShares, hkey⟩ := mem_sharedKeys.mp hmem
        exact h ⟨hshares, v, hv, by rw [hclass]; rfl, hvShares, hkey⟩
      rw [hkeys, Finset.card_union_of_disjoint hnew, Finset.card_singleton]
      simp [hshares]
      omega

end Demand

namespace Session

variable {c : Catalog} {tier : Tier} {first s : Session} {before : List Wildcard} {w : Wildcard}

/-! ## What is left of a class -/

/-- After these wildcards the pools lack what they asked for, and nothing else, and the slots are those
of their keys. -/
structure Served (c : Catalog) (tier : Tier) (before : List Wildcard) (b : Books) : Prop where
  left : ∀ k l, k.collection? = some l →
    (b.pools.get l).countP (fun e => e.entity.class? = some k) + demand k before = c.supply tier k
  keys : ∀ key, (∃ slot ∈ b.slots, slot.key = key) ↔
    ∃ v ∈ before, v.class?.isSome = true ∧ v.isInstance = false ∧ v.keycode = key

theorem served_start (c : Catalog) (dice : Dice) (tier : Tier) :
    Served c tier [] (start c dice tier).books := by
  constructor
  · intro k l hl
    have hpool : ((start c dice tier).books.pools.get l).countP (fun e => e.entity.class? = some k) =
        (stock c tier l).countP fun e => e.entity.class? = some k :=
      (perm_start c dice tier l).countP_eq _
    have hnone : demand k [] = 0 := rfl
    rw [hpool, hnone, Nat.add_zero, Catalog.supply, hl]
    dsimp only
    rw [← map_entity_stock, List.countP_map]
    rfl
  · intro key
    have hslots : (start c dice tier).books.slots = [] := rfl
    rw [hslots]
    simp

theorem class_of_settled {k n kind : Kind} {l : Collection} {dice dice' : Dice}
    (hclass : w.class? = some k) (asks : w.Asks n l) (settled : settle w n dice = (kind, dice')) :
    kind = k ∧ k.collection? = some l ∧ k.isClass = true := by
  obtain ⟨m, d, others, hd, hisClass, hchoices⟩ := Wildcard.choices_of_class? hclass
  obtain rfl : n = m := Option.some.inj (asks.1.symm.trans others.1)
  have hmem := settle_mem_choices w n dice
  rw [settled] at hmem
  refine ⟨(hchoices kind).mp hmem, ?_, hisClass⟩
  rw [hd, ← others.2, asks.2]

theorem Served.repeats_of_found (h : Served c tier before s.books) {slot : Slot}
    (found : sharedSlot? w s = some slot) : w.Repeats before := by
  obtain ⟨hshares, hslot⟩ := sharedSlot?_eq_some found
  obtain ⟨hmem, hkey⟩ := slot?_eq_some hslot
  exact ⟨hshares, (h.keys w.keycode).mp ⟨slot, hmem, hkey⟩⟩

theorem Served.not_repeats_of_absent (h : Served c tier before s.books)
    (absent : sharedSlot? w s = none) : ¬ w.Repeats before := by
  rintro ⟨hshares, hbefore⟩
  obtain ⟨slot, hmem, hkey⟩ := (h.keys w.keycode).mpr hbefore
  have hnone := (sharedSlot?_eq_none.mp absent).resolve_left (by simp [hshares])
  exact slot?_eq_none hnone slot hmem hkey

theorem Served.same {t : Session} (h : Served c tier before s.books)
    (hpools : t.pools = s.pools) (hslots : t.slots = s.slots)
    (hdemand : ∀ k, demand k (before ++ [w]) = demand k before)
    (hkey : w.class?.isSome = true → w.isInstance = false → ∃ slot ∈ s.slots, slot.key = w.keycode) :
    Served c tier (before ++ [w]) t.books := by
  constructor
  · intro k l hl
    rw [hdemand, ← h.left k l hl]
    show (t.pools.get l).countP _ + _ = (s.pools.get l).countP _ + _
    rw [hpools]
  · intro key
    show (∃ slot ∈ t.slots, slot.key = key) ↔ _
    rw [hslots]
    constructor
    · intro hslot
      obtain ⟨v, hv, hshares⟩ := (h.keys key).mp hslot
      exact ⟨v, List.mem_append_left _ hv, hshares⟩
    · rintro ⟨v, hv, hclass, hshares, rfl⟩
      rcases List.mem_append.mp hv with hv | hv
      · exact (h.keys v.keycode).mpr ⟨v, hv, hclass, hshares, rfl⟩
      · obtain rfl := List.mem_singleton.mp hv
        exact hkey hclass hshares

/-- A draw for a class leaves one entry less of it, and as many as before of all others. -/
theorem Served.drawn (h : Served c tier before s.books) {k : Kind} {l : Collection} {dice : Dice}
    {e : Entry} {rest : List Entry} (hclass : w.class? = some k) (hl : k.collection? = some l)
    (he : e.entity.class? = some k) (hpool : (s.pools.get l).Perm (e :: rest))
    (hnew : ¬ w.Repeats before) :
    Served c tier (before ++ [w]) (s.drawn w k l dice e rest).books := by
  rw [books_drawn]
  constructor
  · intro j d hd
    have hleft := h.left j d hd
    change (s.pools.get d).countP _ + _ = _ at hleft
    dsimp only
    by_cases hj : j = k
    · subst hj
      obtain rfl : d = l := Option.some.inj (hd.symm.trans hl)
      rw [hpool.countP_eq, List.countP_cons_of_pos (by simpa using he)] at hleft
      rw [Pools.get_set_self, demand_append_of_new hclass hnew]
      omega
    · have hother : w.class? ≠ some j := by
        rw [hclass]
        simpa using Ne.symm hj
      have hentity : ¬ e.entity.class? = some j := by
        rw [he]
        simpa using Ne.symm hj
      rw [demand_append_of_other hother, ← hleft]
      by_cases hdl : d = l
      · subst hdl
        rw [Pools.get_set_self, hpool.countP_eq, List.countP_cons_of_neg (by simpa using hentity)]
      · rw [Pools.get_set_of_ne _ _ hdl]
  · intro key
    have hkeys := h.keys key
    change (∃ slot ∈ s.slots, slot.key = key) ↔ _ at hkeys
    simp only [List.mem_append, or_and_right, exists_or, hkeys]
    refine or_congr_right ?_
    cases hshares : w.isInstance <;> simp [hshares, hclass]

theorem Served.afterResolve (h : Served c tier before s.books)
    (horder : Orderly first (stock c tier) s.books)
    (hclassed : ∀ n l, w.Asks n l → w.class?.isSome = true) {x : Option Element}
    (hresult : (resolve w s).result = .ok x) :
    Served c tier (before ++ [w]) (resolve w s).session.books := by
  have hstep := step_resolve w s
  generalize resolve w s = r at hstep hresult ⊢
  cases hstep with
  | quiet asksNothing =>
      have hclass : w.class? = none := by
        rw [Option.eq_none_iff_forall_ne_some]
        intro k hk
        obtain ⟨n, l, asks, _⟩ := Wildcard.choices_of_class? hk
        exact asksNothing n l asks
      refine h.same rfl rfl (fun k => demand_append_of_other (by rw [hclass]; simp)) ?_
      intro hsome
      rw [hclass] at hsome
      cases hsome
  | @shared _ _ slot asks found =>
      obtain ⟨k, hclass⟩ := Option.isSome_iff_exists.mp (hclassed _ _ asks)
      have hrepeats := h.repeats_of_found found
      obtain ⟨_, hslot⟩ := sharedSlot?_eq_some found
      refine h.same rfl rfl (fun j => ?_) fun _ _ => ⟨slot, slot?_eq_some hslot⟩
      by_cases hj : w.class? = some j
      · exact demand_append_of_repeats hj hrepeats
      · exact demand_append_of_other hj
  | drew asks absent settled picked =>
      obtain ⟨k, hclass⟩ := Option.isSome_iff_exists.mp (hclassed _ _ asks)
      obtain ⟨rfl, hl, hisClass⟩ := class_of_settled hclass asks settled
      obtain ⟨_, haccepts⟩ := accepts_of_pick? horder.balanced asks settled picked
      exact h.drawn hclass hl ((Kind.accepts_iff_class? hisClass _).mp haccepts)
        (perm_of_pick? picked) (h.not_repeats_of_absent absent)
  | short => cases hresult

theorem Served.demand_le (h : Served c tier before s.books) (k : Kind) :
    demand k before ≤ c.supply tier k := by
  cases hl : k.collection? with
  | none =>
      have hunasked : ∀ w ∈ before, w.class? ≠ some k := by
        intro w _ hclass
        obtain ⟨_, l, _, hk, _⟩ := Wildcard.choices_of_class? hclass
        rw [hl] at hk
        cases hk
      rw [demand_of_unasked hunasked]
      exact Nat.zero_le _
  | some l =>
      have hleft := h.left k l hl
      omega

theorem Served.short (h : Served c tier before s.books)
    (hclassed : ∀ n l, w.Asks n l → w.class?.isSome = true) {e : Shortage}
    (hresult : (resolve w s).result = .error e) :
    ∃ k l, w.class? = some k ∧ c.supply tier k < demand k (before ++ [w]) ∧
      k.collection? = some l ∧ e.pool = l.label := by
  have hstep := step_resolve w s
  generalize resolve w s = r at hstep hresult ⊢
  cases hstep with
  | quiet | shared | drew => cases hresult
  | @short _ kind l _ asks absent settled nothing =>
      obtain ⟨k, hclass⟩ := Option.isSome_iff_exists.mp (hclassed _ _ asks)
      obtain ⟨rfl, hl, hisClass⟩ := class_of_settled hclass asks settled
      obtain rfl := Except.error.inj hresult
      refine ⟨kind, l, hclass, ?_, hl, rfl⟩
      have hnone := pick?_eq_none nothing
      have hempty : (s.books.pools.get l).countP (fun e => e.entity.class? = some kind) = 0 := by
        rw [List.countP_eq_zero]
        intro x hx hxclass
        have haccepts := (Kind.accepts_iff_class? hisClass x.entity).mpr (by simpa using hxclass)
        rw [hnone x hx] at haccepts
        cases haccepts
      have hleft := h.left kind l hl
      rw [hempty] at hleft
      rw [demand_append_of_new hclass (h.not_repeats_of_absent absent)]
      omega

/-! ## Runs -/

/-- Of these wildcards one is the first that asks for more of a class than there is, and the shortage is
one of the pool that serves the class. -/
def RunsOut (c : Catalog) (tier : Tier) (ws : List Wildcard) (e : Shortage) : Prop :=
  ∃ before w after k l, ws = before ++ w :: after ∧ (∀ j, demand j before ≤ c.supply tier j) ∧
    w.class? = some k ∧ c.supply tier k < demand k (before ++ [w]) ∧
    k.collection? = some l ∧ e.pool = l.label

/-- A row of wildcards gets what it asks for as long as nothing runs out. -/
theorem Served.travel {ws : List Wildcard} (h : Served c tier before s.books)
    (horder : Orderly first (stock c tier) s.books)
    (hclassed : ∀ w ∈ ws, ∀ n l, w.Asks n l → w.class?.isSome = true) :
    match travel resolve ws s with
    | (.ok _, t) => Served c tier (before ++ ws) t.books
    | (.error e, _) => RunsOut c tier (before ++ ws) e := by
  induction ws generalizing before s with
  | nil =>
      rw [List.append_nil]
      exact h
  | cons w ws ih =>
      obtain ⟨hw, hrest⟩ := List.forall_mem_cons.mp hclassed
      rw [Session.travel]
      cases hresult : (resolve w s).result with
      | error e =>
          obtain ⟨k, l, hclass, hsupply, hl, hpool⟩ := h.short hw hresult
          exact ⟨before, w, ws, k, l, rfl, h.demand_le, hclass, hsupply, hl, hpool⟩
      | ok x =>
          have hlater := ih (h.afterResolve horder hw hresult) (horder.afterResolve w) hrest
          rw [List.append_assoc, List.singleton_append] at hlater
          dsimp only
          generalize Session.travel resolve ws (resolve w s).session = later at hlater ⊢
          obtain ⟨_ | others, t⟩ := later
          · exact hlater
          · exact hlater

/-- A task of wildcards that ask for classes comes about if and only if no class is asked for more
entries than the catalog has of it. Otherwise it fails for want of the first class that runs out. -/
theorem generateTask_succeeds_iff (c : Catalog) (named : c.NamesAreText) (dice : Dice) (tier : Tier)
    (prototype : Text) (fits : Text.NumbersFit (depthLimit + 1) prototype)
    (classed : ∀ stop ∈ itinerary prototype, ∀ n l, stop.wildcard.Asks n l →
      stop.wildcard.class?.isSome = true) :
    let ws := (itinerary prototype).map Stop.wildcard
    ((∃ t, (generateTask prototype c dice tier).1 = .ok t) ↔
        ∀ k, demand k ws ≤ c.supply tier k) ∧
      ∀ e, (generateTask prototype c dice tier).1 = .error e →
        ∃ shortage, e = .exhausted shortage ∧ RunsOut c tier ws shortage := by
  intro ws
  have horder : Orderly (start c dice tier) (stock c tier) (start c dice tier).books :=
    orderly_after c dice tier []
  have hfollows := follows_task named horder fits
  obtain ⟨hgotten, _⟩ := travel_visit (itinerary prototype)
    (s := (start c dice tier).opened prototype) (t := start c dice tier) rfl
  have hclassed : ∀ w ∈ ws, ∀ n l, w.Asks n l → w.class?.isSome = true :=
    List.forall_mem_map.mpr classed
  have hserved := (served_start c dice tier).travel horder hclassed
  change ((∃ t, ((start c dice tier).task prototype).1 = .ok t) ↔ _) ∧
    ∀ e, ((start c dice tier).task prototype).1 = .error e → _
  generalize travel visit (itinerary prototype) ((start c dice tier).opened prototype) = journey
    at hfollows hgotten
  change journey.1.map _ = (travel resolve ws (start c dice tier)).1.map _ at hgotten
  generalize travel resolve ws (start c dice tier) = calls at hgotten hserved
  generalize (start c dice tier).task prototype = run at hfollows ⊢
  obtain ⟨result, t⟩ := calls
  cases hfollows with
  | @short shortage =>
      cases result with
      | ok => simp [Except.map] at hgotten
      | error other =>
          obtain rfl : shortage = other := by simpa [Except.map] using hgotten
          have hout : RunsOut c tier ws shortage := hserved
          refine ⟨?_, ?_⟩
          · obtain ⟨before, w, after, k, l, hsplit, _, _, hless, _⟩ := hout
            have hmore := demand_le_append k (before ++ [w]) after
            rw [List.append_assoc, List.singleton_append, ← hsplit] at hmore
            refine iff_of_false (fun ⟨_, h⟩ => nomatch h) fun h => ?_
            have hk := h k
            omega
          · intro e he
            exact ⟨shortage, (Except.error.inj he).symm, hout⟩
  | @done elements task =>
      cases result with
      | error => simp [Except.map] at hgotten
      | ok gotten =>
          have hall : Served c tier ws t.books := hserved
          exact ⟨iff_of_true ⟨task, rfl⟩ hall.demand_le, fun e he => nomatch he⟩

/-- Two words for one key ask for one object; two numbers ask for two. -/
theorem generateTask_succeeds_iff_object :
    let fruits : Category := { name := .text "fruits".toList, defaultLocation := .null }
    let c : Catalog :=
      { categories := [fruits], gestures := [], locations := []
        people := [{ name := .text "Bob".toList, gender := .male }]
        things := [{ name := .text "pear".toList, category := fruits, familiarity := .known
                     tier := .easy }]
        questions := [] }
    let enough : Text := "Give {male} the {kobject meta: the {object known} for {name male}}.".toList
    let tooMany : Text := "Give {male} the {kobject 1 meta: not {kobject 2}}.".toList
    c.NamesAreText ∧
      (Text.NumbersFit (depthLimit + 1) enough ∧ Text.NumbersFit (depthLimit + 1) tooMany) ∧
      ((∀ stop ∈ itinerary enough, ∀ n l, stop.wildcard.Asks n l →
          stop.wildcard.class?.isSome = true) ∧
        ∀ stop ∈ itinerary tooMany, ∀ n l, stop.wildcard.Asks n l →
          stop.wildcard.class?.isSome = true) ∧
      (∀ k, demand k ((itinerary enough).map Stop.wildcard) ≤ c.supply .easy k) ∧
      (∃ t, (generateTask enough c ⟨0⟩ .easy).1 = .ok t) ∧
      c.supply .easy .kobject < demand .kobject ((itinerary tooMany).map Stop.wildcard) ∧
      ∃ shortage, (generateTask tooMany c ⟨0⟩ .easy).1 = .error (.exhausted shortage) ∧
        shortage.pool = Collection.object.label := by
  intro fruits c enough tooMany
  have named : c.NamesAreText := by
    intro k e he
    cases k <;> simp_all [Catalog.entities, c, fruits, Entity.name]
  have fits : Text.NumbersFit (depthLimit + 1) enough ∧ Text.NumbersFit (depthLimit + 1) tooMany := by
    decide +kernel
  let asked : List Kind := [.male, .kobject]
  have hclasses (prototype : Text) (h : prototype = enough ∨ prototype = tooMany) :
      ∀ stop ∈ itinerary prototype, ∃ k ∈ asked, stop.wildcard.class? = some k := by
    rcases h with rfl | rfl <;> decide +kernel
  have classed (prototype : Text) (h : prototype = enough ∨ prototype = tooMany) :
      ∀ stop ∈ itinerary prototype, ∀ n l, stop.wildcard.Asks n l →
        stop.wildcard.class?.isSome = true := by
    intro stop hstop _ _ _
    obtain ⟨k, _, hk⟩ := hclasses prototype h stop hstop
    rw [hk]
    rfl
  have hdemands : (∀ k ∈ asked, demand k ((itinerary enough).map Stop.wildcard) ≤ c.supply .easy k) ∧
      c.supply .easy .kobject < demand .kobject ((itinerary tooMany).map Stop.wildcard) ∧
      demand .male ((itinerary tooMany).map Stop.wildcard) ≤ c.supply .easy .male := by
    decide +kernel
  obtain ⟨henough, hmore, hmale⟩ := hdemands
  have hdemand : ∀ k, demand k ((itinerary enough).map Stop.wildcard) ≤ c.supply .easy k := by
    intro k
    by_cases hk : k ∈ asked
    · exact henough k hk
    · rw [demand_of_unasked]
      · exact Nat.zero_le _
      · refine List.forall_mem_map.mpr fun stop hstop hclass => ?_
        obtain ⟨l, hl, h⟩ := hclasses enough (.inl rfl) stop hstop
        exact hk (Option.some.inj (hclass.symm.trans h) ▸ hl)
  obtain ⟨hsucceeds, _⟩ :=
    generateTask_succeeds_iff c named ⟨0⟩ .easy enough fits.1 (classed enough (.inl rfl))
  obtain ⟨hfails, hcause⟩ :=
    generateTask_succeeds_iff c named ⟨0⟩ .easy tooMany fits.2 (classed tooMany (.inr rfl))
  refine ⟨named, fits, ⟨classed enough (.inl rfl), classed tooMany (.inr rfl)⟩, hdemand,
    hsucceeds.mpr hdemand, hmore, ?_⟩
  generalize (generateTask tooMany c ⟨0⟩ .easy).1 = result at hfails hcause ⊢
  cases result with
  | ok t =>
      have hk := hfails.mp ⟨t, rfl⟩ .kobject
      omega
  | error e =>
      obtain ⟨shortage, rfl, before, w, after, k, l, hsplit, _, hclass, hless, hl, hpool⟩ :=
        hcause e rfl
      refine ⟨shortage, rfl, hpool.trans ?_⟩
      obtain ⟨stop, hstop, rfl⟩ : ∃ stop ∈ itinerary tooMany, stop.wildcard = w :=
        List.mem_map.mp (hsplit ▸ by simp)
      have hprefix := demand_le_append k (before ++ [stop.wildcard]) after
      rw [List.append_assoc, List.singleton_append, ← hsplit] at hprefix
      obtain ⟨j, hj, h⟩ := hclasses tooMany (.inr rfl) stop hstop
      obtain rfl := Option.some.inj (hclass.symm.trans h)
      rcases List.mem_pair.mp hj with rfl | rfl
      · omega
      · obtain rfl := Option.some.inj hl
        rfl

end Session

end Errand
