import Errand.Proofs.Session.History

/-! # Conservation of entries

An entry of the catalog is at every moment in exactly one place: in its pool, with the key it was
drawn for, or with a wildcard that shares it with no other. Pools only lose entries, and keep the
order in which the session shuffled them.
-/

namespace Errand

def Catalog.available (c : Catalog) (tier : Tier) (k : Collection) : List Entity :=
  (c.entities k).filter fun e => e.allowedBy tier

namespace Session

namespace Books

/-- The entries of a collection that are kept for keys. -/
def cached (b : Books) (c : Collection) : List Entry :=
  (b.slots.map Slot.entry).filter fun e => e.entity.collection = c

/-- The entries of a collection that went to wildcards which share them with no other. -/
def handed (b : Books) (c : Collection) : List Entry :=
  ((b.servings.filter fun serving => serving.wildcard.isInstance).map Serving.entry).filter
    fun e => e.entity.collection = c

def holdings (b : Books) (c : Collection) : List Entry := b.pools.get c ++ b.cached c ++ b.handed c

end Books

/-! ## The stock of a session -/

theorem mem_stock {c : Catalog} {tier : Tier} {k : Collection} {e : Entry} :
    e ∈ stock c tier k ↔
      (c.entities k)[e.position]? = some e.entity ∧ e.entity.allowedBy tier = true := by
  unfold stock
  rw [List.mem_filter, List.mem_map]
  refine and_congr_left fun _ => ?_
  constructor
  · rintro ⟨⟨entity, position⟩, hmem, rfl⟩
    exact List.mem_zipIdx_iff_getElem?.mp hmem
  · intro hget
    exact ⟨(e.entity, e.position), List.mem_zipIdx_iff_getElem?.mpr hget, rfl⟩

theorem collection_of_mem_stock {c : Catalog} {tier : Tier} {k : Collection} {e : Entry}
    (h : e ∈ stock c tier k) : e.entity.collection = k :=
  Catalog.collection_of_mem_entities (List.mem_of_getElem? (mem_stock.mp h).1)

theorem map_entity_stock (c : Catalog) (tier : Tier) (k : Collection) :
    (stock c tier k).map Entry.entity = c.available tier k := by
  unfold stock Catalog.available
  rw [List.filter_map, List.map_map]
  calc ((c.entities k).zipIdx.filter fun x => x.1.allowedBy tier).map Prod.fst
      = ((c.entities k).zipIdx.map Prod.fst).filter fun e => e.allowedBy tier := by
        rw [List.filter_map]
        rfl
    _ = (c.entities k).filter fun e => e.allowedBy tier := by rw [List.zipIdx_map_fst]

theorem nodup_position_stock (c : Catalog) (tier : Tier) (k : Collection) :
    ((stock c tier k).map Entry.position).Nodup := by
  have hsub : ((stock c tier k).map Entry.position).Sublist
      ((c.entities k).zipIdx.map Prod.snd) := by
    have h := (List.filter_sublist (p := fun e : Entry => e.entity.allowedBy tier)
      (l := (c.entities k).zipIdx.map fun x => Entry.mk x.2 x.1)).map Entry.position
    rw [List.map_map] at h
    exact h
  rw [List.zipIdx_map_snd] at hsub
  exact hsub.nodup List.nodup_range'

theorem allowedBy_iff {tier : Tier} {e : Entity} :
    e.allowedBy tier = true ↔ ∀ own, e.tier? = some own → own.rank ≤ tier.rank := by
  unfold Entity.allowedBy
  cases e.tier? <;> simp [Tier.allows]

theorem perm_start (c : Catalog) (dice : Dice) (tier : Tier) (k : Collection) :
    ((start c dice tier).pools.get k).Perm (stock c tier k) := by
  cases k <;> exact Dice.perm_shuffle _ _

theorem holdings_start (c : Catalog) (dice : Dice) (tier : Tier) (k : Collection) :
    (start c dice tier).books.holdings k = (start c dice tier).pools.get k := by
  have hcached : (start c dice tier).books.cached k = [] := rfl
  have hhanded : (start c dice tier).books.handed k = [] := rfl
  rw [Books.holdings, hcached, hhanded, List.append_nil, List.append_nil]
  rfl

/-! ## What a resolution moves -/

theorem cached_drawn (w : Wildcard) (kind : Kind) (c : Collection) (dice : Dice) (e : Entry)
    (rest : List Entry) (s : Session) (k : Collection) :
    (s.drawn w kind c dice e rest).books.cached k =
      s.books.cached k ++ if ¬ w.isInstance ∧ e.entity.collection = k then [e] else [] := by
  rw [books_drawn]
  by_cases hw : w.isInstance = true <;> by_cases hk : e.entity.collection = k <;>
    simp [Books.cached, books, hw, hk]

theorem handed_drawn (w : Wildcard) (kind : Kind) (c : Collection) (dice : Dice) (e : Entry)
    (rest : List Entry) (s : Session) (k : Collection) :
    (s.drawn w kind c dice e rest).books.handed k =
      s.books.handed k ++ if w.isInstance ∧ e.entity.collection = k then [e] else [] := by
  rw [books_drawn]
  by_cases hw : w.isInstance = true <;> by_cases hk : e.entity.collection = k <;>
    simp [Books.handed, books, hw, hk]

theorem holdings_shared (w : Wildcard) (kind : Kind) (e : Entry) (s : Session) (k : Collection)
    (hw : w.isInstance = false) :
    (s.record (.reused w kind e)).books.holdings k = s.books.holdings k := by
  rw [books_record_reused]
  simp [Books.holdings, Books.cached, Books.handed, books, hw]

/-- A draw moves an entry from its pool to its key or to the wildcard, and touches no other. -/
theorem holdings_drawn {w : Wildcard} {kind : Kind} {c : Collection} {dice : Dice} {e : Entry}
    {rest : List Entry} {s : Session} (hpool : (s.pools.get c).Perm (e :: rest))
    (he : e.entity.collection = c) (k : Collection) :
    ((s.drawn w kind c dice e rest).books.holdings k).Perm (s.books.holdings k) := by
  unfold Books.holdings
  rw [cached_drawn, handed_drawn, books_drawn]
  by_cases hk : k = c
  · subst hk
    rw [Pools.get_set_self]
    have hold : (s.pools.get k ++ s.books.cached k ++ s.books.handed k).Perm
        (e :: (rest ++ s.books.cached k ++ s.books.handed k)) := by
      have h := (hpool.append_right (s.books.cached k)).append_right (s.books.handed k)
      simpa using h
    refine List.Perm.trans ?_ hold.symm
    cases hw : w.isInstance with
    | true =>
        simp only [he, not_true_eq_false, false_and, true_and, if_false, if_true, List.append_nil]
        rw [← List.append_assoc]
        exact List.perm_append_singleton e _
    | false =>
        simp only [he, Bool.false_eq_true, not_false_eq_true, true_and, false_and, if_true,
          if_false, List.append_nil]
        rw [← List.append_assoc, List.append_assoc _ [e]]
        exact List.perm_middle
  · rw [Pools.get_set_of_ne _ _ hk]
    have hne : e.entity.collection ≠ k := fun h => hk (h.symm.trans he)
    simp only [hne, and_false, if_false, List.append_nil]
    exact List.Perm.refl _

/-! ## The balance -/

/-- The holdings make up the stock, and the pools are what is left of those at the start. -/
structure Balanced (first : Session) (stock : Collection → List Entry) (b : Books) : Prop where
  perm : ∀ k, (b.holdings k).Perm (stock k)
  sublist : ∀ k, (b.pools.get k).Sublist (first.pools.get k)

theorem balanced_start (c : Catalog) (dice : Dice) (tier : Tier) :
    Balanced (start c dice tier) (stock c tier) (start c dice tier).books := by
  constructor
  · intro k
    rw [holdings_start]
    exact perm_start c dice tier k
  · intro k
    exact List.Sublist.refl _

variable {c : Catalog} {tier : Tier} {first s : Session}

theorem Balanced.mem_stock_of_mem {b : Books} (h : Balanced first (stock c tier) b)
    {k : Collection} {e : Entry} (he : e ∈ b.holdings k) : e ∈ stock c tier k :=
  (h.perm k).mem_iff.mp he

theorem Balanced.collection_of_mem_pool {b : Books} (h : Balanced first (stock c tier) b)
    {k : Collection} {e : Entry} (he : e ∈ b.pools.get k) : e.entity.collection = k := by
  apply collection_of_mem_stock
  apply h.mem_stock_of_mem
  exact List.mem_append_left _ (List.mem_append_left _ he)

theorem Balanced.mem_entities {b : Books} (h : Balanced first (stock c tier) b) {k : Collection}
    {e : Entry} (he : e ∈ b.holdings k) : e.entity ∈ c.entities k :=
  List.mem_of_getElem? (mem_stock.mp (h.mem_stock_of_mem he)).1

theorem Balanced.mem_entities_of_result (h : Balanced first (stock c tier) s.books) {w : Wildcard}
    {e : Entry} (hresult : (resolve w s).result = .ok (some (.entry e))) :
    ∃ k, e.entity ∈ c.entities k := by
  rcases mem_of_result hresult with ⟨slot, hslot, rfl⟩ | ⟨k, hpool⟩
  · refine ⟨slot.entry.entity.collection, h.mem_entities ?_⟩
    apply List.mem_append_left
    apply List.mem_append_right
    exact List.mem_filter.mpr ⟨List.mem_map_of_mem hslot, by simp⟩
  · exact ⟨k, h.mem_entities (List.mem_append_left _ (List.mem_append_left _ hpool))⟩

theorem Balanced.nodup {b : Books} (h : Balanced first (stock c tier) b) (k : Collection) :
    ((b.holdings k).map Entry.position).Nodup :=
  (((h.perm k).map Entry.position).nodup_iff).mpr (nodup_position_stock c tier k)

theorem Balanced.afterResolve (h : Balanced first (stock c tier) s.books) (w : Wildcard) :
    Balanced first (stock c tier) (resolve w s).session.books := by
  have hstep := step_resolve w s
  generalize resolve w s = r at hstep ⊢
  cases hstep with
  | quiet => exact h
  | shared _ found =>
      obtain ⟨hw, _⟩ := sharedSlot?_eq_some found
      constructor
      · intro k
        rw [holdings_shared _ _ _ _ _ hw]
        exact h.perm k
      · intro k
        rw [books_record_reused]
        exact h.sublist k
  | @drew _ kind c dice e rest _ _ _ picked =>
      have he : e.entity.collection = c := h.collection_of_mem_pool (mem_of_pick? picked)
      constructor
      · intro k
        exact (holdings_drawn (perm_of_pick? picked) he k).trans (h.perm k)
      · intro k
        rw [books_drawn]
        by_cases hk : k = c
        · subst hk
          rw [Pools.get_set_self]
          exact (sublist_of_pick? picked).trans (h.sublist k)
        · rw [Pools.get_set_of_ne _ _ hk]
          exact h.sublist k
  | short => exact ⟨h.perm, h.sublist⟩

theorem balanced_after (c : Catalog) (dice : Dice) (tier : Tier) (calls : List Call) :
    Balanced (start c dice tier) (stock c tier) ((start c dice tier).after calls).books :=
  keep_after (fun w _ h => h.afterResolve w) (balanced_start c dice tier) calls

/-- What every resolution keeps of balanced books holds after any calls, and the balance with it. -/
theorem balanced_and_after {c : Catalog} {dice : Dice} {tier : Tier} {P : Books → Prop}
    (hstep : ∀ w s, Balanced (start c dice tier) (stock c tier) s.books → P s.books →
      P (resolve w s).session.books)
    (hstart : P (start c dice tier).books) (calls : List Call) :
    Balanced (start c dice tier) (stock c tier) ((start c dice tier).after calls).books ∧
      P ((start c dice tier).after calls).books :=
  keep_after (P := fun b => Balanced (start c dice tier) (stock c tier) b ∧ P b)
    (fun w s h => ⟨h.1.afterResolve w, hstep w s h.1 h.2⟩)
    ⟨balanced_start c dice tier, hstart⟩ calls

/-- After any calls, what a pool still holds, what is kept for keys and what was handed out make up
exactly the entries of the catalog that the tier allows, each place once, and the pool stands in the
order of its shuffle. -/
theorem after_conserves (c : Catalog) (dice : Dice) (tier : Tier) (calls : List Call)
    (k : Collection) :
    let first := start c dice tier
    let s := first.after calls
    let held := s.pools.get k ++ s.books.cached k ++ s.books.handed k
    held.Perm (stock c tier k) ∧
      (held.map Entry.position).Nodup ∧
      (∀ e, e ∈ held ↔ (c.entities k)[e.position]? = some e.entity ∧
        ∀ own, e.entity.tier? = some own → own.rank ≤ tier.rank) ∧
      (s.pools.get k).Sublist (first.pools.get k) := by
  have h := balanced_after c dice tier calls
  refine ⟨h.perm k, h.nodup k, ?_, h.sublist k⟩
  intro e
  rw [← allowedBy_iff, ← mem_stock]
  exact (h.perm k).mem_iff

end Session

end Errand
