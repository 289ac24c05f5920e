import Errand.Proofs.Session.DepthFirst
import Mathlib.Data.List.Pairwise

/-! # Who shares an entry with whom

Two wildcards of a session have the same entry of the catalog exactly if both share and their keys
are equal. Equal keys lead to one entry because a slot never changes once it is there; different
keys lead to different entries because an entry that has left its pool never comes back to it.
-/

namespace Errand

def Entry.Same (a b : Entry) : Prop :=
  a.entity.collection = b.entity.collection ∧ a.position = b.position

theorem Entry.Same.symm {a b : Entry} (h : a.Same b) : b.Same a := ⟨h.1.symm, h.2.symm⟩

theorem Entry.pairwise_not_same {es : List Entry}
    (h : ∀ k, ((es.filter fun e => e.entity.collection = k).map Entry.position).Nodup) :
    es.Pairwise fun a b => ¬ a.Same b := by
  induction es with
  | nil => exact List.Pairwise.nil
  | cons e es ih =>
      refine List.pairwise_cons.mpr ⟨?_, ih ?_⟩
      · intro x hx hsame
        have hnodup := h e.entity.collection
        rw [List.filter_cons_of_pos (by simp), List.map_cons, List.nodup_cons] at hnodup
        apply hnodup.1
        rw [hsame.2]
        refine List.mem_map_of_mem (List.mem_filter.mpr ⟨hx, ?_⟩)
        simpa using hsame.1.symm
      · intro k
        exact (((List.sublist_cons_self e es).filter _).map _).nodup (h k)

def Serving.SharesWith (x y : Serving) : Prop :=
  x.wildcard.isInstance = false ∧ y.wildcard.isInstance = false ∧
    x.wildcard.keycode = y.wildcard.keycode

def Serving.got (x : Serving) : Wildcard × Entry := (x.wildcard, x.entry)

namespace Session

def Resolution.serving? (w : Wildcard) (r : Resolution) : Option Serving :=
  match r.kind, r.result with
  | some kind, .ok (some (.entry e)) => some ⟨w, kind, e⟩
  | _, _ => none

/-- A resolution that gives an entry is entered among the servings, and no other is. -/
theorem servings_resolve (w : Wildcard) (s : Session) :
    (resolve w s).session.servings = s.servings ++ ((resolve w s).serving? w).toList := by
  have hstep := step_resolve w s
  generalize resolve w s = r at hstep ⊢
  cases hstep with
  | @quiet kind element _ plain =>
      have hnone : Resolution.serving? w { kind, result := .ok element, session := s } = none := by
        cases plain <;> rfl
      rw [hnone]
      simp
  | shared => exact servings_record _ _
  | drew => exact servings_drawn _ _ _ _ _ _ _
  | short => exact (List.append_nil _).symm

/-! ## What has left the pools -/

/-- The entries that are out of their pools: those kept for keys, and those handed out. -/
def Books.given (b : Books) : List Entry :=
  b.slots.map Slot.entry ++
    (b.servings.filter fun serving => serving.wildcard.isInstance).map Serving.entry

theorem Books.filter_given (b : Books) (k : Collection) :
    (b.given.filter fun e => e.entity.collection = k) = b.cached k ++ b.handed k := by
  unfold given cached handed
  exact List.filter_append ..

variable {c : Catalog} {tier : Tier} {first s : Session}

/-- No entry is both in a pool and out of it, and none is given twice. -/
theorem Balanced.pairwise_given {b : Books} (h : Balanced first (stock c tier) b) (k : Collection) :
    (b.pools.get k ++ b.given).Pairwise fun x y => ¬ x.Same y := by
  apply Entry.pairwise_not_same
  intro l
  have hnodup := h.nodup l
  unfold Books.holdings at hnodup
  rw [List.append_assoc, ← Books.filter_given] at hnodup
  rw [List.filter_append]
  by_cases hl : l = k
  · subst hl
    have hpool : (b.pools.get l).filter (fun e => e.entity.collection = l) = b.pools.get l := by
      rw [List.filter_eq_self]
      intro e he
      simpa using h.collection_of_mem_pool he
    rw [hpool]
    exact hnodup
  · have hpool : (b.pools.get k).filter (fun e => e.entity.collection = l) = [] := by
      rw [List.filter_eq_nil_iff]
      intro e he
      have hk := h.collection_of_mem_pool he
      simpa [hk] using fun hkl : k = l => hl hkl.symm
    rw [hpool, List.nil_append]
    rw [List.map_append, List.nodup_append] at hnodup
    exact hnodup.2.1

/-! ## Sharing -/

/-- Every sharing wildcard has what the slot of its key says, and two wildcards have the same entry
if and only if they share it. -/
structure Shares (b : Books) : Prop where
  keys : b.slots.Pairwise fun x y => x.key ≠ y.key
  served : ∀ x ∈ b.servings, x.wildcard.isInstance = false →
    { key := x.wildcard.keycode, entry := x.entry, kind := x.kind } ∈ b.slots
  apart : b.servings.Pairwise fun x y => x.entry.Same y.entry ↔ x.SharesWith y

theorem shares_start (c : Catalog) (dice : Dice) (tier : Tier) :
    Shares (start c dice tier).books := by
  have hslots : (start c dice tier).books.slots = [] := rfl
  have hservings : (start c dice tier).books.servings = [] := rfl
  constructor
  · rw [hslots]
    exact List.Pairwise.nil
  · rw [hservings]
    intro x hx
    cases hx
  · rw [hservings]
    exact List.Pairwise.nil

theorem Shares.slot_unique {b : Books} (h : Shares b) {x y : Slot} (hx : x ∈ b.slots)
    (hy : y ∈ b.slots) (hkey : x.key = y.key) : x = y := by
  by_contra hne
  have hsymm : Std.Symm fun x y : Slot => x.key ≠ y.key := ⟨fun _ _ => Ne.symm⟩
  exact h.keys.forall hx hy hne hkey

theorem Shares.mem_given {b : Books} (h : Shares b) {x : Serving} (hx : x ∈ b.servings) :
    x.entry ∈ b.given := by
  cases hw : x.wildcard.isInstance with
  | true =>
      apply List.mem_append_right
      exact List.mem_map_of_mem (List.mem_filter.mpr ⟨hx, hw⟩)
  | false =>
      apply List.mem_append_left
      exact List.mem_map.mpr ⟨_, h.served x hx hw, rfl⟩

/-- A wildcard that shares the entry of a slot shares it with those of that key and no others. -/
theorem Shares.apart_shared (hb : Balanced first (stock c tier) s.books) (h : Shares s.books)
    {w : Wildcard} {slot : Slot} (found : sharedSlot? w s = some slot) {x : Serving}
    (hx : x ∈ s.servings) :
    x.entry.Same slot.entry ↔ x.SharesWith ⟨w, slot.kind, slot.entry⟩ := by
  obtain ⟨hw, hslot⟩ := sharedSlot?_eq_some found
  obtain ⟨hmem, hkey⟩ := slot?_eq_some hslot
  have hgiven : s.books.given.Pairwise fun x y => ¬ x.Same y :=
    (List.pairwise_append.mp (hb.pairwise_given .name)).2.1
  have hparts := List.pairwise_append.mp hgiven
  -- What was handed out lies apart from all slots; what is shared lies in the slot of its own key.
  cases hxw : x.wildcard.isInstance with
  | true =>
      have hhanded : x.entry ∈ (s.books.servings.filter
          fun serving => serving.wildcard.isInstance).map Serving.entry :=
        List.mem_map_of_mem (List.mem_filter.mpr ⟨hx, hxw⟩)
      have hne := hparts.2.2 slot.entry (List.mem_map_of_mem hmem) x.entry hhanded
      constructor
      · intro hsame
        exact absurd hsame.symm hne
      · intro hshare
        exact absurd (hxw.symm.trans hshare.1) (by simp)
  | false =>
      have hown := h.served x hx hxw
      constructor
      · intro hsame
        refine ⟨hxw, hw, ?_⟩
        by_contra hne
        have hsymm : Std.Symm fun x y : Slot => ¬ x.entry.Same y.entry :=
          ⟨fun _ _ hn hs => hn hs.symm⟩
        have hslots : s.slots.Pairwise fun x y => ¬ x.entry.Same y.entry :=
          List.pairwise_map.mp hparts.1
        refine hslots.forall hown hmem ?_ hsame
        intro heq
        apply hne
        rw [← hkey, ← heq]
      · intro hshare
        have heq := h.slot_unique hown hmem (hshare.2.2.trans hkey.symm)
        rw [← heq]
        exact ⟨rfl, rfl⟩

theorem Shares.apart_drawn (hb : Balanced first (stock c tier) s.books) (h : Shares s.books)
    {w : Wildcard} (kind : Kind) {k : Collection} {e : Entry} (absent : sharedSlot? w s = none)
    (he : e ∈ s.pools.get k) {x : Serving} (hx : x ∈ s.servings) :
    x.entry.Same e ↔ x.SharesWith ⟨w, kind, e⟩ := by
  have hne : ¬ e.Same x.entry :=
    (List.pairwise_append.mp (hb.pairwise_given k)).2.2 e he x.entry (h.mem_given hx)
  constructor
  · intro hsame
    exact absurd hsame.symm hne
  · rintro ⟨hxw, hw, hkey⟩
    have hslot := h.served x hx hxw
    rcases sharedSlot?_eq_none.mp absent with hinst | hnone
    · rw [hinst] at hw
      exact absurd hw (by simp)
    · exact absurd hkey (slot?_eq_none hnone _ hslot)

theorem Shares.afterResolve (hb : Balanced first (stock c tier) s.books) (h : Shares s.books)
    (w : Wildcard) : Shares (resolve w s).session.books := by
  have hstep := step_resolve w s
  generalize resolve w s = r at hstep ⊢
  cases hstep with
  | quiet => exact h
  | @shared _ _ slot _ found =>
      obtain ⟨hw, hslot⟩ := sharedSlot?_eq_some found
      obtain ⟨hmem, hkey⟩ := slot?_eq_some hslot
      rw [books_record_reused]
      refine ⟨h.keys, ?_, ?_⟩
      · intro x hx hxw
        rcases List.mem_append.mp hx with hx | hx
        · exact h.served x hx hxw
        · obtain rfl := List.mem_singleton.mp hx
          dsimp only
          rw [← hkey]
          exact hmem
      · refine List.pairwise_append.mpr ⟨h.apart, List.pairwise_singleton _ _, ?_⟩
        intro x hx y hy
        obtain rfl := List.mem_singleton.mp hy
        exact h.apart_shared hb found hx
  | @drew _ kind _ _ e _ _ absent _ picked =>
      rw [books_drawn]
      refine ⟨?_, ?_, ?_⟩
      · refine List.pairwise_append.mpr ⟨h.keys, ?_, ?_⟩
        · split
          · exact List.Pairwise.nil
          · exact List.pairwise_singleton _ _
        · intro x hx y hy
          cases hw : w.isInstance with
          | true => simp [hw] at hy
          | false =>
              simp only [hw, Bool.false_eq_true, if_false, List.mem_singleton] at hy
              subst hy
              have hnone := (sharedSlot?_eq_none.mp absent).resolve_left (by simp [hw])
              exact slot?_eq_none hnone x hx
      · intro x hx hxw
        rcases List.mem_append.mp hx with hx | hx
        · exact List.mem_append_left _ (h.served x hx hxw)
        · obtain rfl := List.mem_singleton.mp hx
          dsimp only at hxw
          apply List.mem_append_right
          simp [hxw]
      · refine List.pairwise_append.mpr ⟨h.apart, List.pairwise_singleton _ _, ?_⟩
        intro x hx y hy
        obtain rfl := List.mem_singleton.mp hy
        exact h.apart_drawn hb kind absent (mem_of_pick? picked) hx
  | short => exact ⟨h.keys, h.served, h.apart⟩

/-! ## Slots are for ever -/

theorem slots_prefix_resolve (w : Wildcard) (s : Session) :
    s.slots <+: (resolve w s).session.slots := by
  have hstep := step_resolve w s
  generalize resolve w s = r at hstep ⊢
  cases hstep with
  | quiet => exact List.prefix_rfl
  | shared => exact List.prefix_rfl
  | drew =>
      rw [slots_drawn]
      exact List.prefix_append _ _
  | short => exact List.prefix_rfl

theorem Moves.slots_prefix {s t : Session} (h : Moves s t) : s.slots <+: t.slots :=
  h.keep (P := fun b => s.slots <+: b.slots)
    (fun w u hu => hu.trans (slots_prefix_resolve w u)) List.prefix_rfl

theorem Moves.slot?_stable {s t : Session} (h : Moves s t) {key : Text} {slot : Slot}
    (hslot : s.slot? key = some slot) : t.slot? key = some slot := by
  obtain ⟨later, hlater⟩ := h.slots_prefix
  unfold slot? at hslot ⊢
  rw [← hlater, List.find?_append, hslot]
  rfl

theorem shares_after (c : Catalog) (dice : Dice) (tier : Tier) (calls : List Call) :
    Shares ((start c dice tier).after calls).books :=
  (balanced_and_after (fun w _ hb h => h.afterResolve hb w) (shares_start c dice tier) calls).2

theorem Shares.slot?_of_mem {s : Session} (h : Shares s.books) {slot : Slot}
    (hmem : slot ∈ s.slots) : s.slot? slot.key = some slot := by
  cases hfound : s.slot? slot.key with
  | none => exact absurd rfl (slot?_eq_none hfound slot hmem)
  | some other =>
      obtain ⟨hother, hkey⟩ := slot?_eq_some hfound
      rw [h.slot_unique hother hmem hkey]

/-! ## What a task adds -/

def entryAt? (x : Stop × Option Element) : Option (Wildcard × Entry) :=
  match x.2 with
  | some (.entry e) => some (x.1.wildcard, e)
  | _ => none

theorem got_resolve {w : Wildcard} {element : Option Element} (place : List Nat)
    (h : (resolve w s).result = .ok element) :
    ((resolve w s).serving? w).map Serving.got = entryAt? ({ place, wildcard := w }, element) := by
  have hstep := step_resolve w s
  generalize resolve w s = r at hstep h ⊢
  cases hstep with
  | quiet _ plain =>
      obtain rfl := Except.ok.inj h
      cases plain <;> rfl
  | shared =>
      obtain rfl := Except.ok.inj h
      rfl
  | drew =>
      obtain rfl := Except.ok.inj h
      rfl
  | short => cases h

theorem servings_visit {stop : Stop} {element : Option Element}
    (h : (visit stop s).result = .ok element) :
    ∃ served, (visit stop s).session.servings = s.servings ++ served ∧
      served.map Serving.got = (entryAt? (stop, element)).toList := by
  obtain ⟨place, w⟩ := stop
  have hresolve {t : Session} (hresult : (resolve w t).result = .ok element) :
      (((resolve w t).serving? w).toList).map Serving.got =
        (entryAt? ({ place, wildcard := w }, element)).toList := by
    rw [← got_resolve place hresult, Option.toList_map]
  unfold visit at h ⊢
  split at h
  · next k _ => exact ⟨_, servings_resolve w { s with current := k }, hresolve h⟩
  · exact ⟨_, servings_resolve w s, hresolve h⟩

/-- A journey enters the entries that its stops get, one after the other. -/
theorem servings_travel {stops : List Stop} {elements : List (Option Element)} {u : Session}
    (h : travel visit stops s = (.ok elements, u)) :
    ∃ served, u.servings = s.servings ++ served ∧
      served.map Serving.got = (stops.zip elements).filterMap entryAt? := by
  induction stops generalizing s elements with
  | nil =>
      cases h
      exact ⟨[], (List.append_nil _).symm, rfl⟩
  | cons stop stops ih =>
      obtain ⟨element, later, hresult, hrest, rfl⟩ := travel_cons_eq_ok.mp h
      obtain ⟨served, hserved, hentry⟩ := servings_visit hresult
      obtain ⟨others, hothers, hentries⟩ := ih hrest
      refine ⟨served ++ others, ?_, ?_⟩
      · rw [hothers, hserved, List.append_assoc]
      · rw [List.map_append, hentry, hentries, List.zip_cons_cons, List.filterMap_cons]
        cases entryAt? (stop, element) <;> rfl

/-- A task adds the entries that the wildcards of its itinerary got, in their order, and its tokens
are those for what the wildcards of the prototype itself got. -/
theorem servings_task (c : Catalog) (dice : Dice) (tier : Tier) (calls : List Call)
    (prototype : Text) {task : Task} {u : Session}
    (success : ((start c dice tier).after calls).task prototype = (.ok task, u)) :
    ∃ elements served, elements.length = (itinerary prototype).length ∧
      u.servings = ((start c dice tier).after calls).servings ++ served ∧
      served.map Serving.got = ((itinerary prototype).zip elements).filterMap entryAt? ∧
      Rendered (Piece.ofSegments (Text.segments prototype))
        (outermost ((itinerary prototype).zip elements)) task.tokens := by
  have horder := orderly_after c dice tier calls
  generalize (start c dice tier).after calls = s at horder success
  obtain ⟨stuck, hstuck⟩ : ∃ stuck : Failure → Prop, ∀ e, stuck e := ⟨fun _ => True, fun _ => trivial⟩
  have hfollows : FollowsUnless stuck _ _ (s.task prototype) :=
    followsUnless_task (.inl (hstuck _)) horder (.inl (hstuck _))
  rw [success] at hfollows
  generalize hjourney : travel visit (itinerary prototype) (s.opened prototype) = journey at hfollows
  cases hfollows with
  | @done elements _ v _ halike hmade =>
      obtain ⟨served, hserved, hentries⟩ := servings_travel hjourney
      have hservings : v.servings = u.servings := congrArg Books.servings halike.books
      rw [hservings] at hserved
      exact ⟨elements, served, length_travel (congrArg Prod.fst hjourney), hserved, hentries,
        hmade.1⟩

/-! ## Who shares -/

/-- Whatever a session was called for, two of its wildcards have the same entry of the catalog if
and only if neither asks for a fresh one and their keys are equal; the slot of its key tells what a
wildcard got; and slots are only ever added. Every resolution that gives an entry is counted. -/
theorem after_sameEntry_iff (c : Catalog) (dice : Dice) (tier : Tier) (calls : List Call) :
    let s := (start c dice tier).after calls
    (s.servings.Pairwise fun x y => x.entry.Same y.entry ↔
      x.wildcard.isInstance = false ∧ y.wildcard.isInstance = false ∧
        x.wildcard.keycode = y.wildcard.keycode) ∧
      (∀ x ∈ s.servings,
        (c.entities x.entry.entity.collection)[x.entry.position]? = some x.entry.entity) ∧
      (∀ x ∈ s.servings, x.wildcard.isInstance = false → s.slot? x.wildcard.keycode =
        some { key := x.wildcard.keycode, entry := x.entry, kind := x.kind }) ∧
      (∀ later, s.slots <+: (s.after later).slots ∧
        ∀ key slot, s.slot? key = some slot → (s.after later).slot? key = some slot) ∧
      ∀ w, (resolve w s).session.servings = s.servings ++ ((resolve w s).serving? w).toList := by
  have hshares := shares_after c dice tier calls
  have hbalanced := balanced_after c dice tier calls
  refine ⟨hshares.apart, ?_, ?_, ?_, ?_⟩
  · intro x hx
    have hgiven := hshares.mem_given hx
    have hholdings : x.entry ∈ ((start c dice tier).after calls).books.holdings
        x.entry.entity.collection := by
      unfold Books.holdings
      rw [List.append_assoc, ← Books.filter_given]
      exact List.mem_append_right _ (List.mem_filter.mpr ⟨hgiven, by simp⟩)
    exact (mem_stock.mp (hbalanced.mem_stock_of_mem hholdings)).1
  · intro x hx hw
    exact hshares.slot?_of_mem (hshares.served x hx hw)
  · intro later
    have hmoves := Moves.after ((start c dice tier).after calls) later
    exact ⟨hmoves.slots_prefix, fun _ _ hslot => hmoves.slot?_stable hslot⟩
  · intro w
    exact servings_resolve w _

end Session

end Errand
