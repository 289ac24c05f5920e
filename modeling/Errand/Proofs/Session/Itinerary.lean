import Errand.Proofs.Session.Soundness
import Mathlib.Data.List.Nodup

/-! # The order of resolution

The wildcards of a prototype stand at level 0, and those in the metadata of a wildcard one level
deeper than it. An itinerary lists them depth first: a wildcard, those in its metadata, then its next
neighbour. A journey resolves such a list and stops at the first that gets nothing. What a journey
does to the books depends on nothing but the books.
-/

namespace Errand

/-- An element without the word that a pronoun gets from the text around it. -/
def Element.wordless : Element → Element
  | .pronoun _ => .pronoun []
  | x => x

/-- The numbers of all wildcards on the first `levels` levels can be read. -/
def Text.NumbersFit : Nat → Text → Prop
  | 0, _ => True
  | levels + 1, t =>
      .oversized ∉ Text.segments t ∧ ∀ w ∈ Text.wildcards t, NumbersFit levels w.metadata

instance Text.decidableNumbersFit : (levels : Nat) → (t : Text) → Decidable (NumbersFit levels t)
  | 0, _ => .isTrue trivial
  | levels + 1, _ =>
      have (w : Wildcard) : Decidable (NumbersFit levels w.metadata) :=
        decidableNumbersFit levels w.metadata
      inferInstanceAs (Decidable (_ ∧ _))

namespace Session

/-- A wildcard and its place: which one of its text it is, then the same of the wildcards around it,
from the inside out. -/
structure Stop where
  place : List Nat
  wildcard : Wildcard

/-- The wildcards of a text that stands in the metadata of the wildcard at `around`, and those on the
levels below, depth first. -/
def stopsWithin : Nat → List Nat → Text → List Stop
  | 0, _, _ => []
  | levels + 1, around, t =>
      (Text.wildcards t).zipIdx.flatMap fun (w, i) =>
        { place := i :: around, wildcard := w } :: stopsWithin levels (i :: around) w.metadata

/-- The wildcards of a prototype and of all metadata down to the depth limit. -/
def itinerary (prototype : Text) : List Stop := stopsWithin (depthLimit + 1) [] prototype

def stopsAt (levels : Nat) (around : List Nat) (x : Wildcard × Nat) : List Stop :=
  { place := x.2 :: around, wildcard := x.1 } ::
    stopsWithin levels (x.2 :: around) x.1.metadata

theorem stopsWithin_succ (levels : Nat) (around : List Nat) (t : Text) :
    stopsWithin (levels + 1) around t =
      (Text.wildcards t).zipIdx.flatMap (stopsAt levels around) := rfl

theorem stopsWithin_nil (levels : Nat) (around : List Nat) : stopsWithin levels around [] = [] := by
  cases levels <;> rfl

theorem map_wildcard_stopsWithin (levels : Nat) (around : List Nat) (t : Text) :
    (stopsWithin levels around t).map Stop.wildcard = t.wildcardsWithin levels := by
  induction levels generalizing around t with
  | zero => rfl
  | succ levels ih =>
      rw [stopsWithin_succ, List.map_flatMap, Text.wildcardsWithin]
      simp only [stopsAt, List.map_cons, ih]
      conv_rhs => rw [← List.zipIdx_map_fst 0 (Text.wildcards t), List.flatMap_map]

def travel {α : Type} (go : α → Session → Resolution) :
    List α → Session → Except Shortage (List (Option Element)) × Session
  | [], s => (.ok [], s)
  | stop :: stops, s =>
      match (go stop s).result with
      | .error e => (.error e, (go stop s).session)
      | .ok element =>
          match travel go stops (go stop s).session with
          | (.error e, t) => (.error e, t)
          | (.ok elements, t) => (.ok (element :: elements), t)

def opened (s : Session) (prototype : Text) : Session :=
  { s with mentions := (Text.wildcards prototype).map fun w => { wildcard := w, kind := w.kind? } }

/-- Resolves the wildcard of a stop. One of the prototype itself becomes the wildcard at work, and
the kind it has settled on is noted for the pronouns after it. -/
def visit (stop : Stop) (s : Session) : Resolution :=
  match stop.place with
  | [k] => resolveAt k stop.wildcard s
  | _ => resolve stop.wildcard s

theorem travel_append {α : Type} (go : α → Session → Resolution) (xs ys : List α) (s : Session) :
    travel go (xs ++ ys) s =
      match travel go xs s with
      | (.error e, t) => (.error e, t)
      | (.ok elements, t) =>
          match travel go ys t with
          | (.error e, u) => (.error e, u)
          | (.ok later, u) => (.ok (elements ++ later), u) := by
  induction xs generalizing s with
  | nil =>
      simp only [List.nil_append, travel]
      rcases travel go ys s with ⟨_ | _, _⟩ <;> rfl
  | cons x xs ih =>
      simp only [List.cons_append, travel]
      cases (go x s).result with
      | error e => rfl
      | ok element =>
          dsimp only
          rw [ih]
          rcases travel go xs (go x s).session with ⟨_ | elements, t⟩
          · rfl
          · dsimp only
            rcases travel go ys t with ⟨_ | _, _⟩ <;> rfl

theorem travel_cons_eq_ok {α : Type} {go : α → Session → Resolution} {stop : α} {stops : List α}
    {s u : Session} {elements : List (Option Element)} :
    travel go (stop :: stops) s = (.ok elements, u) ↔
      ∃ element later, (go stop s).result = .ok element ∧
        travel go stops (go stop s).session = (.ok later, u) ∧ elements = element :: later := by
  rw [travel]
  cases (go stop s).result with
  | error e => simp
  | ok element =>
      dsimp only
      rcases travel go stops (go stop s).session with ⟨_ | later, v⟩
      · simp
      · simp [and_comm, eq_comm]

theorem travel_append_eq_ok {α : Type} {go : α → Session → Resolution} {xs ys : List α}
    {s u : Session} {elements : List (Option Element)} :
    travel go (xs ++ ys) s = (.ok elements, u) ↔
      ∃ before later t, travel go xs s = (.ok before, t) ∧ travel go ys t = (.ok later, u) ∧
        elements = before ++ later := by
  rw [travel_append]
  rcases travel go xs s with ⟨_ | before, t⟩
  · simp
  · dsimp only
    constructor
    · intro h
      rcases hlater : travel go ys t with ⟨_ | later, v⟩
      · simp [hlater] at h
      · simp only [hlater, Prod.mk.injEq, Except.ok.injEq] at h
        exact ⟨before, later, t, rfl, by rw [hlater, h.2], h.1.symm⟩
    · rintro ⟨before', later, t', hbefore, hlater, rfl⟩
      simp only [Prod.mk.injEq, Except.ok.injEq] at hbefore
      obtain ⟨rfl, rfl⟩ := hbefore
      rw [hlater]

theorem length_travel {α : Type} {go : α → Session → Resolution} {stops : List α}
    {s : Session} {elements : List (Option Element)}
    (h : (travel go stops s).1 = .ok elements) : elements.length = stops.length := by
  induction stops generalizing s elements with
  | nil =>
      obtain rfl := Except.ok.inj h
      rfl
  | cons stop stops ih =>
      obtain ⟨element, later, _, hlater, rfl⟩ := travel_cons_eq_ok.mp (Prod.ext h rfl)
      rw [List.length_cons, List.length_cons, ih (by rw [hlater])]

/-! ## Places -/

theorem suffix_of_mem_stopsWithin {levels : Nat} {around : List Nat} {t : Text} {stop : Stop}
    (h : stop ∈ stopsWithin levels around t) : ∃ i, (i :: around) <:+ stop.place := by
  induction levels generalizing around t with
  | zero => simp [stopsWithin] at h
  | succ levels ih =>
      obtain ⟨⟨w, i⟩, _, hstop⟩ := List.mem_flatMap.mp h
      refine ⟨i, ?_⟩
      rcases List.mem_cons.mp hstop with rfl | hstop
      · exact List.suffix_rfl
      · obtain ⟨j, hj⟩ := ih hstop
        exact (List.suffix_cons j (i :: around)).trans hj

theorem nodup_place_stopsWithin (levels : Nat) (around : List Nat) (t : Text) :
    ((stopsWithin levels around t).map Stop.place).Nodup := by
  induction levels generalizing around t with
  | zero => simp [stopsWithin]
  | succ levels ih =>
      -- All places of a block end in the place of its first stop, which tells the blocks apart.
      have hblock (w : Wildcard) (i : Nat) {place : List Nat}
          (h : place ∈ (stopsAt levels around (w, i)).map Stop.place) :
          (i :: around) <:+ place := by
        obtain ⟨stop, hstop, rfl⟩ := List.mem_map.mp h
        rcases List.mem_cons.mp hstop with rfl | hstop
        · exact List.suffix_rfl
        · obtain ⟨j, hj⟩ := suffix_of_mem_stopsWithin hstop
          exact (List.suffix_cons j (i :: around)).trans hj
      rw [stopsWithin_succ, List.map_flatMap, List.nodup_flatMap]
      constructor
      · rintro ⟨w, i⟩ _
        refine List.nodup_cons.mpr ⟨?_, ih (i :: around) w.metadata⟩
        intro hmem
        obtain ⟨stop, hstop, hplace⟩ := List.mem_map.mp hmem
        obtain ⟨j, hj⟩ := suffix_of_mem_stopsWithin hstop
        have hlength := hj.length_le
        rw [hplace] at hlength
        simp only [List.length_cons] at hlength
        omega
      · have hindex : (Text.wildcards t).zipIdx.Pairwise fun x y => x.2 ≠ y.2 := by
          apply List.pairwise_map.mp
          change ((Text.wildcards t).zipIdx.map Prod.snd).Nodup
          rw [List.zipIdx_map_snd]
          exact List.nodup_range'
        refine hindex.imp ?_
        rintro ⟨w, i⟩ ⟨v, j⟩ hne place hw hv
        have hi := hblock w i hw
        have hj := hblock v j hv
        apply hne
        have heq := (List.suffix_of_suffix_length_le hi hj (by simp)).eq_of_length (by simp)
        exact (List.cons.inj heq).1

/-! ## What a journey depends on -/

theorem text_resolve (w : Wildcard) (s : Session) :
    (resolve w s).session.mentions = s.mentions ∧ (resolve w s).session.current = s.current := by
  have hstep := step_resolve w s
  generalize resolve w s = r at hstep ⊢
  cases hstep with
  | quiet => exact ⟨rfl, rfl⟩
  | shared => exact ⟨rfl, rfl⟩
  | drew =>
      unfold drawn keep
      split <;> exact ⟨rfl, rfl⟩
  | short => exact ⟨rfl, rfl⟩

/-- The same wildcard in two sessions with the same books. Only the word of a pronoun may differ. -/
structure SameTurn (r q : Resolution) : Prop where
  kind : r.kind = q.kind
  result : r.result.map (Option.map Element.wordless) = q.result.map (Option.map Element.wordless)
  books : r.session.books = q.session.books

theorem sameTurn_serve {s t : Session} (h : s.books = t.books) (w : Wildcard) (k : Kind)
    (c : Collection) :
    SameTurn (serve w k c s) (serve w k c t) ∧ (serve w k c s).result = (serve w k c t).result := by
  have hpools : s.pools = t.pools := congrArg Books.pools h
  have hslots : s.slots = t.slots := congrArg Books.slots h
  have hdice : s.dice = t.dice := congrArg Books.dice h
  have hservings : s.servings = t.servings := congrArg Books.servings h
  have hshared : sharedSlot? w s = sharedSlot? w t := by
    unfold sharedSlot? slot?
    rw [hslots]
  unfold serve
  rw [hshared]
  cases sharedSlot? w t with
  | some slot =>
      refine ⟨⟨rfl, rfl, ?_⟩, rfl⟩
      rw [books_record_reused, books_record_reused, h, hservings]
  | none =>
      rcases hsettle : settle w k t.dice with ⟨kind, dice⟩
      have hpick : pick? kind (s.pools.get c) = pick? kind (t.pools.get c) := by rw [hpools]
      simp only [drawFresh, draw, hdice, hsettle, hpick]
      cases pick? kind (t.pools.get c) with
      | none =>
          refine ⟨⟨rfl, rfl, ?_⟩, rfl⟩
          change Books.mk s.pools s.slots dice s.servings = Books.mk t.pools t.slots dice t.servings
          rw [hpools, hslots, hservings]
      | some taken =>
          obtain ⟨e, rest⟩ := taken
          refine ⟨⟨rfl, rfl, ?_⟩, rfl⟩
          change (s.drawn w kind c dice e rest).books = (t.drawn w kind c dice e rest).books
          rw [books_drawn, books_drawn, hpools, hslots, hservings]

theorem sameTurn_resolve {s t : Session} (h : s.books = t.books) (w : Wildcard) :
    SameTurn (resolve w s) (resolve w t) ∧
      (s.pronoun = t.pronoun → (resolve w s).result = (resolve w t).result) := by
  unfold resolve
  by_cases hname : w.name.isEmpty = true
  · rw [if_pos hname, if_pos hname]
    exact ⟨⟨rfl, rfl, h⟩, fun _ => rfl⟩
  · rw [if_neg hname, if_neg hname]
    cases w.kind? with
    | none => exact ⟨⟨rfl, rfl, h⟩, fun _ => rfl⟩
    | some k =>
        cases hc : k.collection? with
        | some c =>
            simp only [hc]
            obtain ⟨hturn, hresult⟩ := sameTurn_serve h w k c
            exact ⟨hturn, fun _ => hresult⟩
        | none =>
            simp only [hc]
            refine ⟨⟨rfl, ?_, h⟩, ?_⟩
            · split <;> rfl
            · intro hpronoun
              rw [hpronoun]

/-- Sessions that differ at most in what they noted about nesting. -/
structure Alike (s t : Session) : Prop where
  books : s.books = t.books
  mentions : s.mentions = t.mentions
  current : s.current = t.current

theorem Alike.afterResolve {s t : Session} (h : Alike s t) (w : Wildcard) :
    (resolve w s).kind = (resolve w t).kind ∧ (resolve w s).result = (resolve w t).result ∧
      Alike (resolve w s).session (resolve w t).session := by
  obtain ⟨hturn, hresult⟩ := sameTurn_resolve h.books w
  have hpronoun : s.pronoun = t.pronoun := by
    unfold pronoun
    rw [h.mentions, h.current]
  obtain ⟨hsm, hsc⟩ := text_resolve w s
  obtain ⟨htm, htc⟩ := text_resolve w t
  refine ⟨hturn.kind, hresult hpronoun, hturn.books, ?_, ?_⟩
  · rw [hsm, htm, h.mentions]
  · rw [hsc, htc, h.current]

theorem Alike.resolveAt {s t : Session} (h : Alike s t) (k : Nat) (w : Wildcard) :
    (resolveAt k w s).result = (resolveAt k w t).result ∧
      Alike (resolveAt k w s).session (resolveAt k w t).session := by
  have hturned : Alike { s with current := k } { t with current := k } :=
    ⟨h.books, h.mentions, rfl⟩
  obtain ⟨hkind, hresult, hresolved⟩ := hturned.afterResolve w
  refine ⟨hresult, hresolved.books, ?_, hresolved.current⟩
  unfold Session.resolveAt settleCurrent
  dsimp only
  rw [hkind, hresolved.mentions, hresolved.current]

/-- Inside metadata a visit is nothing but a resolution. -/
theorem visit_inner {around : List Nat} (h : around ≠ []) (i : Nat) (w : Wildcard) (s : Session) :
    visit { place := i :: around, wildcard := w } s = resolve w s := by
  obtain ⟨j, outer, rfl⟩ := List.exists_cons_of_ne_nil h
  rfl

theorem exists_resolve_of_visit (stop : Stop) (s : Session) :
    ∃ u : Session, u.books = s.books ∧ (visit stop s).result = (resolve stop.wildcard u).result := by
  unfold visit
  split
  · next k _ => exact ⟨{ s with current := k }, rfl, rfl⟩
  · exact ⟨s, rfl, rfl⟩

theorem sameTurn_visit {s t : Session} (h : s.books = t.books) (stop : Stop) :
    SameTurn (visit stop s) (resolve stop.wildcard t) := by
  unfold visit
  split
  · next k _ =>
      obtain ⟨hturn, _⟩ := sameTurn_resolve (s := { s with current := k }) h stop.wildcard
      exact ⟨hturn.kind, hturn.result, hturn.books⟩
  · exact (sameTurn_resolve h stop.wildcard).1

theorem travel_keep {P : Books → Prop} (hstep : ∀ w s, P s.books → P (resolve w s).session.books)
    (stops : List Stop) {s : Session} (hs : P s.books) : P (travel visit stops s).2.books := by
  induction stops generalizing s with
  | nil => exact hs
  | cons stop stops ih =>
      have hvisit : P (visit stop s).session.books := by
        rw [(sameTurn_visit rfl stop).books]
        exact hstep stop.wildcard s hs
      have hrest := ih hvisit
      unfold travel
      split
      · exact hvisit
      · split <;> simp_all

/-- A journey along stops does to the books what resolving their wildcards does in a session of the
same books, whatever text that session is at, and what it meets differs only in the words of
pronouns. -/
theorem travel_visit (stops : List Stop) {s t : Session} (h : s.books = t.books) :
    (travel visit stops s).1.map (List.map (Option.map Element.wordless)) =
        (travel resolve (stops.map Stop.wildcard) t).1.map (List.map (Option.map Element.wordless)) ∧
      (travel visit stops s).2.books = (travel resolve (stops.map Stop.wildcard) t).2.books := by
  induction stops generalizing s t with
  | nil => exact ⟨rfl, h⟩
  | cons stop stops ih =>
      obtain ⟨_, hresult, hbooks⟩ := sameTurn_visit h stop
      obtain ⟨hrest, hlater⟩ := ih hbooks
      simp only [List.map_cons, travel]
      cases hs : (visit stop s).result with
      | error e =>
          cases ht : (resolve stop.wildcard t).result with
          | error f =>
              rw [hs, ht] at hresult
              exact ⟨by simpa [Except.map] using hresult, hbooks⟩
          | ok element =>
              rw [hs, ht] at hresult
              simp [Except.map] at hresult
      | ok element =>
          cases ht : (resolve stop.wildcard t).result with
          | error f =>
              rw [hs, ht] at hresult
              simp [Except.map] at hresult
          | ok other =>
              rw [hs, ht] at hresult
              dsimp only
              rcases hx : travel visit stops (visit stop s).session with ⟨x, u⟩
              rcases hy : travel resolve (stops.map Stop.wildcard)
                (resolve stop.wildcard t).session with ⟨y, v⟩
              rw [hx, hy] at hrest hlater
              cases x <;> cases y <;> simp_all [Except.map]

end Session

end Errand
