import Errand.Proofs.Session.Itinerary

/-! # The lines of metadata

The reader of metadata resolves the wildcards on its levels in the order of their stops and nothing
else. If all of them get something, the lines that it gives are those of the texts on these levels,
each filled with the names of the wildcards in it.
-/

namespace Errand

def Catalog.NamesAreText (c : Catalog) : Prop :=
  ∀ k, ∀ e ∈ c.entities k, ∃ t, e.name = .text t

namespace Session

/-! ## The lines of metadata -/

def fill (name : Nat → Text) : Nat → List Segment → Text
  | _, [] => []
  | i, .char c :: segments => c :: fill name i segments
  | i, .wildcard _ :: segments => name i ++ fill name (i + 1) segments
  | i, .oversized :: segments => fill name i segments

/-- The lines of the metadata text of the wildcard at `around`: those of the text itself, with names
for its wildcards, then those of the metadata of these, depth first. Below the last level the text is
left as it is. -/
def linesIn (name : List Nat → Text) : Nat → List Nat → Text → List Text
  | 0, _, t => Text.metadataLines t
  | levels + 1, around, t =>
      Text.metadataLines (fill (fun i => name (i :: around)) 0 (Text.segments t)) ++
        (Text.wildcards t).zipIdx.flatMap fun (w, i) =>
          if w.metadata.isEmpty then [] else linesIn name levels (i :: around) w.metadata

def linesAt (name : List Nat → Text) (levels : Nat) (around : List Nat) (x : Wildcard × Nat) :
    List Text :=
  if x.1.metadata.isEmpty then [] else linesIn name levels (x.2 :: around) x.1.metadata

/-- The names are those shown for the wildcards at the places of their stops. -/
def Names (name : List Nat → Text) (visited : List (Stop × Option Element)) : Prop :=
  ∀ x ∈ visited, .text (name x.1.place) = x.1.wildcard.display x.2

theorem names_append {name : List Nat → Text} {xs ys : List (Stop × Option Element)} :
    Names name (xs ++ ys) ↔ Names name xs ∧ Names name ys := by
  unfold Names
  exact List.forall_mem_append

theorem map_place_zip {stops : List Stop} {elements : List (Option Element)}
    (h : elements.length = stops.length) :
    (stops.zip elements).map (fun x => x.1.place) = stops.map Stop.place := by
  calc (stops.zip elements).map (fun x => x.1.place)
      = ((stops.zip elements).map Prod.fst).map Stop.place := by
        rw [List.map_map]
        rfl
    _ = stops.map Stop.place := by rw [List.map_fst_zip (by omega)]

theorem exists_names {visited : List (Stop × Option Element)}
    (hplace : (visited.map fun x => x.1.place).Nodup)
    (htext : ∀ x ∈ visited, ∃ t, x.1.wildcard.display x.2 = .text t) :
    ∃ name, Names name visited := by
  induction visited with
  | nil => exact ⟨fun _ => [], fun x hx => absurd hx List.not_mem_nil⟩
  | cons x xs ih =>
      rw [List.map_cons, List.nodup_cons] at hplace
      obtain ⟨name, hname⟩ := ih hplace.2 fun y hy => htext y (List.mem_cons_of_mem x hy)
      obtain ⟨t, ht⟩ := htext x List.mem_cons_self
      refine ⟨fun place => if place = x.1.place then t else name place, ?_⟩
      intro y hy
      rcases List.mem_cons.mp hy with rfl | hy
      · simp [ht]
      · have hne : y.1.place ≠ x.1.place := by
          intro heq
          apply hplace.1
          rw [← heq]
          exact List.mem_map_of_mem hy
        dsimp only
        rw [if_neg hne]
        exact hname y hy

variable {c : Catalog} {tier : Tier} {first s t : Session}

/-- The words for what has no name in the catalog: none at all, pronouns, and stand-ins. -/
def fixedWords : List Text :=
  [[], "him".toList, "her".toList, "it".toList, "them".toList, "a person".toList,
    "objects".toList, "somewhere".toList, "apartment".toList]

theorem pronoun_mem_fixedWords (s : Session) : s.pronoun ∈ fixedWords := by
  have hthem : "them".toList ∈ fixedWords := by decide
  unfold pronoun
  dsimp only
  split
  · next m _ =>
      cases m.kind with
      | none => exact hthem
      | some k => cases k <;> decide
  · exact hthem

/-- A wildcard stays as it is, or an entity of the catalog is named for it, or there are words for
it. -/
inductive Displayed (c : Catalog) (w : Wildcard) : Value → Prop
  | source : Displayed c w (.text w.source)
  | entity {k : Collection} {e : Entity} (mem : e ∈ c.entities k) : Displayed c w e.name
  | words {t : Text} (mem : t ∈ fixedWords) : Displayed c w (.text t)

theorem displayed_display (h : Orderly first (stock c tier) s.books) {w : Wildcard}
    {element : Option Element} (hresult : (resolve w s).result = .ok element) :
    Displayed c w (w.display element) := by
  rcases entry_or_plain hresult with ⟨_, _, e, _, rfl⟩ | plain
  · obtain ⟨k, hmem⟩ := h.balanced.mem_entities_of_result hresult
    exact .entity hmem
  · generalize (resolve w s).kind = kind at plain
    cases plain with
    | unknown => exact .source
    | blank => exact .words List.mem_cons_self
    | pronoun => exact .words (pronoun_mem_fixedWords s)

theorem text_of_displayed (named : c.NamesAreText) {w : Wildcard} {v : Value}
    (h : Displayed c w v) : ∃ text, v = .text text := by
  cases h with
  | source => exact ⟨_, rfl⟩
  | entity hmem => exact named _ _ hmem
  | words => exact ⟨_, rfl⟩

theorem text_display (named : c.NamesAreText) (h : Orderly first (stock c tier) s.books)
    {w : Wildcard} {element : Option Element} (hresult : (resolve w s).result = .ok element) :
    ∃ text, w.display element = .text text :=
  text_of_displayed named (displayed_display h hresult)

/-! ## Runs that follow a journey -/

/-- A run takes its session the way of a journey: both fail of the same shortage, or both come to an
end and what the run gives was made of the elements met on the way. -/
inductive Follows {α : Type} (made : List (Option Element) → α → Prop) :
    Except Shortage (List (Option Element)) × Session → Run α → Prop
  | short {e : Shortage} {u v : Session} (alike : Alike u v) :
      Follows made (.error e, u) (.error (.exhausted e), v)
  | done {elements : List (Option Element)} {a : α} {u v : Session} (alike : Alike u v)
      (shown : made elements a) : Follows made (.ok elements, u) (.ok a, v)

/-- The same for a run that may also get stuck on the way, of causes that no journey knows. -/
inductive FollowsUnless {α : Type} (stuck : Failure → Prop)
    (made : List (Option Element) → α → Prop) :
    Except Shortage (List (Option Element)) × Session → Run α → Prop
  | short {e : Shortage} {u v : Session} (alike : Alike u v) :
      FollowsUnless stuck made (.error e, u) (.error (.exhausted e), v)
  | done {elements : List (Option Element)} {a : α} {u v : Session} (alike : Alike u v)
      (shown : made elements a) : FollowsUnless stuck made (.ok elements, u) (.ok a, v)
  | stuck {e : Failure} (journey : Except Shortage (List (Option Element)) × Session) (v : Session)
      (he : stuck e) : FollowsUnless stuck made journey (.error e, v)

namespace FollowsUnless

variable {α β : Type} {stuck : Failure → Prop} {made : List (Option Element) → α → Prop}
  {madeNext : List (Option Element) → β → Prop} {run : Run α}

theorem map {journey : Except Shortage (List (Option Element)) × Session} {f : α → β}
    (h : FollowsUnless stuck made journey run)
    (hmade : ∀ elements a, made elements a → madeNext elements (f a)) :
    FollowsUnless stuck madeNext journey (run.map f) := by
  cases h with
  | short halike => exact .short halike
  | done halike hshown => exact .done halike (hmade _ _ hshown)
  | stuck journey v he => exact .stuck journey v he

/-- One run follows the first part of a journey, the next the rest. -/
theorem bind {stops rest : List Stop} {next : α → Session → Run β}
    (hrun : FollowsUnless stuck made (travel visit stops s) run)
    (hnext : ∀ elements a u v, travel visit stops s = (.ok elements, u) → Alike u v →
      made elements a →
        FollowsUnless stuck (fun others b => madeNext (elements ++ others) b) (travel visit rest u)
          (next a v)) :
    FollowsUnless stuck madeNext (travel visit (stops ++ rest) s) (run.bind next) := by
  rw [travel_append]
  generalize travel visit stops s = x at hrun hnext ⊢
  cases hrun with
  | short halike => exact .short halike
  | stuck journey v he => exact .stuck _ v he
  | @done elements a u v halike hshown =>
      have h := hnext elements a u v rfl halike hshown
      dsimp only [Run.bind]
      generalize travel visit rest u = y at h ⊢
      generalize next a v = z at h ⊢
      cases h with
      | short halike => exact .short halike
      | done halike hshown => exact .done halike hshown
      | stuck journey v he => exact .stuck _ v he

theorem finish {journey : Except Shortage (List (Option Element)) × Session}
    {next : α → Session → Run β} (hrun : FollowsUnless stuck made journey run)
    (hnext : ∀ elements a v, made elements a → (∃ e, next a v = (.error e, v) ∧ stuck e) ∨
      ∃ b, next a v = (.ok b, v) ∧ madeNext elements b) :
    FollowsUnless stuck madeNext journey (run.bind next) := by
  cases hrun with
  | short halike => exact .short halike
  | stuck journey v he => exact .stuck journey v he
  | @done elements a u v halike hshown =>
      rw [Run.bind]
      rcases hnext elements a v hshown with ⟨e, hnext, he⟩ | ⟨b, hnext, hmade⟩
      · rw [hnext]
        exact .stuck _ v he
      · rw [hnext]
        exact .done halike hmade

theorem single {stop : Stop} {q : Resolution} (hresult : (visit stop s).result = q.result)
    (halike : Alike (visit stop s).session q.session) :
    FollowsUnless stuck
      (fun elements element => elements = [element] ∧ (visit stop s).result = .ok element)
      (travel visit [stop] s) q.run := by
  unfold Resolution.run travel
  rw [← hresult]
  cases (visit stop s).result with
  | error e => exact .short halike
  | ok element => exact .done halike ⟨rfl, rfl⟩

theorem follows {journey : Except Shortage (List (Option Element)) × Session}
    {made' : List (Option Element) → α → Prop}
    (h : FollowsUnless (fun _ => False) made journey run)
    (hmade : ∀ elements a, made elements a → made' elements a) : Follows made' journey run := by
  cases h with
  | short halike => exact .short halike
  | done halike hshown => exact .done halike (hmade _ _ hshown)
  | stuck _ _ he => exact he.elim

end FollowsUnless

theorem Orderly.travel (h : Orderly first (stock c tier) s.books) {stops : List Stop}
    {journey : Except Shortage (List (Option Element))} {u : Session}
    (htravel : travel visit stops s = (journey, u)) : Orderly first (stock c tier) u.books := by
  have hkept := travel_keep (fun w _ h => Orderly.afterResolve h w) stops h
  rw [htravel] at hkept
  exact hkept

/-! ## Readers of metadata -/

theorem concat?_cons (text : Text) (vs : List Value) :
    Task.concat? (.text text :: vs) = (Task.concat? vs).map (text ++ ·) := by
  unfold Task.concat?
  cases h : vs.mapM Value.text? <;> simp [h, Value.text?]

theorem names_block {name : List Nat → Text} {levels : Nat} {around : List Nat}
    {x : Wildcard × Nat} {rest : List Stop} {element : Option Element}
    {inner others : List (Option Element)}
    (hlength : inner.length = (stopsWithin levels (x.2 :: around) x.1.metadata).length) :
    Names name ((stopsAt levels around x ++ rest).zip ([element] ++ (inner ++ others))) ↔
      .text (name (x.2 :: around)) = x.1.display element ∧
        Names name ((stopsWithin levels (x.2 :: around) x.1.metadata).zip inner) ∧
          Names name (rest.zip others) := by
  unfold stopsAt
  rw [List.cons_append, List.singleton_append, List.zip_cons_cons, List.zip_append hlength.symm,
    ← names_append]
  exact List.forall_mem_cons

/-- The lines are those of the metadata text, whatever names its wildcards were given. -/
def LinesMade (levels : Nat) (around : List Nat) (text : Text)
    (elements : List (Option Element)) (lines : List Text) : Prop :=
  ∀ name, Names name ((stopsWithin levels around text).zip elements) →
    lines = linesIn name levels around text

def OwnMade (levels : Nat) (around : List Nat) (x : Wildcard × Nat)
    (elements : List (Option Element)) (lines : List Text) : Prop :=
  ∀ name, Names name ((stopsWithin levels (x.2 :: around) x.1.metadata).zip elements) →
    lines = linesAt name levels around x

/-- The same for segments of a metadata text; `i` of its wildcards stand before them. -/
def SegmentsMade (stuck : Failure → Prop) (levels : Nat) (around : List Nat) (i : Nat)
    (segments : List Segment) (elements : List (Option Element)) (a : List Value × List Text) : Prop :=
  let inside := (segments.filterMap Segment.wildcard?).zipIdx i
  (stuck .nameNotText ∨ ∃ text, Task.concat? a.1 = some text) ∧
    ∀ name, Names name ((inside.flatMap (stopsAt levels around)).zip elements) →
      Task.concat? a.1 = some (fill (fun i => name (i :: around)) i segments) ∧
        a.2 = inside.flatMap (linesAt name levels around)

variable {stuck : Failure → Prop}

/-- The reader of metadata on some level follows the stops there, as long as all numbers can be read or
the run may get stuck. -/
def ReaderFollows (stuck : Failure → Prop) (c : Catalog) (tier : Tier) (first : Session)
    (levels : Nat) : Prop :=
  ∀ {around : List Nat} {text : Text} {s t : Session}, around ≠ [] →
    Orderly first (stock c tier) s.books → Alike s t →
    stuck .oversizedNumber ∨ Text.NumbersFit levels text →
    FollowsUnless stuck (LinesMade levels around text)
      (travel visit (stopsWithin levels around text) s) (metadataReader levels text t)

theorem followsUnless_linesOf {levels : Nat} (hreader : ReaderFollows stuck c tier first levels)
    (horder : Orderly first (stock c tier) s.books) (halike : Alike s t) (w : Wildcard) (i : Nat)
    (around : List Nat) (hfit : stuck .oversizedNumber ∨ Text.NumbersFit levels w.metadata) :
    FollowsUnless stuck (OwnMade levels around (w, i))
      (travel visit (stopsWithin levels (i :: around) w.metadata) s)
      (linesOf (metadataReader levels) w t) := by
  unfold linesOf OwnMade linesAt
  by_cases hempty : w.metadata.isEmpty = true
  · have hnil : w.metadata = [] := List.isEmpty_iff.mp hempty
    rw [if_pos hempty, hnil, stopsWithin_nil]
    refine .done halike ?_
    intro name _
    rfl
  · simp only [if_neg hempty]
    exact hreader (List.cons_ne_nil i around) horder halike hfit

theorem followsUnless_replaceSegments (named : stuck .nameNotText ∨ c.NamesAreText) {levels : Nat}
    (hreader : ReaderFollows stuck c tier first levels) {around : List Nat} (haround : around ≠ [])
    (segments : List Segment) {i : Nat} {s t : Session}
    (horder : Orderly first (stock c tier) s.books) (halike : Alike s t)
    (hsized : stuck .oversizedNumber ∨ .oversized ∉ segments)
    (hfit : ∀ w ∈ segments.filterMap Segment.wildcard?,
      stuck .oversizedNumber ∨ Text.NumbersFit levels w.metadata) :
    FollowsUnless stuck (SegmentsMade stuck levels around i segments)
      (travel visit (((segments.filterMap Segment.wildcard?).zipIdx i).flatMap
        (stopsAt levels around)) s)
      (replaceSegments (metadataReader levels) segments t) := by
  induction segments generalizing i s t with
  | nil =>
      refine .done halike ⟨.inr ⟨[], rfl⟩, ?_⟩
      intro name _
      exact ⟨rfl, rfl⟩
  | cons segment segments ih =>
      have hsizedRest : stuck .oversizedNumber ∨ .oversized ∉ segments :=
        hsized.imp_right fun hsized hmem => hsized (List.mem_cons_of_mem _ hmem)
      cases segment with
      | oversized =>
          rcases hsized with hstuck | hsized
          · exact .stuck _ t hstuck
          · exact absurd List.mem_cons_self hsized
      | char char =>
          rw [replaceSegments_char]
          refine (ih (i := i) horder halike hsizedRest hfit).map ?_
          rintro elements ⟨shown, lines⟩ ⟨htext, hnames⟩
          refine ⟨htext.imp_right ?_, ?_⟩
          · rintro ⟨text, htext⟩
            exact ⟨char :: text, by rw [concat?_cons, htext]; rfl⟩
          · intro name hname
            obtain ⟨hshown, hlines⟩ := hnames name hname
            refine ⟨?_, hlines⟩
            rw [concat?_cons, hshown]
            rfl
      | wildcard w =>
          simp only [List.filterMap_cons, Segment.wildcard?, List.forall_mem_cons] at hfit
          let stop : Stop := { place := i :: around, wildcard := w }
          let inner := stopsWithin levels (i :: around) w.metadata
          let rest := ((segments.filterMap Segment.wildcard?).zipIdx (i + 1)).flatMap
            (stopsAt levels around)
          have hvisit : visit stop s = resolve w s := visit_inner haround i w s
          obtain ⟨_, hresult, hturned⟩ := halike.afterResolve w
          rw [← hvisit] at hresult hturned
          rw [replaceSegments_wildcard]
          -- Three journeys in a row: the wildcard, the stops in its metadata, those of the rest.
          show FollowsUnless stuck _ (travel visit ([stop] ++ (inner ++ rest)) s) _
          refine (FollowsUnless.single hresult hturned).bind ?_
          rintro _ element u v htravel halike ⟨rfl, hgot⟩
          have horderInner := horder.travel htravel
          refine (followsUnless_linesOf hreader horderInner halike w i around hfit.1).bind ?_
          rintro elements own u v htravel halike hown
          have hlength : elements.length = inner.length := length_travel (by rw [htravel])
          have horderRest := horderInner.travel htravel
          refine (ih (i := i + 1) horderRest halike hsizedRest hfit.2).map ?_
          rintro others ⟨shown, lines⟩ ⟨htext, hnames⟩
          constructor
          · rcases named with hstuck | named
            · exact .inl hstuck
            · refine htext.imp_right ?_
              rintro ⟨text, htext⟩
              obtain ⟨display, hdisplay⟩ := text_display named horder (hvisit ▸ hgot)
              exact ⟨display ++ text, by rw [hdisplay, concat?_cons, htext]; rfl⟩
          · intro name hname
            obtain ⟨hself, hinner, hothers⟩ := (names_block (x := (w, i)) hlength).mp hname
            obtain ⟨hshown, hlines⟩ := hnames name hothers
            dsimp only at hself hshown hlines
            constructor
            · rw [← hself, concat?_cons, hshown]
              rfl
            · show own ++ lines = _
              rw [hown name hinner, hlines]
              rfl

theorem followsUnless_replaceText (named : stuck .nameNotText ∨ c.NamesAreText) {levels : Nat}
    (hreader : ReaderFollows stuck c tier first levels) {around : List Nat} (haround : around ≠ [])
    {text : Text} (horder : Orderly first (stock c tier) s.books) (halike : Alike s t)
    (hfit : stuck .oversizedNumber ∨ Text.NumbersFit (levels + 1) text) :
    FollowsUnless stuck
      (fun elements a =>
        LinesMade (levels + 1) around text elements (Text.metadataLines a.1 ++ a.2))
      (travel visit (stopsWithin (levels + 1) around text) s)
      (replaceText (metadataReader levels) text t) := by
  rw [replaceText_eq]
  refine (followsUnless_replaceSegments named hreader haround (Text.segments text) (i := 0) horder
    halike (hfit.imp_right And.left) fun w hw => hfit.imp_right fun h => h.2 w hw).finish ?_
  rintro elements ⟨shown, lines⟩ v ⟨htext, hnames⟩
  dsimp only at htext ⊢
  cases hfilled : Task.concat? shown with
  | none =>
      rw [hfilled] at htext
      have hstuck := htext.resolve_right fun ⟨_, h⟩ => nomatch h
      exact .inl ⟨.nameNotText, rfl, hstuck⟩
  | some filled =>
      refine .inr ⟨(filled, lines), rfl, ?_⟩
      intro name hname
      obtain ⟨hshown, hlines⟩ := hnames name hname
      have heq := Option.some.inj (hfilled.symm.trans hshown)
      dsimp only at hlines ⊢
      rw [heq, hlines]
      rfl

/-- Whatever the level, the reader of metadata follows the stops there. -/
theorem followsUnless_metadataReader (named : stuck .nameNotText ∨ c.NamesAreText) (levels : Nat) :
    ReaderFollows stuck c tier first levels := by
  induction levels with
  | zero =>
      intro around text s t _ _ halike _
      refine .done ⟨?_, halike.mentions, halike.current⟩ ?_
      · rw [books_record_nestedTooDeep]
        exact halike.books
      · intro name _
        rfl
  | succ levels ih =>
      intro around text s t haround horder halike hfit
      rw [metadataReader_succ]
      exact (followsUnless_replaceText named ih haround horder halike hfit).map
        fun _ _ hmade => hmade

end Session

end Errand
