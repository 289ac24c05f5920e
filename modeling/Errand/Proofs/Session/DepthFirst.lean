import Errand.Proofs.Session.MetadataLines

/-! # Tasks follow their itinerary

A task resolves the wildcards of its itinerary one after the other and nothing else. If one of them
gets nothing, the task fails there and then; otherwise its metadata are the lines of the metadata
texts, each filled with the names of the wildcards in it, in the order of the itinerary.
-/

namespace Errand

def Kind.isObscurable : Kind → Bool
  | .gesture | .question | .void | .pron => false
  | _ => true

def Wildcard.isConcealed (w : Wildcard) : Bool := w.obfuscated && w.kind?.any Kind.isObscurable

theorem Piece.filterMap_prependChar (char : Char) (pieces : List Piece) :
    (prependChar char pieces).filterMap wildcard? = pieces.filterMap wildcard? := by
  unfold prependChar
  split <;> rfl

theorem Piece.filterMap_ofSegments {segments : List Segment} (h : .oversized ∉ segments) :
    (ofSegments segments).filterMap wildcard? = segments.filterMap Segment.wildcard? := by
  induction segments with
  | nil => rfl
  | cons segment segments ih =>
      have hrest := ih fun hmem => h (List.mem_cons_of_mem segment hmem)
      cases segment with
      | char char =>
          rw [ofSegments, filterMap_prependChar, hrest]
          rfl
      | wildcard w =>
          rw [ofSegments, List.filterMap_cons, hrest]
          rfl
      | oversized => exact absurd List.mem_cons_self h

theorem Text.wildcards?_eq_some {t : Text} (h : .oversized ∉ segments t) :
    wildcards? t = some (wildcards t) := by
  unfold wildcards? wildcards
  simp [h]

namespace Session

/-- The metadata lines for a wildcard of a prototype: those of its own metadata, and where a stand-in
is shown for it, its name. -/
def tokenLines (name : List Nat → Text) (x : Wildcard × Nat) : List Text :=
  linesAt name depthLimit [] x ++ if x.1.isConcealed then [name [x.2]] else []

def taskLines (name : List Nat → Text) (prototype : Text) : List Text :=
  (Text.wildcards prototype).zipIdx.flatMap (tokenLines name)

variable {c : Catalog} {tier : Tier} {first s t : Session}

theorem standIn?_of_result (h : Orderly first (stock c tier) s.books) {w : Wildcard}
    {element : Option Element} (hresult : (resolve w s).result = .ok element) :
    (element.bind w.standIn?).isSome = w.kind?.any Kind.isObscurable := by
  rcases entry_or_plain hresult with ⟨n, k, e, ⟨hn, hk⟩, rfl⟩ | plain
  · obtain ⟨_, hchoice, _, haccepts⟩ := h.kind_of_entry hn hresult
    have hdescribes := describes_of_mem_choices hchoice haccepts
    cases n with
    | beacon | placement =>
        obtain ⟨r, hr⟩ := Kind.room?_of_describes (by decide) hdescribes
        rw [Option.bind_some, Wildcard.standIn?_of_room hn (by decide) hr, hn]
        rfl
    | object | aobject | kobject =>
        obtain ⟨d, hd⟩ := Kind.category?_of_describes rfl hdescribes
        rw [Option.bind_some, Wildcard.standIn?_of_category hn (by decide) hd, hn]
        rfl
    | _ =>
        rw [Option.bind_some]
        unfold Wildcard.standIn?
        rw [hn]
        rfl
  · generalize (resolve w s).kind = kind at plain
    cases plain with
    | unknown hkind =>
        rw [hkind]
        rfl
    | blank hkind =>
        rw [Option.bind_some]
        unfold Wildcard.standIn?
        rcases hkind with hname | hkind
        · rw [Wildcard.kind?_of_blank hname]
          rfl
        · rw [hkind]
          rfl
    | pronoun hkind =>
        rw [Option.bind_some]
        unfold Wildcard.standIn?
        rw [hkind]
        rfl

theorem tokenOf_of_shown {w : Wildcard} {element : Option Element}
    (h : w.obfuscated = false ∨ element.bind w.standIn? = none) (lines : List Text) :
    tokenOf w element lines = { source := w.source, element, metadata := lines.map .text } := by
  unfold tokenOf
  cases element with
  | none => rfl
  | some x =>
      rw [Option.bind_some] at h
      rcases h with h | h <;> simp [h]

theorem tokenOf_of_concealed {w : Wildcard} {x coarser : Element} (h : w.obfuscated = true)
    (hcoarser : w.standIn? x = some coarser) (lines : List Text) :
    tokenOf w (some x) lines =
      { source := w.source, element := some coarser, metadata := lines.map .text ++ [x.name] } := by
  simp [tokenOf, h, hcoarser]

theorem metadata_tokenOf (h : Orderly first (stock c tier) s.books) {w : Wildcard}
    {element : Option Element} (hresult : (resolve w s).result = .ok element) {name : Text}
    (hname : .text name = w.display element) (lines : List Text) :
    (tokenOf w element lines).metadata =
      (lines ++ if w.isConcealed then [name] else []).map .text := by
  have hstandIn := standIn?_of_result h hresult
  unfold Wildcard.isConcealed
  rw [← hstandIn]
  cases hcoarser : element.bind w.standIn? with
  | none =>
      rw [tokenOf_of_shown (.inr hcoarser)]
      simp
  | some coarser =>
      cases hmarked : w.obfuscated with
      | false =>
          rw [tokenOf_of_shown (.inl hmarked)]
          simp
      | true =>
          obtain ⟨x, rfl, hx⟩ := Option.bind_eq_some_iff.mp hcoarser
          have hxname : x.name = .text name := hname.symm
          rw [tokenOf_of_concealed hmarked hx]
          simp [hxname]

/-! ## Work on pieces -/

/-- The wildcards of the prototype itself among those met on the way, and what they got. -/
def outermost (visited : List (Stop × Option Element)) : List (Wildcard × Option Element) :=
  (visited.filter fun x => x.1.place.length = 1).map fun x => (x.1.wildcard, x.2)

/-- A block of the journey has one wildcard of the prototype itself, the first. -/
theorem outermost_block {levels : Nat} {x : Wildcard × Nat} {rest : List Stop}
    {element : Option Element} {inner others : List (Option Element)}
    (hlength : inner.length = (stopsWithin levels [x.2] x.1.metadata).length) :
    outermost ((stopsAt levels [] x ++ rest).zip ([element] ++ (inner ++ others))) =
      (x.1, element) :: outermost (rest.zip others) := by
  have hinner : ((stopsWithin levels [x.2] x.1.metadata).zip inner).filter
      (fun x => x.1.place.length = 1) = [] := by
    rw [List.filter_eq_nil_iff]
    rintro ⟨stop, y⟩ hmem
    obtain ⟨i, hi⟩ := suffix_of_mem_stopsWithin (List.of_mem_zip hmem).1
    have hlong := hi.length_le
    simp only [List.length_cons, List.length_nil] at hlong
    simp only [decide_eq_true_eq]
    omega
  unfold stopsAt outermost
  rw [List.cons_append, List.singleton_append, List.zip_cons_cons, List.zip_append hlength.symm,
    List.filter_cons_of_pos (by simp), List.filter_append, hinner, List.nil_append, List.map_cons]

/-- The tokens for pieces whose wildcards got these elements. -/
inductive Rendered : List Piece → List (Wildcard × Option Element) → List Token → Prop
  | nil : Rendered [] [] []
  | literal (t : Text) {pieces : List Piece} {got : List (Wildcard × Option Element)}
      {tokens : List Token} (rest : Rendered pieces got tokens) :
      Rendered (.literal t :: pieces) got (.literal t :: tokens)
  | wildcard (w : Wildcard) (element : Option Element) (lines : List Text) {pieces : List Piece}
      {got : List (Wildcard × Option Element)} {tokens : List Token}
      (rest : Rendered pieces got tokens) :
      Rendered (.wildcard w :: pieces) ((w, element) :: got) (tokenOf w element lines :: tokens)

/-- The tokens are those of the pieces, whatever names their wildcards were given; `k` wildcards
stand before them. -/
def TokensMade (k : Nat) (pieces : List Piece) (elements : List (Option Element))
    (tokens : List Token) : Prop :=
  let inside := (pieces.filterMap Piece.wildcard?).zipIdx k
  Rendered pieces (outermost ((inside.flatMap (stopsAt depthLimit [])).zip elements)) tokens ∧
    ∀ name, Names name ((inside.flatMap (stopsAt depthLimit [])).zip elements) →
      tokens.flatMap Token.metadata = (inside.flatMap (tokenLines name)).map .text

variable {stuck : Failure → Prop}

theorem followsUnless_work (named : stuck .nameNotText ∨ c.NamesAreText) (pieces : List Piece)
    {k : Nat} {s t : Session} (horder : Orderly first (stock c tier) s.books) (halike : Alike s t)
    (hfit : ∀ w ∈ pieces.filterMap Piece.wildcard?,
      stuck .oversizedNumber ∨ Text.NumbersFit depthLimit w.metadata) :
    FollowsUnless stuck (TokensMade k pieces)
      (travel visit (((pieces.filterMap Piece.wildcard?).zipIdx k).flatMap
        (stopsAt depthLimit [])) s)
      (work pieces k t) := by
  induction pieces generalizing k s t with
  | nil =>
      refine .done halike ⟨.nil, ?_⟩
      intro name _
      rfl
  | cons piece pieces ih =>
      cases piece with
      | literal text =>
          rw [work_literal]
          refine (ih (k := k) horder halike hfit).map fun _ _ hmade => ?_
          exact ⟨.literal text hmade.1, hmade.2⟩
      | wildcard w =>
          simp only [List.filterMap_cons, Piece.wildcard?, List.forall_mem_cons] at hfit
          let stop : Stop := { place := [k], wildcard := w }
          let inner := stopsWithin depthLimit [k] w.metadata
          let rest := ((pieces.filterMap Piece.wildcard?).zipIdx (k + 1)).flatMap
            (stopsAt depthLimit [])
          have hvisit : visit stop s = resolveAt k w s := rfl
          obtain ⟨hresult, hturned⟩ := halike.resolveAt k w
          rw [← hvisit] at hresult hturned
          rw [work_wildcard]
          show FollowsUnless stuck _ (travel visit ([stop] ++ (inner ++ rest)) s) _
          refine (FollowsUnless.single hresult hturned).bind ?_
          rintro _ element u v htravel halike ⟨rfl, hgot⟩
          have horderInner := horder.travel htravel
          refine (followsUnless_linesOf (followsUnless_metadataReader named depthLimit) horderInner
            halike w k [] hfit.1).bind ?_
          rintro elements own u v htravel halike hown
          have hlength : elements.length = inner.length := length_travel (by rw [htravel])
          have horderRest := horderInner.travel htravel
          refine (ih (k := k + 1) horderRest halike hfit.2).map ?_
          rintro others tokens ⟨hrendered, hmade⟩
          constructor
          · show Rendered _ (outermost ((stopsAt depthLimit [] (w, k) ++ rest).zip _)) _
            rw [outermost_block hlength]
            exact .wildcard w element own hrendered
          · intro name hname
            obtain ⟨hself, hinner, hothers⟩ := (names_block (x := (w, k)) hlength).mp hname
            have horderTurned : Orderly first (stock c tier) { s with current := k }.books := horder
            have htoken : (tokenOf w element own).metadata =
                (tokenLines name (w, k)).map .text := by
              rw [metadata_tokenOf horderTurned hgot hself, hown name hinner]
              rfl
            rw [List.flatMap_cons, htoken, hmade name hothers, ← List.map_append]
            rfl

/-! ## Tasks -/

theorem task_of_oversized {prototype : Text} (h : .oversized ∈ Text.segments prototype)
    (s : Session) : s.task prototype = (.error .oversizedNumber, s) := by
  have hnone : Text.wildcards? prototype = none := by
    unfold Text.wildcards?
    rw [if_pos (by simpa using h)]
  rw [Session.task, hnone]

theorem sized_of_task {prototype : Text} {task : Task}
    (h : s.task prototype = (.ok task, t)) : .oversized ∉ Text.segments prototype := by
  intro hmem
  rw [task_of_oversized hmem] at h
  cases h

/-- A task follows the itinerary of its prototype unless it gets stuck. Its tokens are those for what
the wildcards of the prototype got, and its metadata are the lines for it. -/
theorem followsUnless_task (named : stuck .nameNotText ∨ c.NamesAreText)
    (horder : Orderly first (stock c tier) s.books) {prototype : Text}
    (hfit : stuck .oversizedNumber ∨ Text.NumbersFit (depthLimit + 1) prototype) :
    FollowsUnless stuck
      (fun elements task =>
        Rendered (Piece.ofSegments (Text.segments prototype))
            (outermost ((itinerary prototype).zip elements)) task.tokens ∧
          ∀ name, Names name ((itinerary prototype).zip elements) →
            task.metadata = (taskLines name prototype).map .text)
      (travel visit (itinerary prototype) (s.opened prototype)) (task prototype s) := by
  by_cases sized : .oversized ∈ Text.segments prototype
  · rw [task_of_oversized sized]
    exact .stuck _ s (hfit.resolve_right fun h => h.1 sized)
  · have hpieces : (Piece.ofSegments (Text.segments prototype)).filterMap Piece.wildcard? =
        Text.wildcards prototype := Piece.filterMap_ofSegments sized
    have horderOpened : Orderly first (stock c tier) (s.opened prototype).books := horder
    have hwork := followsUnless_work named (Piece.ofSegments (Text.segments prototype)) (k := 0)
      horderOpened ⟨rfl, rfl, rfl⟩ (by
        rw [hpieces]
        exact fun w hw => hfit.imp_right fun h => h.2 w hw)
    unfold TokensMade at hwork
    rw [hpieces] at hwork
    rw [task_eq (Text.wildcards?_eq_some sized)]
    exact hwork.map fun _ _ hmade => hmade

theorem follows_task (named : c.NamesAreText) (horder : Orderly first (stock c tier) s.books)
    {prototype : Text} (hfit : Text.NumbersFit (depthLimit + 1) prototype) :
    Follows
      (fun elements task => ∀ name, Names name ((itinerary prototype).zip elements) →
        task.metadata = (taskLines name prototype).map .text)
      (travel visit (itinerary prototype) (s.opened prototype)) (task prototype s) :=
  (followsUnless_task (.inr named) horder (.inr hfit)).follows fun _ _ hmade => hmade.2

theorem text_display_of_travel (named : c.NamesAreText) {stops : List Stop}
    (horder : Orderly first (stock c tier) s.books) {elements : List (Option Element)}
    (h : (travel visit stops s).1 = .ok elements) :
    ∀ x ∈ stops.zip elements, ∃ text, x.1.wildcard.display x.2 = .text text := by
  induction stops generalizing s elements with
  | nil => simp
  | cons stop stops ih =>
      obtain ⟨element, later, hresult, hrest, rfl⟩ := travel_cons_eq_ok.mp (Prod.ext h rfl)
      have horderVisit : Orderly first (stock c tier) (visit stop s).session.books := by
        rw [(sameTurn_visit rfl stop).books]
        exact horder.afterResolve stop.wildcard
      intro x hx
      rcases List.mem_cons.mp hx with rfl | hx
      · obtain ⟨u, hbooks, heq⟩ := exists_resolve_of_visit stop s
        rw [heq] at hresult
        exact text_display named (by rwa [hbooks]) hresult
      · exact ih horderVisit (by rw [hrest]) x hx

theorem exists_names_of_travel (named : c.NamesAreText) {levels : Nat} {around : List Nat}
    {text : Text} (horder : Orderly first (stock c tier) s.books)
    {elements : List (Option Element)}
    (h : (travel visit (stopsWithin levels around text) s).1 = .ok elements) :
    ∃ name, Names name ((stopsWithin levels around text).zip elements) := by
  have hplaces : (((stopsWithin levels around text).zip elements).map fun x => x.1.place).Nodup := by
    rw [map_place_zip (length_travel h)]
    exact nodup_place_stopsWithin levels around text
  exact exists_names hplaces (text_display_of_travel named horder h)

/-- A task of a session does to the books what resolving the wildcards of its itinerary one after
the other does. If one of them gets nothing, the task fails of the same shortage. Otherwise it gets
what these get, pronouns apart, and its metadata are the lines for its prototype, each filled with
what is shown for the wildcards in it. -/
theorem task_follows_itinerary (c : Catalog) (named : c.NamesAreText) (dice : Dice) (tier : Tier)
    (calls : List Call) (prototype : Text) (fits : Text.NumbersFit (depthLimit + 1) prototype) :
    let s := (start c dice tier).after calls
    let stops := itinerary prototype
    match travel resolve (stops.map Stop.wildcard) s with
    | (.error shortage, t) =>
        ∃ u, s.task prototype = (.error (.exhausted shortage), u) ∧ u.books = t.books
    | (.ok gotten, t) =>
        ∃ task u elements name, s.task prototype = (.ok task, u) ∧ u.books = t.books ∧
          (travel visit stops (s.opened prototype)).1 = .ok elements ∧
          elements.length = stops.length ∧
          elements.map (Option.map Element.wordless) = gotten.map (Option.map Element.wordless) ∧
          Names name (stops.zip elements) ∧
          task.metadata = (taskLines name prototype).map .text := by
  intro s stops
  have horder : Orderly (start c dice tier) (stock c tier) s.books := orderly_after c dice tier calls
  have hfollows := follows_task named horder fits
  obtain ⟨hgotten, hbooks⟩ := travel_visit stops (s := s.opened prototype) (t := s) rfl
  change Follows _ (travel visit stops (s.opened prototype)) _ at hfollows
  rcases hjourney : travel visit stops (s.opened prototype) with ⟨x, u⟩
  rcases hcalls : travel resolve (stops.map Stop.wildcard) s with ⟨y, t⟩
  rcases htask : s.task prototype with ⟨z, v⟩
  rw [hjourney, hcalls] at hgotten hbooks
  rw [hjourney, htask] at hfollows
  cases hfollows with
  | @short shortage _ _ halike =>
      cases y with
      | ok gotten => simp [Except.map] at hgotten
      | error other =>
          obtain rfl : shortage = other := by simpa [Except.map] using hgotten
          exact ⟨v, rfl, halike.books.symm.trans hbooks⟩
  | @done elements task _ _ halike hmade =>
      cases y with
      | error other => simp [Except.map] at hgotten
      | ok gotten =>
          have htravel : (travel visit stops (s.opened prototype)).1 = .ok elements := by
            rw [hjourney]
          have hlength : elements.length = stops.length := length_travel htravel
          obtain ⟨name, hname⟩ := exists_names_of_travel named (s := s.opened prototype) horder htravel
          have hsame : elements.map (Option.map Element.wordless) =
              gotten.map (Option.map Element.wordless) := by
            simpa [Except.map] using hgotten
          exact ⟨task, v, elements, name, rfl, halike.books.symm.trans hbooks, rfl, hlength, hsame,
            hname, hmade name hname⟩

/-- Two wildcards in the metadata of a third, which shows a stand-in; one is of no known kind. -/
theorem task_follows_itinerary_nested :
    let c : Catalog :=
      { categories := [{ name := .text "fruits".toList, defaultLocation := .null }]
        gestures := [{ name := .text "waving".toList, tier := .easy }]
        locations := [], people := [], things := [], questions := [] }
    let prototype : Text := "Bring {category? meta: {gesture} or {fish}}.".toList
    c.NamesAreText ∧ Text.NumbersFit (depthLimit + 1) prototype ∧
      ∃ task u name, (start c ⟨0⟩ .easy).task prototype = (.ok task, u) ∧
        task.metadata = (taskLines name prototype).map .text ∧
        taskLines name prototype = ["waving or {fish}".toList, "fruits".toList] := by
  intro c prototype
  have named : c.NamesAreText := by
    intro k e he
    cases k <;> simp [Catalog.entities, c] at he <;> subst he <;> exact ⟨_, rfl⟩
  have fits : Text.NumbersFit (depthLimit + 1) prototype := by decide +kernel
  have hlines : ((start c ⟨0⟩ .easy).task prototype).1.toOption.map
      (fun task => task.metadata.filterMap Value.text?) =
        some ["waving or {fish}".toList, "fruits".toList] := by decide +kernel
  have h := task_follows_itinerary c named ⟨0⟩ .easy [] prototype fits
  have hstart : (start c ⟨0⟩ .easy).after [] = start c ⟨0⟩ .easy := rfl
  rw [hstart] at h
  dsimp only at h
  split at h
  · obtain ⟨u, htask, _⟩ := h
    rw [htask] at hlines
    simp [Except.toOption] at hlines
  · obtain ⟨task, u, _, name, htask, _, _, _, _, _, hmetadata⟩ := h
    have htexts : ((taskLines name prototype).map Value.text).filterMap Value.text? =
        taskLines name prototype := by
      rw [List.filterMap_map]
      exact List.filterMap_some
    rw [htask] at hlines
    dsimp only [Except.toOption, Option.map_some] at hlines
    rw [hmetadata, htexts] at hlines
    refine ⟨named, fits, task, u, name, ?_, ?_, ?_⟩
    · exact htask
    · exact hmetadata
    · exact Option.some.inj hlines

end Session

end Errand
