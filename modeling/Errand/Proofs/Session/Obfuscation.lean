import Errand.Proofs.Session.Agreement
import Errand.Proofs.Session.Tiling
import Errand.Proofs.Wildcard.Marker

/-! # Stand-ins change only what is shown

A wildcard that asks for a stand-in draws, is kept and is referred to like one that does not. So a task
of a prototype and the task of the same prototype without the marks come about together, and their
tokens differ in nothing but the stand-ins and the names that take a line of their own for them. A mark
inside metadata is of no effect at all, as long as nothing around it is shown as it stands.
-/

namespace Errand

/-- The wildcards ask for the same, and their sources are the same where they are shown. -/
structure Wildcard.Echoes (w v : Wildcard) : Prop where
  akin : w.Akin v
  isEmpty : w.metadata.isEmpty = v.metadata.isEmpty
  verbatim : w.kind? = none → w.source = v.source

theorem Wildcard.Echoes.refl (w : Wildcard) : w.Echoes w := ⟨.refl w, rfl, fun _ => rfl⟩

theorem Text.parallel_refl (levels : Nat) (t : Text) : Parallel Wildcard.Echoes levels t t :=
  Throughout.parallel (P := fun _ => True) ((throughout_iff []).mpr fun _ _ => trivial)
    fun w _ => .refl w

namespace Session

/-! ## Sessions abreast -/

variable {c : Catalog} {tier : Tier} {first s t : Session}

/-- Two sessions that can give the same and have come equally far in their texts; the first of them is
in order. -/
structure Abreast (first : Session) (stock : Collection → List Entry) (s t : Session) : Prop where
  supply : s.supply = t.supply
  current : s.current = t.current
  kinds : s.mentions.map Mention.kind = t.mentions.map Mention.kind
  orderly : Orderly first stock s.books

theorem Abreast.pronoun (h : Abreast first (stock c tier) s t) : s.pronoun = t.pronoun := by
  rw [pronoun_eq, pronoun_eq, h.current, h.kinds]

theorem Abreast.result (h : Abreast first (stock c tier) s t) {w v : Wildcard} (hwv : w.Akin v) :
    (resolve w s).result = (resolve v t).result :=
  (resolve_akin hwv h.supply).2.2 fun _ => h.pronoun

theorem Abreast.afterResolve (h : Abreast first (stock c tier) s t) {w v : Wildcard}
    (hwv : w.Akin v) : Abreast first (stock c tier) (resolve w s).session (resolve v t).session := by
  obtain ⟨hsMentions, hsCurrent⟩ := text_resolve w s
  obtain ⟨htMentions, htCurrent⟩ := text_resolve v t
  refine ⟨(resolve_akin hwv h.supply).2.1, ?_, ?_, h.orderly.afterResolve w⟩
  · rw [hsCurrent, htCurrent, h.current]
  · rw [hsMentions, htMentions, h.kinds]

theorem Abreast.afterResolveAt (h : Abreast first (stock c tier) s t) {w v : Wildcard}
    (hwv : w.Akin v) (k : Nat) : (resolveAt k w s).result = (resolveAt k v t).result ∧
      Abreast first (stock c tier) (resolveAt k w s).session (resolveAt k v t).session := by
  have hturned : Abreast first (stock c tier) { s with current := k } { t with current := k } :=
    ⟨h.supply, rfl, h.kinds, h.orderly⟩
  obtain ⟨hsupply, hcurrent, hkinds, horderly⟩ := hturned.afterResolve hwv
  have hkind := (resolve_akin hwv hturned.supply).1
  refine ⟨hturned.result hwv, hsupply, hcurrent, ?_, horderly⟩
  unfold resolveAt settleCurrent
  dsimp only
  rw [map_kind_modify, map_kind_modify, hkind, hkinds, hcurrent]

theorem steady_abreast : Steady Wildcard.Echoes (Abreast first (stock c tier)) .equal where
  isEmpty h := h.isEmpty
  resolve := by
    intro w v s t h abreast
    refine (Run.Agree.of_resolution (abreast.result h.akin) (abreast.afterResolve h.akin)).imp
      (fun _ _ abreast => abreast) ?_
    rintro element _ ⟨rfl, hresult⟩
    cases element with
    | some x => rfl
    | none =>
        have hsome := isSome_of_result hresult
        have hkind : w.kind? = none := by
          rw [← Option.not_isSome_iff_eq_none]
          intro hkind
          exact absurd (hsome.mpr (.inr hkind)) (by simp)
        exact congrArg Value.text (h.verbatim hkind)
  note text abreast := by
    refine ⟨abreast.supply, abreast.current, abreast.kinds, ?_⟩
    rw [books_record_nestedTooDeep]
    exact abreast.orderly

end Session

/-! ## Other wildcards in a prototype -/

def Piece.onWildcard (g : Wildcard → Wildcard) : Piece → Piece
  | .literal t => .literal t
  | .wildcard w => .wildcard (g w)

theorem Piece.prependChar_map (g : Wildcard → Wildcard) (char : Char) (pieces : List Piece) :
    prependChar char (pieces.map (onWildcard g)) = (prependChar char pieces).map (onWildcard g) := by
  cases pieces with
  | nil => rfl
  | cons piece pieces => cases piece <;> rfl

theorem Piece.ofSegments_map (g : Wildcard → Wildcard) (segments : List Segment) :
    ofSegments (segments.map (Segment.onWildcard g)) = (ofSegments segments).map (onWildcard g) := by
  induction segments with
  | nil => rfl
  | cons segment segments ih =>
      cases segment with
      | char char =>
          rw [List.map_cons, ofSegments, ← prependChar_map, ← ih]
          rfl
      | wildcard w =>
          rw [List.map_cons, ofSegments, List.map_cons, ← ih]
          rfl
      | oversized => rfl

namespace Text

variable {g : Wildcard → Wildcard} {t : Text}

theorem sized_recast (sized : .oversized ∉ segments t)
    (h : ∀ w, .wildcard w ∈ segments t → (g w).StandsFor w) :
    .oversized ∉ segments (recast g t) := by
  rw [segments_recast sized h]
  intro hmem
  obtain ⟨segment, hsegment, heq⟩ := List.mem_map.mp hmem
  cases segment with
  | oversized => exact sized hsegment
  | char c => cases heq
  | wildcard w => cases heq

theorem wildcards_recast (sized : .oversized ∉ segments t)
    (h : ∀ w, .wildcard w ∈ segments t → (g w).StandsFor w) :
    wildcards (recast g t) = (wildcards t).map g := by
  unfold wildcards
  rw [segments_recast sized h, List.filterMap_map, List.map_filterMap]
  refine List.filterMap_congr fun segment _ => ?_
  cases segment <;> rfl

end Text

/-- A wildcard of a prototype and one that takes its place: it asks for the same, has metadata that
asks for the same, and stands in the text like it. -/
structure Wildcard.Replaces (v w : Wildcard) : Prop where
  standsFor : v.StandsFor w
  akin : w.Akin v
  isEmpty : w.metadata.isEmpty = v.metadata.isEmpty
  parallel : Text.Parallel Wildcard.Echoes Session.depthLimit w.metadata v.metadata

namespace Session

variable {c : Catalog} {tier : Tier} {first s t : Session}

inductive Twins (g : Wildcard → Wildcard) : Piece → Token × Token → Prop
  | literal (t : Text) : Twins g (.literal t) (.literal t, .literal t)
  | wildcard {w : Wildcard} {element : Option Element} (lines : List Text)
      (present : element.isSome = true ↔ w.name = [] ∨ w.kind?.isSome = true)
      (coarser : (element.bind w.standIn?).isSome = w.kind?.any Kind.isObscurable) :
      Twins g (.wildcard w) (tokenOf w element lines, tokenOf (g w) element lines)

def TwinRows (g : Wildcard → Wildcard) (pieces : List Piece) (tokens others : List Token) : Prop :=
  ∃ rows : List (Token × Token), tokens = rows.map Prod.fst ∧ others = rows.map Prod.snd ∧
    List.Forall₂ (Twins g) pieces rows

theorem TwinRows.cons {g : Wildcard → Wildcard} {piece : Piece} {pieces : List Piece}
    {token other : Token} {tokens others : List Token} (h : Twins g piece (token, other))
    (hrest : TwinRows g pieces tokens others) :
    TwinRows g (piece :: pieces) (token :: tokens) (other :: others) := by
  obtain ⟨rows, rfl, rfl, hrows⟩ := hrest
  exact ⟨(token, other) :: rows, rfl, rfl, .cons h hrows⟩

theorem agree_twins {g : Wildcard → Wildcard} {pieces : List Piece} {k : Nat}
    (h : ∀ w ∈ pieces.filterMap Piece.wildcard?, (g w).Replaces w)
    (abreast : Abreast first (stock c tier) s t) :
    Run.Agree (Abreast first (stock c tier)) (TwinRows g pieces) (work pieces k s)
      (work (pieces.map (Piece.onWildcard g)) k t) := by
  induction pieces generalizing k s t with
  | nil => exact .done abreast ⟨[], rfl, rfl, .nil⟩
  | cons piece pieces ih =>
      rw [List.map_cons]
      cases piece with
      | literal text =>
          rw [Piece.onWildcard, work_literal, work_literal]
          exact (ih h abreast).map fun _ _ hrest => .cons (.literal text) hrest
      | wildcard w =>
          simp only [List.filterMap_cons, Piece.wildcard?, List.forall_mem_cons] at h
          obtain ⟨⟨_, hakin, hempty, hparallel⟩, hrest⟩ := h
          obtain ⟨hresult, hnoted⟩ := abreast.afterResolveAt hakin k
          have horder : Orderly first (stock c tier) { s with current := k }.books := abreast.orderly
          rw [Piece.onWildcard, work_wildcard, work_wildcard]
          refine (Run.Agree.of_resolution hresult hnoted).bind ?_
          rintro element _ s₁ t₁ abreast ⟨rfl, hgot⟩
          have hread := steady_abreast.metadataReader depthLimit hparallel abreast
          refine (agree_linesOf rfl hempty abreast hread).bind ?_
          rintro lines _ s₂ t₂ abreast rfl
          refine (ih hrest abreast).map fun _ _ hrest => ?_
          exact .cons (.wildcard lines (isSome_of_result hgot) (standIn?_of_result horder hgot)) hrest

/-- A task and the task of the prototype with other wildcards in the place of its own come about
together. -/
theorem agree_task_recast {g : Wildcard → Wildcard} {prototype : Text}
    (horder : Orderly first (stock c tier) s.books) (sized : .oversized ∉ Text.segments prototype)
    (h : ∀ w, .wildcard w ∈ Text.segments prototype → (g w).Replaces w) :
    Run.Agree (Abreast first (stock c tier))
      (fun task other => TwinRows g (Piece.ofSegments (Text.segments prototype)) task.tokens
        other.tokens)
      (s.task prototype) (s.task (Text.recast g prototype)) := by
  have hstands : ∀ w, .wildcard w ∈ Text.segments prototype → (g w).StandsFor w :=
    fun w hw => (h w hw).standsFor
  have hwildcards := Text.wildcards_recast sized hstands
  have hpieces : ∀ w ∈ (Piece.ofSegments (Text.segments prototype)).filterMap Piece.wildcard?,
      (g w).Replaces w := by
    rw [Piece.filterMap_ofSegments sized]
    exact fun w hw => h w (Text.mem_wildcards.mp hw)
  have hopened : Abreast first (stock c tier) (s.opened prototype)
      (s.opened (Text.recast g prototype)) := by
    refine ⟨rfl, rfl, ?_, horder⟩
    unfold opened
    rw [hwildcards]
    simp only [List.map_map]
    exact List.map_congr_left fun w hw => (h w (Text.mem_wildcards.mp hw)).akin.kind?
  rw [task_eq (Text.wildcards?_eq_some sized),
    task_eq (Text.wildcards?_eq_some (Text.sized_recast sized hstands)),
    Text.segments_recast sized hstands, Piece.ofSegments_map]
  exact (agree_twins (k := 0) hpieces hopened).map fun _ _ hrows => hrows

end Session

/-! ## Marks at the top and inside -/

theorem Wildcard.akin_unmarked (w : Wildcard) : w.Akin w.unmarked := by
  unfold unmarked
  split <;> exact ⟨rfl, rfl, rfl⟩

@[simp] theorem Wildcard.metadata_unmarked (w : Wildcard) : w.unmarked.metadata = w.metadata := by
  unfold unmarked
  split <;> rfl

@[simp] theorem Wildcard.obfuscated_unmarked (w : Wildcard) : w.unmarked.obfuscated = false := by
  cases h : w.obfuscated with
  | false => rw [unmarked_of_plain h, h]
  | true => rw [unmarked_of_marked h]

theorem Wildcard.StandsIn.replaces {w : Wildcard} {t : Text} (h : w.StandsIn t) : w.Replaces w :=
  ⟨h.refl, .refl w, rfl, Text.parallel_refl _ _⟩

theorem Wildcard.StandsIn.replaces_unmarked {w : Wildcard} {t : Text} (h : w.StandsIn t) :
    w.unmarked.Replaces w := by
  refine ⟨h.unmarked, w.akin_unmarked, by rw [metadata_unmarked], ?_⟩
  rw [metadata_unmarked]
  exact Text.parallel_refl _ _

namespace Text

theorem parallel_swap {levels : Nat} {t : Text} {w v : Wildcard} (sized : .oversized ∉ segments t)
    (hv : v.StandsFor w) (hecho : w.Echoes v)
    (hinner : Parallel Wildcard.Echoes levels w.metadata v.metadata) :
    Parallel Wildcard.Echoes (levels + 1) t (t.swap w v) := by
  unfold Parallel swap
  rw [segments_recast sized (standsFor_swap hv), List.forall₂_map_right_iff, List.forall₂_same]
  intro segment _
  cases segment with
  | char c => exact .char c
  | oversized => exact .oversized
  | wildcard x =>
      refine .wildcard ?_
      dsimp only
      split
      · next heq => exact heq ▸ ⟨hecho, hinner⟩
      · exact ⟨.refl x, parallel_refl levels x.metadata⟩

/-- A text in which a mark is gone looks the same from around and asks for the same. -/
theorem Unmarks.echoes {levels : Nat} {t u : Text} (h : Unmarks levels t u)
    (fits : NumbersFit levels t) :
    SameOutline u t ∧ Parallel Wildcard.Echoes levels t u := by
  induction h with
  | @here levels t w hw known marked =>
      have hv := (standsIn_of_mem hw).unmarked
      have hecho : w.Echoes w.unmarked :=
        ⟨w.akin_unmarked, by rw [Wildcard.metadata_unmarked], fun hkind => by simp [hkind] at known⟩
      refine ⟨outline_recast fits.1 (standsFor_swap hv), parallel_swap fits.1 hv hecho ?_⟩
      rw [Wildcard.metadata_unmarked]
      exact parallel_refl levels w.metadata
  | @within levels t before metadata gap w hw known frame inside ih =>
      have hmem : w ∈ wildcards t := mem_wildcards.mpr hw
      obtain ⟨houtline, hinner⟩ := ih (fits.2 w hmem)
      have hin := standsIn_of_mem hw
      have hv := hin.withMetadata frame houtline.braces (houtline.stripped hin.stripped)
        inside.ne_nil
      have hecho : w.Echoes (w.withMetadata before metadata gap) :=
        ⟨⟨rfl, rfl, rfl⟩, isEmpty_eq_of_braces houtline.braces.symm,
          fun hkind => by simp [hkind] at known⟩
      exact ⟨outline_recast fits.1 (standsFor_swap hv), parallel_swap fits.1 hv hecho hinner⟩

end Text

/-- The token of a wildcard that shows a stand-in beside the token of the wildcard without its mark;
other tokens differ in their sources at most. -/
inductive Token.Veils : Piece → Token × Token → Prop
  | literal (t : Text) : Veils (.literal t) (.literal t, .literal t)
  | concealed {w : Wildcard} {x coarser : Element} (lines : List Value)
      (hw : w.isConcealed = true) (hcoarser : w.standIn? x = some coarser) :
      Veils (.wildcard w)
        ({ source := w.source, element := some coarser, metadata := lines ++ [x.name] },
          { source := w.unmarked.source, element := some x, metadata := lines })
  | shown {w : Wildcard} {element : Option Element} (lines : List Value)
      (hw : w.isConcealed = false)
      (present : element.isSome = true ↔ w.name = [] ∨ w.kind?.isSome = true) :
      Veils (.wildcard w)
        ({ source := w.source, element, metadata := lines },
          { source := w.unmarked.source, element, metadata := lines })

namespace Session

theorem veils_of_twins {piece : Piece} {row : Token × Token} (h : Twins Wildcard.unmarked piece row) :
    Token.Veils piece row := by
  cases h with
  | literal t => exact .literal t
  | @wildcard w element lines present coarser =>
      rw [tokenOf_of_shown (.inl w.obfuscated_unmarked)]
      cases hw : w.isConcealed with
      | false =>
          have hshown : w.obfuscated = false ∨ element.bind w.standIn? = none := by
            rw [Wildcard.isConcealed, ← coarser, Bool.and_eq_false_iff] at hw
            simpa using hw
          rw [tokenOf_of_shown hshown]
          exact .shown _ hw present
      | true =>
          have hboth := hw
          rw [Wildcard.isConcealed, ← coarser, Bool.and_eq_true] at hboth
          obtain ⟨hmarked, hsome⟩ := hboth
          obtain ⟨y, hy⟩ := Option.isSome_iff_exists.mp hsome
          obtain ⟨x, rfl, hx⟩ := Option.bind_eq_some_iff.mp hy
          rw [tokenOf_of_concealed hmarked hx]
          exact .concealed _ hw hx

/-- Other sources and other metadata for its wildcards leave the elements and the lines of a row of
tokens as they are, if the wildcards keep their marks and their names. -/
theorem forall₂_of_twinRows {g : Wildcard → Wildcard}
    (hg : ∀ w, (g w).obfuscated = w.obfuscated ∧ (g w).name = w.name) {pieces : List Piece}
    {tokens others : List Token} (h : TwinRows g pieces tokens others) :
    List.Forall₂ (fun x y => Token.element x = Token.element y ∧ Token.metadata x = Token.metadata y)
      tokens others := by
  obtain ⟨rows, rfl, rfl, hrows⟩ := h
  induction hrows with
  | nil => exact .nil
  | cons hrow _ ih =>
      refine .cons ?_ ih
      cases hrow with
      | literal t => exact ⟨rfl, rfl⟩
      | @wildcard w element lines =>
          obtain ⟨hmark, hname⟩ := hg w
          have hkind : (g w).kind? = w.kind? := by
            unfold Wildcard.kind?
            rw [hname]
          have hstandIn : (g w).standIn? = w.standIn? := by
            funext x
            unfold Wildcard.standIn?
            rw [hkind]
          unfold tokenOf
          cases element with
          | none => exact ⟨rfl, rfl⟩
          | some x =>
              dsimp only
              rw [hmark, hstandIn]
              split <;> exact ⟨rfl, rfl⟩

variable {c : Catalog} {tier : Tier} {first s : Session}

/-- A mark that goes inside the metadata of a wildcard leaves the elements and the lines of a task as
they are. -/
theorem agree_task_swap {prototype before metadata gap : Text} {w : Wildcard}
    (horder : Orderly first (stock c tier) s.books)
    (fits : Text.NumbersFit (depthLimit + 1) prototype) (hw : w ∈ Text.wildcards prototype)
    (frame : w.Frames before gap) (inside : Text.Unmarks depthLimit w.metadata metadata) :
    Run.Agree (Abreast first (stock c tier))
      (fun task other => List.Forall₂ (fun x y => x.element = y.element ∧ x.metadata = y.metadata)
        task.tokens other.tokens)
      (s.task prototype) (s.task (prototype.swap w (w.withMetadata before metadata gap))) := by
  have hstands := Text.standsIn_of_mem (Text.mem_wildcards.mp hw)
  obtain ⟨houtline, hparallel⟩ := inside.echoes (fits.2 w hw)
  have hv := hstands.withMetadata frame houtline.braces (houtline.stripped hstands.stripped)
    inside.ne_nil
  have hreplaces : ∀ x, .wildcard x ∈ Text.segments prototype →
      (if x = w then w.withMetadata before metadata gap else x).Replaces x := by
    intro x hx
    split
    · next heq =>
        obtain rfl := heq
        exact ⟨hv, ⟨rfl, rfl, rfl⟩, Text.isEmpty_eq_of_braces houtline.braces.symm, hparallel⟩
    · exact (Text.standsIn_of_mem hx).replaces
  refine (agree_task_recast horder fits.1 hreplaces).imp (fun _ _ abreast => abreast) ?_
  intro task other hrows
  refine forall₂_of_twinRows (fun x => ?_) hrows
  split
  · next heq => exact heq ▸ ⟨rfl, rfl⟩
  · exact ⟨rfl, rfl⟩

/-- Take the marks away from the wildcards of a prototype. It has the same wildcards at the same places,
without marks; and its task fails of the same cause as that of the prototype, or its tokens have the
same elements and the same lines, except that a wildcard that asks for a stand-in and can have one
shows that instead and has the name for a last line. Or take the mark away from one wildcard of known
kind inside metadata, with only wildcards of known kinds around it on levels below the prototype: no
element and no line changes. Either way the session can give the same afterwards. -/
theorem task_unmarked (c : Catalog) (dice : Dice) (tier : Tier) (calls : List Call)
    (prototype : Text) (fits : Text.NumbersFit (depthLimit + 1) prototype) :
    let s := (start c dice tier).after calls
    let near : Session → Session → Prop := fun t u => t.supply = u.supply
    (Text.wildcards? prototype.unmarked = some ((Text.wildcards prototype).map Wildcard.unmarked) ∧
      ∀ w ∈ Text.wildcards prototype, w.unmarked.obfuscated = false ∧ w.unmarked.index = w.index ∧
        w.unmarked.stop = w.stop ∧ w.unmarked.name = w.name ∧ w.unmarked.type = w.type ∧
        w.unmarked.id = w.id ∧ w.unmarked.metadata = w.metadata) ∧
      Run.Agree near
        (fun task plain => ∃ pieces rows, Piece.Tile prototype pieces ∧
          task.tokens = rows.map Prod.fst ∧ plain.tokens = rows.map Prod.snd ∧
          List.Forall₂ Token.Veils pieces rows)
        (s.task prototype) (s.task prototype.unmarked) ∧
      ∀ w before metadata gap, w ∈ Text.wildcards prototype → w.Frames before gap →
        Text.Unmarks depthLimit w.metadata metadata →
        Run.Agree near
          (fun task other => List.Forall₂ (fun x y => x.element = y.element ∧ x.metadata = y.metadata)
            task.tokens other.tokens)
          (s.task prototype)
          (s.task (prototype.swap w (w.withMetadata before metadata gap))) := by
  intro s near
  have horder : Orderly (start c dice tier) (stock c tier) s.books := orderly_after c dice tier calls
  have sized := fits.1
  have hunmarked : ∀ w, .wildcard w ∈ Text.segments prototype → w.unmarked.Replaces w :=
    fun w hw => (Text.standsIn_of_mem hw).replaces_unmarked
  have hstands : ∀ w, .wildcard w ∈ Text.segments prototype → w.unmarked.StandsFor w :=
    fun w hw => (hunmarked w hw).standsFor
  refine ⟨⟨?_, ?_⟩, ?_, ?_⟩
  · unfold Text.unmarked
    rw [Text.wildcards?_eq_some (Text.sized_recast sized hstands),
      Text.wildcards_recast sized hstands]
  · intro w hw
    obtain ⟨hindex, hbraces, _⟩ := hstands w (Text.mem_wildcards.mp hw)
    obtain ⟨hname, htype, hid⟩ := w.akin_unmarked
    have hstop : w.unmarked.stop = w.stop := by
      unfold Wildcard.stop
      rw [hindex, Text.length_eq_of_braces hbraces]
    exact ⟨w.obfuscated_unmarked, hindex, hstop, hname.symm, htype.symm, hid.symm,
      w.metadata_unmarked⟩
  · refine (agree_task_recast horder sized hunmarked).imp (fun _ _ abreast => abreast.supply) ?_
    rintro task plain ⟨rows, htokens, hothers, hrows⟩
    exact ⟨_, rows, Piece.tile_ofSegments sized, htokens, hothers,
      hrows.imp fun _ _ => veils_of_twins⟩
  · intro w before metadata gap hw frame hinside
    exact (agree_task_swap horder fits hw frame hinside).imp (fun _ _ abreast => abreast.supply)
      fun _ _ hsame => hsame

/-- A person and a gesture with marks, and a mark inside metadata. -/
theorem task_unmarked_person :
    let c : Catalog :=
      { categories := [{ name := .text "fruits".toList, defaultLocation := .null }]
        gestures := [{ name := .text "waving".toList, tier := .easy }]
        locations := [], people := [{ name := .text "Bob".toList, gender := .male }]
        things := [], questions := [] }
    let prototype : Text := "{male? meta: with {category?}} is {gesture?}".toList
    let s := start c ⟨0⟩ .easy
    Text.NumbersFit (depthLimit + 1) prototype ∧
      prototype.unmarked = "{male  meta: with {category?}} is {gesture }".toList ∧
      (∃ task plain t u, s.task prototype = (.ok task, t) ∧
        s.task prototype.unmarked = (.ok plain, u) ∧ t.supply = u.supply ∧
        task.text? = some "a person is waving".toList ∧
        plain.text? = some "Bob is waving".toList) ∧
      ∃ task other t u, s.task prototype = (.ok task, t) ∧
        s.task "{male? meta: with {category }} is {gesture?}".toList = (.ok other, u) ∧
        t.supply = u.supply ∧ List.Forall₂ (fun x y => x.element = y.element ∧ x.metadata = y.metadata)
          task.tokens other.tokens := by
  intro c prototype s
  have fits : Text.NumbersFit (depthLimit + 1) prototype := by decide +kernel
  have hplain : prototype.unmarked = "{male  meta: with {category?}} is {gesture }".toList := by
    decide +kernel
  have hrun : (s.task prototype).1.toOption.map Task.text? =
      some (some "a person is waving".toList) := by
    decide +kernel
  have hplainRun : (s.task prototype.unmarked).1.toOption.map Task.text? =
      some (some "Bob is waving".toList) := by
    rw [hplain]
    decide +kernel
  obtain ⟨task, t, htask, htext⟩ := Run.exists_ok hrun
  obtain ⟨_, hagree, hinside⟩ := task_unmarked c ⟨0⟩ .easy [] prototype fits
  refine ⟨fits, hplain, ?_, ?_⟩
  · change Run.Agree _ _ (s.task prototype) (s.task prototype.unmarked) at hagree
    rw [htask] at hagree
    obtain ⟨plain, u, hu, close, _⟩ := hagree.of_ok
    rw [hu] at hplainRun
    exact ⟨task, plain, t, u, htask, hu, close, htext, Option.some.inj hplainRun⟩
  · let w : Wildcard :=
      { source := "{male? meta: with {category?}}".toList, index := 0, name := "male".toList
        type := none, id := none, obfuscated := true, metadata := "with {category?}".toList }
    let v : Wildcard :=
      { source := "{category?}".toList, index := 5, name := "category".toList, type := none
        id := none, obfuscated := true, metadata := [] }
    have hw : w ∈ Text.wildcards prototype := by decide +kernel
    have hv : .wildcard v ∈ Text.segments w.metadata := by decide +kernel
    have frame : w.Frames "\x7bmale? meta: ".toList [] := ⟨by decide, fun c hc => by cases hc⟩
    have hswap : prototype.swap w (w.withMetadata "\x7bmale? meta: ".toList
        (w.metadata.swap v v.unmarked) []) = "{male? meta: with {category }} is {gesture?}".toList := by
      decide +kernel
    have hsame := hinside w _ _ _ hw frame (.here hv rfl rfl)
    rw [hswap] at hsame
    change Run.Agree _ _ (s.task prototype) (s.task _) at hsame
    rw [htask] at hsame
    obtain ⟨other, u, hu, close, hrows⟩ := hsame.of_ok
    exact ⟨task, other, t, u, htask, hu, close, hrows⟩

/-- A wildcard of no known kind inside metadata is shown as it stands, with the marks that stand in
it. -/
theorem mark_shown_inside_unknown :
    let c : Catalog :=
      { categories := [], gestures := [], locations := []
        people := [{ name := .text "Bob".toList, gender := .male }], things := [], questions := [] }
    let prototype : Text := "{void meta: {fish meta: {male?}}}".toList
    let plain : Text := "{void meta: {fish meta: {male }}}".toList
    let lines (t : Text) := ((start c ⟨0⟩ .easy).task t).1.toOption.map fun task =>
      task.metadata.filterMap Value.text?
    (∃ stop ∈ itinerary prototype, stop.place.length = 3 ∧ stop.wildcard.kind? = some .male ∧
      stop.wildcard.source = "{male?}".toList ∧ stop.wildcard.obfuscated = true) ∧
      plain = prototype.replace '?' ' ' ∧
      lines prototype = some ["{fish meta: {male?}}".toList, "Bob".toList] ∧
      lines plain = some ["{fish meta: {male }}".toList, "Bob".toList] ∧
      lines prototype ≠ lines plain := by
  intro c prototype plain lines
  have hprototype : lines prototype = some ["{fish meta: {male?}}".toList, "Bob".toList] := by
    decide +kernel
  have hplain : lines plain = some ["{fish meta: {male }}".toList, "Bob".toList] := by
    decide +kernel
  refine ⟨by decide +kernel, by decide, hprototype, hplain, ?_⟩
  rw [hprototype, hplain]
  decide

end Session

end Errand
