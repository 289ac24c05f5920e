import Errand.Proofs.Session.DepthFirst

/-! # Tasks tile their prototype

The pieces of a prototype lie side by side and leave nothing out: its wildcards, each at its place,
and between them the stretches of other text, as long as they can be. A task has one token for each
piece. A token shows the stretch it stands for, unless it stands for a wildcard of a known kind or
for empty braces; then it shows the name of its element.
-/

namespace Errand

/-- Every name in the catalog is a text, those of the rooms and categories that entities stand in
included. -/
structure Catalog.ShowsText (c : Catalog) : Prop where
  names : c.NamesAreText
  rooms : ∀ k, ∀ e ∈ c.entities k, ∀ r, e.room? = some r → ∃ t, r.name = .text t
  categories : ∀ k, ∀ e ∈ c.entities k, ∀ d, e.category? = some d → ∃ t, d.name = .text t

namespace Piece

def source : Piece → Text
  | .literal t => t
  | .wildcard w => w.source

/-- The pieces cover a text: its wildcards, each where its index says, and what lies between them in
stretches that are not empty and do not touch. -/
structure Tile (prototype : Text) (pieces : List Piece) : Prop where
  whole : pieces.flatMap source = prototype
  wildcards : Text.wildcards? prototype = some (pieces.filterMap wildcard?)
  placed : ∀ before w after, pieces = before ++ .wildcard w :: after →
    w.index = (before.flatMap source).length
  nonempty : .literal [] ∉ pieces
  apart : pieces.IsChain fun x y => x.wildcard?.isSome ∨ y.wildcard?.isSome

/-! ## The pieces of a text -/

theorem source_prependChar (char : Char) (pieces : List Piece) :
    (prependChar char pieces).flatMap source = char :: pieces.flatMap source := by
  unfold prependChar
  split <;> rfl

theorem flatMap_source_ofSegments {segments : List Segment} (h : .oversized ∉ segments) :
    (ofSegments segments).flatMap source = segments.flatMap Segment.source := by
  induction segments with
  | nil => rfl
  | cons segment segments ih =>
      have hrest := ih fun hmem => h (List.mem_cons_of_mem segment hmem)
      cases segment with
      | char char =>
          rw [ofSegments, source_prependChar, hrest]
          rfl
      | wildcard w =>
          rw [ofSegments, List.flatMap_cons, hrest]
          rfl
      | oversized => exact absurd List.mem_cons_self h

def StandAt : Nat → List Piece → Prop
  | _, [] => True
  | cursor, .literal t :: pieces => StandAt (cursor + t.length) pieces
  | cursor, .wildcard w :: pieces => w.index = cursor ∧ StandAt (cursor + w.source.length) pieces

theorem standAt_prependChar {char : Char} {pieces : List Piece} {cursor : Nat}
    (h : StandAt (cursor + 1) pieces) : StandAt cursor (prependChar char pieces) := by
  unfold prependChar
  split
  · next t pieces =>
      rw [StandAt] at h ⊢
      rwa [List.length_cons, Nat.add_comm t.length, ← Nat.add_assoc]
  · exact h

theorem standAt_scan (skip index : Nat) (t : Text) :
    StandAt (index + skip) (ofSegments (Segment.scan skip index t)) := by
  induction t generalizing skip index with
  | nil => cases skip <;> exact trivial
  | cons c t ih =>
      cases skip with
      | succ skip =>
          have hrest := ih skip (index + 1)
          rwa [Nat.add_right_comm, Nat.add_assoc] at hrest
      | zero =>
          simp only [Segment.scan, Nat.add_zero]
          split
          · split
            · next w found =>
                obtain ⟨_, hne, hindex⟩ := Wildcard.read_eq_wildcard found
                have hpos := List.length_pos_iff.mpr hne
                have hrest := ih (w.source.length - 1) (index + 1)
                refine ⟨hindex, ?_⟩
                rwa [show index + 1 + (w.source.length - 1) = index + w.source.length by omega] at hrest
            · exact standAt_prependChar (ih 0 (index + 1))
            · exact trivial
          · exact standAt_prependChar (ih 0 (index + 1))

theorem index_of_standAt {before after : List Piece} {w : Wildcard} {cursor : Nat}
    (h : StandAt cursor (before ++ .wildcard w :: after)) :
    w.index = cursor + (before.flatMap source).length := by
  induction before generalizing cursor with
  | nil => simpa using h.1
  | cons piece before ih =>
      rw [List.flatMap_cons, List.length_append]
      cases piece with
      | literal t =>
          rw [ih h]
          simp only [source]
          omega
      | wildcard v =>
          rw [ih h.2]
          simp only [source]
          omega

theorem nonempty_ofSegments (segments : List Segment) : .literal [] ∉ ofSegments segments := by
  induction segments with
  | nil => exact List.not_mem_nil
  | cons segment segments ih =>
      cases segment with
      | char char =>
          rw [ofSegments]
          unfold prependChar
          split
          · next t pieces hpieces =>
              rw [hpieces] at ih
              simp_all
          · simpa using ih
      | wildcard w => simpa [ofSegments] using ih
      | oversized => exact List.not_mem_nil

theorem apart_ofSegments (segments : List Segment) :
    (ofSegments segments).IsChain fun x y => x.wildcard?.isSome ∨ y.wildcard?.isSome := by
  induction segments with
  | nil => exact .nil
  | cons segment segments ih =>
      cases segment with
      | char char =>
          rw [ofSegments]
          unfold prependChar
          split
          · next t pieces hpieces =>
              rw [hpieces] at ih
              cases pieces with
              | nil => exact .singleton _
              | cons piece pieces =>
                  rw [List.isChain_cons_cons] at ih ⊢
                  exact ih
          · next hliteral =>
              cases hpieces : ofSegments segments with
              | nil => exact .singleton _
              | cons piece pieces =>
                  cases piece with
                  | literal t => exact absurd hpieces (hliteral t pieces)
                  | wildcard w =>
                      rw [hpieces] at ih
                      exact List.isChain_cons_cons.mpr ⟨.inr rfl, ih⟩
      | wildcard w =>
          rw [ofSegments]
          cases hpieces : ofSegments segments with
          | nil => exact .singleton _
          | cons piece pieces =>
              rw [hpieces] at ih
              exact List.isChain_cons_cons.mpr ⟨.inl rfl, ih⟩
      | oversized => exact .nil

theorem tile_ofSegments {prototype : Text} (h : .oversized ∉ Text.segments prototype) :
    Tile prototype (ofSegments (Text.segments prototype)) where
  whole := by
    rw [flatMap_source_ofSegments h]
    exact Segment.flatMap_source_scan 0 0 prototype h
  wildcards := by
    rw [Text.wildcards?_eq_some h, filterMap_ofSegments h]
    rfl
  placed := by
    intro before w after hsplit
    have hstand := standAt_scan 0 0 prototype
    unfold Text.segments at hsplit
    rw [hsplit] at hstand
    simpa using index_of_standAt hstand
  nonempty := nonempty_ofSegments _
  apart := apart_ofSegments _

end Piece

/-- A token is that of a piece. A wildcard without a name or of a known kind has an element. -/
def Token.StandsFor (token : Token) : Piece → Prop
  | .literal t => token = .literal t
  | .wildcard w => token.source = w.source ∧
      (token.element.isSome = true ↔ w.name = [] ∨ w.kind?.isSome = true)

namespace Session

/-! ## The tokens of the pieces -/

/-- Tokens that come out of work on pieces, one for each. The books are as they may be whenever a
wildcard is resolved, and the lines are those of its metadata. -/
theorem forall₂_of_work {P : Books → Prop} (hstep : ∀ w s, P s.books → P (resolve w s).session.books)
    {R : Token → Piece → Prop} (hliteral : ∀ t, R (.literal t) (.literal t))
    (hwildcard : ∀ w s element lines, P s.books → (resolve w s).result = .ok element →
      (∃ t u, P t.books ∧ linesOf (metadataReader depthLimit) w t = (.ok lines, u)) →
        R (tokenOf w element lines) (.wildcard w))
    {pieces : List Piece} {k : Nat} {s u : Session} {tokens : List Token} (hs : P s.books)
    (h : work pieces k s = (.ok tokens, u)) : List.Forall₂ R tokens pieces := by
  induction pieces generalizing k s tokens with
  | nil =>
      obtain ⟨rfl, _⟩ : [] = tokens ∧ s = u := by simpa [work] using h
      exact .nil
  | cons piece pieces ih =>
      cases piece with
      | literal t =>
          rw [work_literal] at h
          obtain ⟨rest, hrest, rfl⟩ := Run.map_eq_ok.mp h
          exact .cons (hliteral t) (ih hs hrest)
      | wildcard w =>
          rw [work_wildcard] at h
          obtain ⟨element, s₁, hresolve, h⟩ := Run.bind_eq_ok.mp h
          obtain ⟨lines, s₂, hlines, h⟩ := Run.bind_eq_ok.mp h
          obtain ⟨rest, hrest, rfl⟩ := Run.map_eq_ok.mp h
          obtain ⟨hresult, rfl⟩ := Resolution.run_eq_ok.mp hresolve
          have hturned : P { s with current := k }.books := hs
          have hresolved : P (resolveAt k w s).session.books := (Moves.resolveAt k w s).keep hstep hs
          have hmoves := Moves.rule.metadataLines depthLimit w (resolveAt k w s).session
          rw [hlines] at hmoves
          exact .cons (hwildcard w _ element lines hturned hresult ⟨_, _, hresolved, hlines⟩)
            (ih (hmoves.keep hstep hresolved) hrest)

@[simp] theorem source_tokenOf (w : Wildcard) (element : Option Element) (lines : List Text) :
    (tokenOf w element lines).source = w.source := by
  unfold tokenOf
  cases element with
  | none => rfl
  | some x =>
      dsimp only
      split <;> rfl

@[simp] theorem isSome_element_tokenOf (w : Wildcard) (element : Option Element)
    (lines : List Text) : (tokenOf w element lines).element.isSome = element.isSome := by
  unfold tokenOf
  cases element with
  | none => rfl
  | some x =>
      dsimp only
      split <;> rfl

theorem isSome_of_result {w : Wildcard} {s : Session} {element : Option Element}
    (h : (resolve w s).result = .ok element) :
    element.isSome = true ↔ w.name = [] ∨ w.kind?.isSome = true := by
  by_cases hname : w.name = []
  · simp only [resolve, hname, List.isEmpty_nil, if_true, Except.ok.injEq] at h
    simp [← h, hname]
  · rcases entry_or_plain h with ⟨k, c, e, asks, rfl⟩ | plain
    · simp [asks.1]
    · generalize (resolve w s).kind = kind at plain
      cases plain with
      | unknown hkind => simp [hname, hkind]
      | blank hkind => simp [hkind.resolve_left hname]
      | pronoun hkind => simp [hkind]

variable {c : Catalog} {tier : Tier} {first s : Session}

/-- A stand-in is the room or the category of an entry, or consists of words of its own. -/
theorem standIn?_eq_some {w : Wildcard} {x coarser : Element} (h : w.standIn? x = some coarser) :
    (∃ e r, x = .entry e ∧ e.entity.room? = some r ∧ coarser = .coarser (.location (.room r))) ∨
      (∃ e d, x = .entry e ∧ e.entity.category? = some d ∧ coarser = .coarser (.category d)) ∨
        ∃ words ∈ fixedWords, coarser = .standIn words := by
  unfold Wildcard.standIn? at h
  have hwords {words : Text} (hmem : words ∈ fixedWords)
      (hstandIn : some (Element.standIn words) = some coarser) :
      ∃ words ∈ fixedWords, coarser = .standIn words :=
    ⟨words, hmem, (Option.some.inj hstandIn).symm⟩
  cases x with
  | entry e =>
      dsimp only [Option.bind_some] at h
      have hroom (hplace : (e.entity.room?.map
          fun r => Element.coarser (.location (.room r))) = some coarser) :
          ∃ x r, Element.entry e = .entry x ∧ x.entity.room? = some r ∧
            coarser = .coarser (.location (.room r)) := by
        obtain ⟨r, hr, rfl⟩ := Option.map_eq_some_iff.mp hplace
        exact ⟨e, r, rfl, hr, rfl⟩
      have hcategory (hthing : (e.entity.category?.map
          fun d => Element.coarser (.category d)) = some coarser) :
          ∃ x d, Element.entry e = .entry x ∧ x.entity.category? = some d ∧
            coarser = .coarser (.category d) := by
        obtain ⟨d, hd, rfl⟩ := Option.map_eq_some_iff.mp hthing
        exact ⟨e, d, rfl, hd, rfl⟩
      split at h
      all_goals first
        | exact .inl (hroom h)
        | exact .inr (.inl (hcategory h))
        | exact .inr (.inr (hwords (by decide) h))
        | cases h
  | coarser | standIn | pronoun | hidden =>
      dsimp only [Option.bind_none, Option.map_none] at h
      split at h
      all_goals first
        | exact .inr (.inr (hwords (by decide) h))
        | cases h

/-- A token shows what its wildcard got, or in its place words or the room or category of an
entity. -/
theorem displayed_tokenOf (h : Orderly first (stock c tier) s.books) {w : Wildcard}
    {element : Option Element} (hresult : (resolve w s).result = .ok element) (lines : List Text) :
    Displayed c w (tokenOf w element lines).shown ∨
      ∃ k, ∃ e ∈ c.entities k,
        (∃ r, e.room? = some r ∧ (tokenOf w element lines).shown = r.name) ∨
          ∃ d, e.category? = some d ∧ (tokenOf w element lines).shown = d.name := by
  cases hcoarser : element.bind w.standIn? with
  | none =>
      have hshown : (tokenOf w element lines).shown = w.display element := by
        rw [tokenOf_of_shown (.inr hcoarser)]
        cases element <;> rfl
      exact .inl (hshown ▸ displayed_display h hresult)
  | some coarser =>
      obtain ⟨x, rfl, hx⟩ := Option.bind_eq_some_iff.mp hcoarser
      cases hmarked : w.obfuscated with
      | false =>
          rw [tokenOf_of_shown (.inl hmarked)]
          exact .inl (displayed_display h hresult)
      | true =>
          rw [tokenOf_of_concealed hmarked hx]
          rcases standIn?_eq_some hx with ⟨e, r, rfl, hr, rfl⟩ | ⟨e, d, rfl, hd, rfl⟩ |
            ⟨words, hmem, rfl⟩
          · obtain ⟨k, hmem⟩ := h.balanced.mem_entities_of_result hresult
            exact .inr ⟨k, e.entity, hmem, .inl ⟨r, hr, rfl⟩⟩
          · obtain ⟨k, hmem⟩ := h.balanced.mem_entities_of_result hresult
            exact .inr ⟨k, e.entity, hmem, .inr ⟨d, hd, rfl⟩⟩
          · exact .inl (.words hmem)

theorem text_shown_tokenOf (shows : c.ShowsText) (h : Orderly first (stock c tier) s.books)
    {w : Wildcard} {element : Option Element} (hresult : (resolve w s).result = .ok element)
    (lines : List Text) : ∃ t, (tokenOf w element lines).shown = .text t := by
  rcases displayed_tokenOf h hresult lines with
    hdisplayed | ⟨k, e, hmem, ⟨r, hr, hshown⟩ | ⟨d, hd, hshown⟩⟩
  · exact text_of_displayed shows.names hdisplayed
  · rw [hshown]
    exact shows.rooms k e hmem r hr
  · rw [hshown]
    exact shows.categories k e hmem d hd

theorem concat?_map_text (ts : List Text) : Task.concat? (ts.map .text) = some ts.flatten := by
  induction ts with
  | nil => rfl
  | cons t ts ih => rw [List.map_cons, concat?_cons, ih, List.flatten_cons, Option.map_some]

theorem exists_shown {α : Type} {tokens : List Token} {others : List α}
    (h : List.Forall₂ (fun token _ => ∃ t, Token.shown token = .text t) tokens others) :
    ∃ shown : List Text, tokens.map Token.shown = shown.map .text := by
  induction h with
  | nil => exact ⟨[], rfl⟩
  | cons hshown _ ih =>
      obtain ⟨t, ht⟩ := hshown
      obtain ⟨shown, hrest⟩ := ih
      exact ⟨t :: shown, by rw [List.map_cons, List.map_cons, ht, hrest]⟩

theorem text_of_work (shows : c.ShowsText) (horder : Orderly first (stock c tier) s.books)
    {pieces : List Piece} {k : Nat} {tokens : List Token} {u : Session}
    (h : work pieces k s = (.ok tokens, u)) :
    ∃ shown : List Text, tokens.map Token.shown = shown.map .text := by
  have hshown : List.Forall₂ (fun token _ => ∃ t, Token.shown token = .text t) tokens pieces := by
    refine forall₂_of_work (fun w _ h => Orderly.afterResolve h w) (fun t => ⟨t, rfl⟩) ?_ horder h
    intro w s element lines horder hresult _
    exact text_shown_tokenOf shows horder hresult lines
  exact exists_shown hshown

theorem flatMap_source_of_standsFor {tokens : List Token} {pieces : List Piece}
    (h : List.Forall₂ Token.StandsFor tokens pieces) :
    tokens.flatMap Token.source = pieces.flatMap Piece.source := by
  induction h with
  | nil => rfl
  | @cons token piece tokens pieces hstands _ ih =>
      rw [List.flatMap_cons, List.flatMap_cons, ih]
      cases piece with
      | literal t =>
          rw [show token = .literal t from hstands]
          rfl
      | wildcard w => rw [show token.source = w.source from hstands.1]; rfl

/-- A task that comes about has a token for each piece of its prototype, in their order; put together
again the tokens are the prototype. The text of the task is what they show: for a wildcard of a known
kind and for empty braces the name of the element, for everything else the stretch as it stands. -/
theorem task_tiles_prototype (c : Catalog) (shows : c.ShowsText) (dice : Dice) (tier : Tier)
    (calls : List Call) (prototype : Text) (t : Task) (u : Session)
    (success : ((start c dice tier).after calls).task prototype = (.ok t, u)) :
    t.tokens.flatMap Token.source = prototype ∧
      ∃ (pieces : List Piece) (shown : List Text), Piece.Tile prototype pieces ∧
        List.Forall₂ Token.StandsFor t.tokens pieces ∧
        t.tokens.map Token.shown = shown.map .text ∧ t.text? = some shown.flatten := by
  have horder := orderly_after c dice tier calls
  generalize (start c dice tier).after calls = s at horder success
  have hsized := sized_of_task success
  rw [task_eq (Text.wildcards?_eq_some hsized)] at success
  obtain ⟨tokens, hwork, rfl⟩ := Run.map_eq_ok.mp success
  change work _ 0 (s.opened prototype) = _ at hwork
  have horderOpened : Orderly (start c dice tier) (stock c tier) (s.opened prototype).books := horder
  have htile := Piece.tile_ofSegments hsized
  generalize Piece.ofSegments (Text.segments prototype) = pieces at hwork htile
  have hstands : List.Forall₂ Token.StandsFor tokens pieces := by
    refine forall₂_of_work (fun w _ h => Orderly.afterResolve h w) (fun _ => rfl) ?_ horderOpened
      hwork
    intro w s element lines _ hresult _
    exact ⟨source_tokenOf w element lines, by rw [isSome_element_tokenOf, isSome_of_result hresult]⟩
  obtain ⟨shown, htexts⟩ := text_of_work shows horderOpened hwork
  refine ⟨?_, pieces, shown, htile, hstands, htexts, ?_⟩
  · rw [flatMap_source_of_standsFor hstands, htile.whole]
  · rw [Task.text?, htexts, concat?_map_text]

/-- Empty braces, neighbours, a stray brace, a brace that is never closed and a word that is no
kind. -/
theorem task_tiles_prototype_braces :
    let c : Catalog :=
      { categories := [], gestures := [{ name := .text "waving".toList, tier := .easy }]
        locations := [], people := [], things := [], questions := [] }
    let prototype : Text := "{}{gesture}\x7d \x7b {fish}\x7bb".toList
    c.ShowsText ∧ ∃ t u, (start c ⟨0⟩ .easy).task prototype = (.ok t, u) ∧
      t.tokens.flatMap Token.source = prototype ∧
      (∃ pieces, Piece.Tile prototype pieces ∧ List.Forall₂ Token.StandsFor t.tokens pieces) ∧
      t.tokens.length = 5 ∧ t.text? = some "waving\x7d \x7b {fish}\x7bb".toList := by
  intro c prototype
  have hgesture : ∀ k, ∀ e ∈ c.entities k,
      e = .gesture { name := .text "waving".toList, tier := .easy } := by
    intro k e he
    cases k <;> simp_all [Catalog.entities, c]
  have shows : c.ShowsText := by
    refine ⟨?_, ?_, ?_⟩ <;> intro k e he <;> obtain rfl := hgesture k e he
    · exact ⟨_, rfl⟩
    · exact fun r hr => by cases hr
    · exact fun d hd => by cases hd
  have hrun : ((start c ⟨0⟩ .easy).task prototype).1.toOption.map
      (fun t => (t.tokens.length, t.text?)) = some (5, some "waving\x7d \x7b {fish}\x7bb".toList) := by
    decide +kernel
  obtain ⟨t, u, htask, hshown⟩ := Run.exists_ok hrun
  obtain ⟨hlength, htext⟩ := Prod.mk.inj hshown
  obtain ⟨hsources, pieces, _, htile, hstands, _⟩ :=
    task_tiles_prototype c shows ⟨0⟩ .easy [] prototype t u htask
  exact ⟨shows, t, u, htask, hsources, ⟨pieces, htile, hstands⟩, hlength, htext⟩

end Session

end Errand
