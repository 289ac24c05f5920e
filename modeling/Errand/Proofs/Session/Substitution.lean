import Errand.Proofs.Session.Agreement
import Errand.Proofs.Session.DepthFirst
import Errand.Proofs.Wildcard.Braces

/-! # Two ways to fill a text

A session makes a task of a text, or it replaces the wildcards in it. The first way cuts the text into
pieces before it resolves anything and may read metadata one level deeper. Without stand-ins, without
pronouns and without deep nesting both ways fail of the same shortage, or give the same text with the
same lines; what the session can still give is the same after both.
-/

namespace Errand

namespace Session

/-! ## Readers of different depth -/

theorem linesOf_congr {reader other : LineReader} {w : Wildcard}
    (h : ∀ s, reader w.metadata s = other w.metadata s) (s : Session) :
    linesOf reader w s = linesOf other w s := by
  unfold linesOf
  rw [h]

theorem replaceSegments_congr {reader other : LineReader} {segments : List Segment}
    (h : ∀ w, .wildcard w ∈ segments → ∀ s, reader w.metadata s = other w.metadata s)
    (s : Session) : replaceSegments reader segments s = replaceSegments other segments s := by
  induction segments generalizing s with
  | nil => rfl
  | cons segment segments ih =>
      have hrest := ih fun w hw => h w (List.mem_cons_of_mem segment hw)
      cases segment with
      | oversized => rfl
      | char c => rw [replaceSegments_char, replaceSegments_char, hrest]
      | wildcard w =>
          have hlines := linesOf_congr (h w List.mem_cons_self)
          simp only [replaceSegments_wildcard, hlines, hrest]

/-- Levels below the last wildcard make no difference. -/
theorem metadataReader_of_bracesWithin {n : Nat} {t : Text} (h : Text.BracesWithin n t)
    (s : Session) : metadataReader (n + 2) t s = metadataReader (n + 1) t s := by
  induction n generalizing t s with
  | zero =>
      rw [metadataReader_succ, metadataReader_succ, replaceText_eq, replaceText_eq,
        replaceSegments_congr fun w hw => absurd hw (h.not_mem w)]
  | succ n ih =>
      rw [metadataReader_succ, metadataReader_succ, replaceText_eq, replaceText_eq,
        replaceSegments_congr fun w hw => ih (h.metadata hw)]

/-! ## Pieces and segments -/

variable {c : Catalog} {tier : Tier} {first s t : Session}

structure Even (first : Session) (stock : Collection → List Entry) (s t : Session) : Prop where
  supply : s.supply = t.supply
  orderly : Orderly first stock s.books

theorem Even.result (even : Even first (stock c tier) s t) {w : Wildcard}
    (hkind : w.kind? ≠ some .pron) : (resolve w s).result = (resolve w t).result :=
  (resolve_akin (.refl w) even.supply).2.2 fun h => absurd h hkind

theorem Even.afterResolve (even : Even first (stock c tier) s t) (w : Wildcard) :
    Even first (stock c tier) (resolve w s).session (resolve w t).session :=
  ⟨(resolve_akin (.refl w) even.supply).2.1, even.orderly.afterResolve w⟩

/-- Where no pronoun is asked for, the text around a wildcard plays no part. -/
theorem steady_even :
    Steady (fun w v => w = v ∧ w.kind? ≠ some .pron) (Even first (stock c tier)) .equal where
  isEmpty h := by rw [h.1]
  resolve := by
    rintro w _ s t ⟨rfl, hkind⟩ even
    refine (Run.Agree.of_resolution (even.result hkind) (even.afterResolve w)).imp
      (fun _ _ even => even) ?_
    rintro x _ ⟨rfl, _⟩
    rfl
  note text even := by
    refine ⟨even.supply, ?_⟩
    rw [books_record_nestedTooDeep]
    exact even.orderly

/-- What it takes for a wildcard to be treated alike on both ways. -/
structure Straight (w : Wildcard) : Prop where
  unmarked : w.obfuscated = false
  noPronoun : w.kind? ≠ some .pron
  noneInside : Text.Throughout (fun v => v.kind? ≠ some .pron) depthLimit w.metadata
  shallow : Text.BracesWithin (depthLimit - 2) w.metadata

/-- The tokens show what the segments show, and their metadata are the lines. -/
def Renders (tokens : List Token) (a : List Value × List Text) : Prop :=
  (∃ text, Task.concat? (tokens.map Token.shown) = some text ∧ Task.concat? a.1 = some text) ∧
    tokens.flatMap Token.metadata = a.2.map .text

theorem Renders.char {tokens : List Token} {a : List Value × List Text} (h : Renders tokens a)
    (char : Char) : Renders (.literal [char] :: tokens) (.text [char] :: a.1, a.2) := by
  obtain ⟨⟨text, htokens, hshown⟩, hmetadata⟩ := h
  refine ⟨⟨char :: text, ?_, ?_⟩, hmetadata⟩
  · rw [List.map_cons]
    exact (concat?_cons [char] _).trans (by rw [htokens]; rfl)
  · rw [concat?_cons, hshown]
    rfl

theorem Renders.longer {tokens : List Token} {t : Text} {a : List Value × List Text}
    (h : Renders (.literal t :: tokens) a) (char : Char) :
    Renders (.literal (char :: t) :: tokens) (.text [char] :: a.1, a.2) := by
  obtain ⟨⟨text, htokens, hshown⟩, hmetadata⟩ := h
  rw [List.map_cons, show (Token.literal t).shown = .text t from rfl, concat?_cons] at htokens
  obtain ⟨rest, hrest, rfl⟩ := Option.map_eq_some_iff.mp htokens
  refine ⟨⟨char :: (t ++ rest), ?_, ?_⟩, hmetadata⟩
  · rw [List.map_cons, show (Token.literal (char :: t)).shown = .text (char :: t) from rfl,
      concat?_cons, hrest]
    rfl
  · rw [concat?_cons, hshown]
    rfl

theorem Renders.wildcard (named : c.NamesAreText) (horder : Orderly first (stock c tier) s.books)
    {w : Wildcard} {element : Option Element} (hresult : (resolve w s).result = .ok element)
    (hw : w.obfuscated = false) (own : List Text) {tokens : List Token}
    {a : List Value × List Text} (h : Renders tokens a) :
    Renders (tokenOf w element own :: tokens) (w.display element :: a.1, own ++ a.2) := by
  obtain ⟨⟨text, htokens, hshown⟩, hmetadata⟩ := h
  have htoken : tokenOf w element own = { source := w.source, element, metadata := own.map .text } :=
    tokenOf_of_shown (.inl hw) own
  have hdisplay : (tokenOf w element own).shown = w.display element := by
    rw [htoken]
    cases element <;> rfl
  obtain ⟨name, hname⟩ := text_display named horder hresult
  refine ⟨⟨name ++ text, ?_, ?_⟩, ?_⟩
  · rw [List.map_cons, hdisplay, hname, concat?_cons, htokens]
    rfl
  · rw [hname, concat?_cons, hshown]
    rfl
  · rw [List.flatMap_cons, htoken, hmetadata, List.map_append]

theorem agree_work (named : c.NamesAreText) {segments : List Segment} {k : Nat}
    (hsized : .oversized ∉ segments) (hstraight : ∀ w, .wildcard w ∈ segments → Straight w)
    (even : Even first (stock c tier) s t) :
    Run.Agree (Even first (stock c tier)) Renders (work (Piece.ofSegments segments) k s)
      (replaceSegments (metadataReader (depthLimit - 1)) segments t) := by
  induction segments generalizing k s t with
  | nil => exact .done even ⟨⟨[], rfl, rfl⟩, rfl⟩
  | cons segment segments ih =>
      have hsizedRest : .oversized ∉ segments := fun h => hsized (List.mem_cons_of_mem _ h)
      have hrest : ∀ w, .wildcard w ∈ segments → Straight w := fun w hw =>
        hstraight w (List.mem_cons_of_mem _ hw)
      cases segment with
      | oversized => exact absurd List.mem_cons_self hsized
      | char char =>
          have hagree := ih (k := k) hsizedRest hrest even
          rw [Piece.ofSegments, replaceSegments_char]
          unfold Piece.prependChar
          split
          · next text pieces hpieces =>
              rw [hpieces, work_literal] at hagree
              rw [work_literal]
              exact hagree.remap fun _ _ h => h.longer char
          · rw [work_literal]
            exact hagree.map fun _ _ h => h.char char
      | wildcard w =>
          obtain ⟨hunmarked, hkind, hinside, hshallow⟩ := hstraight w List.mem_cons_self
          have hturned : Even first (stock c tier) { s with current := k } t :=
            ⟨even.supply, even.orderly⟩
          have hresolved := hturned.afterResolve w
          have hnoted : Even first (stock c tier) (resolveAt k w s).session (resolve w t).session :=
            ⟨hresolved.supply, hresolved.orderly⟩
          rw [Piece.ofSegments, work_wildcard, replaceSegments_wildcard]
          have hresult : (resolveAt k w s).result = (resolve w t).result :=
            hturned.result hkind
          refine (Run.Agree.of_resolution hresult hnoted).bind ?_
          rintro element _ s₁ t₁ even ⟨rfl, hgot⟩
          have hlines : linesOf (metadataReader (depthLimit - 1)) w t₁ =
              linesOf (metadataReader depthLimit) w t₁ :=
            linesOf_congr (fun s => (metadataReader_of_bracesWithin hshallow s).symm) t₁
          rw [hlines]
          have hread := steady_even.metadataReader depthLimit
            (hinside.parallel fun v hv => ⟨rfl, hv⟩) even
          refine (agree_linesOf rfl rfl even hread).bind ?_
          rintro own _ s₂ t₂ even rfl
          refine (ih hsizedRest hrest even).map fun tokens a h => ?_
          exact h.wildcard named hturned.orderly hgot hunmarked own

theorem agree_task_replaceNested (named : c.NamesAreText) {prototype : Text}
    (horder : Orderly first (stock c tier) s.books) (sized : .oversized ∉ Text.segments prototype)
    (h : ∀ w, .wildcard w ∈ Text.segments prototype → Straight w) :
    Run.Agree (Even first (stock c tier))
      (fun task a => task.text? = some a.1 ∧ task.metadata = a.2.map .text)
      (s.task prototype) (s.replaceNested prototype 0 true) := by
  have hreplace : s.replaceNested prototype 0 true =
      replaceText (metadataReader (depthLimit - 1)) prototype s := rfl
  have hwork := agree_work (k := 0) (s := s.opened prototype) (t := s) named sized h ⟨rfl, horder⟩
  rw [hreplace, replaceText_eq, task_eq (Text.wildcards?_eq_some sized)]
  change Run.Agree _ _ ((work _ 0 (s.opened prototype)).map Task.mk) _
  generalize work (Piece.ofSegments (Text.segments prototype)) 0 (s.opened prototype) = x at hwork ⊢
  generalize replaceSegments _ (Text.segments prototype) s = y at hwork ⊢
  cases hwork with
  | failed even => exact .failed even
  | done even renders =>
      obtain ⟨⟨text, htokens, hshown⟩, hmetadata⟩ := renders
      dsimp only [Run.bind, Run.map]
      rw [hshown]
      exact .done even ⟨htokens, hmetadata⟩

/-- A task of a text and the text with its wildcards replaced come about together. -/
theorem task_agrees_replaceNested (c : Catalog) (named : c.NamesAreText) (dice : Dice) (tier : Tier)
    (calls : List Call) (prototype : Text) (fits : Text.NumbersFit (depthLimit + 1) prototype)
    (unmarked : ∀ w ∈ Text.wildcards prototype, w.obfuscated = false)
    (noPronoun : ∀ stop ∈ itinerary prototype, stop.wildcard.kind? ≠ some .pron)
    (shallow : Text.BracesWithin 7 prototype) :
    let s := (start c dice tier).after calls
    (∃ shortage t u, s.task prototype = (.error (.exhausted shortage), t) ∧
        s.replaceNested prototype 0 true = (.error (.exhausted shortage), u) ∧
        t.supply = u.supply) ∨
      ∃ task text lines t u, s.task prototype = (.ok task, t) ∧
        s.replaceNested prototype 0 true = (.ok (text, lines), u) ∧
        task.text? = some text ∧ task.metadata = lines.map .text ∧ t.supply = u.supply := by
  intro s
  have horder : Orderly (start c dice tier) (stock c tier) s.books := orderly_after c dice tier calls
  have hfollows := follows_task named horder fits
  have hinside : Text.Throughout (fun w => w.kind? ≠ some .pron) (depthLimit + 1) prototype :=
    (Text.throughout_iff []).mpr noPronoun
  have hstraight : ∀ w, .wildcard w ∈ Text.segments prototype → Straight w := by
    intro w hw
    have hmem : w ∈ Text.wildcards prototype := Text.mem_wildcards.mpr hw
    obtain ⟨hkind, hinner⟩ := hinside w hmem
    exact ⟨unmarked w hmem, hkind, hinner, shallow.metadata hw⟩
  have hagree := agree_task_replaceNested named horder fits.1 hstraight
  rcases htask : s.task prototype with ⟨x, t⟩
  rcases hreplaced : s.replaceNested prototype 0 true with ⟨y, u⟩
  rw [htask] at hfollows
  rw [htask, hreplaced] at hagree
  cases hagree with
  | failed even =>
      generalize travel visit _ _ = journey at hfollows
      cases hfollows with
      | short => exact .inl ⟨_, t, u, rfl, rfl, even.supply⟩
  | @done task a _ _ even hsame =>
      exact .inr ⟨task, a.1, a.2, t, u, rfl, rfl, hsame.1, hsame.2, even.supply⟩

/-- Metadata with a wildcard in it, and braces that hold none. -/
theorem task_agrees_replaceNested_braces :
    let c : Catalog :=
      { categories := [{ name := .text "fruits".toList, defaultLocation := .null }]
        gestures := [{ name := .text "waving".toList, tier := .easy }]
        locations := [], people := [], things := [], questions := [] }
    let prototype : Text := "Show {gesture meta: take {category}}\x7d at \x7b{fish}.".toList
    let s := start c ⟨0⟩ .easy
    c.NamesAreText ∧ Text.NumbersFit (depthLimit + 1) prototype ∧
      (∀ w ∈ Text.wildcards prototype, w.obfuscated = false) ∧
      (∀ stop ∈ itinerary prototype, stop.wildcard.kind? ≠ some .pron) ∧
      Text.BracesWithin 7 prototype ∧
      ∃ task text lines t u, s.task prototype = (.ok task, t) ∧
        s.replaceNested prototype 0 true = (.ok (text, lines), u) ∧
        task.text? = some text ∧ task.metadata = lines.map .text ∧ t.supply = u.supply ∧
        text = "Show waving\x7d at \x7b{fish}.".toList ∧ lines = ["take fruits".toList] := by
  intro c prototype s
  have named : c.NamesAreText := by
    intro k e he
    cases k <;> simp [Catalog.entities, c] at he <;> subst he <;> exact ⟨_, rfl⟩
  have fits : Text.NumbersFit (depthLimit + 1) prototype := by decide +kernel
  have unmarked : ∀ w ∈ Text.wildcards prototype, w.obfuscated = false := by decide +kernel
  have noPronoun : ∀ stop ∈ itinerary prototype, stop.wildcard.kind? ≠ some .pron := by
    decide +kernel
  have shallow : Text.BracesWithin 7 prototype := by decide +kernel
  refine ⟨named, fits, unmarked, noPronoun, shallow, ?_⟩
  have hrun : (s.replaceNested prototype 0 true).1.toOption =
      some ("Show waving\x7d at \x7b{fish}.".toList, ["take fruits".toList]) := by decide +kernel
  rcases task_agrees_replaceNested c named ⟨0⟩ .easy [] prototype fits unmarked noPronoun shallow
    with ⟨shortage, t, u, _, hreplaced, _⟩ | ⟨task, text, lines, t, u, htask, hreplaced, hsame⟩
  · change s.replaceNested prototype 0 true = _ at hreplaced
    rw [hreplaced] at hrun
    cases hrun
  · change s.replaceNested prototype 0 true = _ at hreplaced
    rw [hreplaced] at hrun
    obtain ⟨rfl, rfl⟩ := Prod.mk.inj (Option.some.inj hrun)
    obtain ⟨htext, hmetadata, hsupply⟩ := hsame
    exact ⟨task, _, _, t, u, htask, hreplaced, htext, hmetadata, hsupply, rfl, rfl⟩

end Session

end Errand
