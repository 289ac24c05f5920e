import Errand.Proofs.Session.Obfuscation
import Errand.Proofs.Wildcard.Concatenation

/-! # Replacing the wildcards of two texts

Replacing the wildcards of a text and one behind it is replacing those of the first and then, with
what the first leaves, those of the second. A wildcard further on in a text asks for the same.
-/

namespace Errand

theorem Task.concat?_append (xs ys : List Value) :
    concat? (xs ++ ys) = (concat? xs).bind fun t => (concat? ys).map (t ++ ·) := by
  unfold concat?
  rw [List.mapM_append]
  cases xs.mapM Value.text? with
  | none => rfl
  | some ts => cases ys.mapM Value.text? <;> simp

theorem Wildcard.echoes_shift (n : Nat) (w : Wildcard) : (w.shift n).Echoes w :=
  ⟨⟨rfl, rfl, rfl⟩, rfl, fun _ => rfl⟩

theorem Segment.parallel_shift (n : Nat) (segments : List Segment) :
    List.Forall₂ (Parallel fun w v => w.Echoes v ∧ w.metadata = v.metadata)
      (segments.map (onWildcard (Wildcard.shift n))) segments := by
  rw [List.forall₂_map_left_iff, List.forall₂_same]
  intro segment _
  cases segment with
  | char c => exact .char c
  | wildcard w => exact .wildcard ⟨w.echoes_shift n, rfl⟩
  | oversized => exact .oversized

namespace Session

variable {c : Catalog} {tier : Tier} {first s t : Session} {reader : LineReader}

theorem Abreast.refl (h : Orderly first (stock c tier) s.books) :
    Abreast first (stock c tier) s s :=
  ⟨rfl, rfl, rfl, h⟩

/-- The run on a text and then, with the session it leaves, the one on another. What both show is put
together, and so are their lines. -/
def inTurn (run : Text → Session → Run (Text × List Text)) (a b : Text) (s : Session) :
    Run (Text × List Text) :=
  (run a s).bind fun front s =>
    (run b s).map fun back => (front.1 ++ back.1, front.2 ++ back.2)

theorem replaceSegments_of_oversized (reader : LineReader) {segments : List Segment}
    (h : .oversized ∈ segments) (s : Session) :
    ∃ e t, replaceSegments reader segments s = (.error e, t) := by
  induction segments generalizing s with
  | nil => cases h
  | cons segment segments ih =>
      cases segment with
      | oversized => exact ⟨_, _, rfl⟩
      | char c =>
          obtain ⟨e, t, hrest⟩ := ih (by simpa using h) s
          rw [replaceSegments_char, hrest]
          exact ⟨e, t, rfl⟩
      | wildcard w =>
          rw [replaceSegments_wildcard]
          rcases (resolve w s).run with ⟨e | element, t⟩
          · exact ⟨e, t, rfl⟩
          · rw [Run.bind]
            rcases linesOf reader w t with ⟨e | own, u⟩
            · exact ⟨e, u, rfl⟩
            · obtain ⟨e, v, hrest⟩ := ih (by simpa using h) u
              rw [Run.bind, hrest]
              exact ⟨e, v, rfl⟩

theorem concat?_of_replaceSegments (named : c.NamesAreText)
    (hreader : ∀ t s, Moves s (reader t s).2)
    {segments : List Segment} {a : List Value × List Text}
    (horder : Orderly first (stock c tier) s.books)
    (h : replaceSegments reader segments s = (.ok a, t)) :
    ∃ text, Task.concat? a.1 = some text := by
  induction segments generalizing s a with
  | nil =>
      cases h
      exact ⟨[], rfl⟩
  | cons segment segments ih =>
      cases segment with
      | oversized => cases h
      | char char =>
          rw [replaceSegments_char, Run.map_eq_ok] at h
          obtain ⟨rest, hrest, rfl⟩ := h
          obtain ⟨text, htext⟩ := ih horder hrest
          exact ⟨char :: text, by rw [concat?_cons, htext]; rfl⟩
      | wildcard w =>
          rw [replaceSegments_wildcard, Run.bind_eq_ok] at h
          obtain ⟨element, u, hresolve, h⟩ := h
          obtain ⟨hresult, rfl⟩ := Resolution.run_eq_ok.mp hresolve
          obtain ⟨own, v, hlines, h⟩ := Run.bind_eq_ok.mp h
          obtain ⟨rest, hrest, rfl⟩ := Run.map_eq_ok.mp h
          have hmoves := Moves.linesOf hreader w (resolve w s).session
          rw [hlines] at hmoves
          have hlater : Orderly first (stock c tier) v.books :=
            hmoves.keep (fun w _ h => h.afterResolve w) (horder.afterResolve w)
          obtain ⟨text, htext⟩ := ih hlater hrest
          obtain ⟨name, hname⟩ := text_display named horder hresult
          exact ⟨name ++ text, by rw [hname, concat?_cons, htext]; rfl⟩

theorem replaceSegments_append_eq (xs ys : List Segment) (s : Session) :
    replaceSegments reader (xs ++ ys) s =
      (replaceSegments reader xs s).bind fun front s =>
        (replaceSegments reader ys s).map fun back => (front.1 ++ back.1, front.2 ++ back.2) := by
  rw [replaceSegments_append]
  rcases replaceSegments reader xs s with ⟨_ | front, t⟩
  · rfl
  · dsimp only [Run.bind]
    rcases replaceSegments reader ys t with ⟨_ | back, u⟩ <;> rfl

theorem agree_replaceText_append (named : c.NamesAreText) (hmoves : ∀ t s, Moves s (reader t s).2)
    (hreader : ∀ {t u : Text} {s₁ s₂ : Session}, t = u → Abreast first (stock c tier) s₁ s₂ →
      Run.Agree (Abreast first (stock c tier)) Eq (reader t s₁) (reader u s₂))
    {a : Text} (closed : a.BracesClosed) (b : Text)
    (horder : Orderly first (stock c tier) s.books) :
    Run.Agree (Abreast first (stock c tier)) Eq (replaceText reader (a ++ b) s)
      (inTurn (replaceText reader) a b s) := by
  have hend : Abreast first (stock c tier) (replaceSegments reader (Text.segments a) s).2
      (replaceSegments reader (Text.segments a) s).2 :=
    .refl ((Moves.replaceSegments hmoves _ s).keep (fun w _ h => h.afterResolve w) horder)
  unfold inTurn
  rw [replaceText_eq, replaceText_eq, Text.segments_append closed]
  split
  · next hoversized =>
      obtain ⟨e, t, hfails⟩ := replaceSegments_of_oversized reader hoversized s
      rw [hfails] at hend
      rw [List.append_nil, hfails]
      exact .failed hend
  · rw [replaceSegments_append_eq]
    rcases hfront : replaceSegments reader (Text.segments a) s with ⟨e | front, t⟩
    · rw [hfront] at hend
      exact .failed hend
    · -- Both go on in the session that the first text leaves, with the same wildcards further on.
      rw [hfront] at hend
      obtain ⟨text, htext⟩ := concat?_of_replaceSegments named hmoves horder hfront
      have hback := steady_abreast.replaceSegments (P := Eq) hreader
        (Segment.parallel_shift a.length (Text.segments b)) hend
      dsimp only [Run.bind]
      rw [htext]
      dsimp only
      rw [replaceText_eq]
      generalize replaceSegments reader ((Text.segments b).map _) t = x at hback ⊢
      generalize replaceSegments reader (Text.segments b) t = y at hback ⊢
      cases hback with
      | failed close => exact .failed close
      | @done back others _ _ close hsame =>
          obtain rfl : back = others := Prod.ext (List.forall₂_eq_eq_eq ▸ hsame.1) hsame.2
          dsimp only [Run.map, Run.bind, Except.map]
          rw [Task.concat?_append, htext, Option.bind_some]
          cases Task.concat? back.1 with
          | none => exact .failed close
          | some later => exact .done close rfl

theorem agree_reader (collect : Bool) (levels : Nat) (t : Text) {s₁ s₂ : Session}
    (close : Abreast first (stock c tier) s₁ s₂) :
    Run.Agree (Abreast first (stock c tier)) Eq
      ((if collect then metadataReader levels else noLines) t s₁)
      ((if collect then metadataReader levels else noLines) t s₂) := by
  cases collect with
  | true => exact steady_abreast.metadataReader levels (Text.parallel_refl levels t) close
  | false => exact .done close rfl

/-- Take a text whose opening braces are all closed in it, and any text behind it. Their wildcards
are those of the first and then those of the second, so many characters further on. Replacing them is
replacing those of the first and then, in the session it leaves, those of the second: it fails of the
same cause, or gives the two texts and their lines one behind the other; and the session can give the
same afterwards. -/
theorem replaceNested_append (c : Catalog) (named : c.NamesAreText) (dice : Dice) (tier : Tier)
    (calls : List Call) (a b : Text) (closed : a.BracesClosed) (depth : Int) (collect : Bool) :
    let s := (start c dice tier).after calls
    (Text.wildcards? (a ++ b) = (Text.wildcards? a).bind fun ws =>
      (Text.wildcards? b).map fun vs => ws ++ vs.map (Wildcard.shift a.length)) ∧
      Run.Agree (fun t u => t.supply = u.supply) Eq (s.replaceNested (a ++ b) depth collect)
        (inTurn (fun t s => s.replaceNested t depth collect) a b s) := by
  intro s
  have horder : Orderly (start c dice tier) (stock c tier) s.books :=
    orderly_after c dice tier calls
  refine ⟨Text.wildcards?_append closed b, ?_⟩
  unfold replaceNested
  cases (depthLimit - depth).toNat with
  | zero => exact .done rfl rfl
  | succ levels =>
      dsimp only
      refine (agree_replaceText_append named ?_ ?_ closed b horder).imp
        (fun _ _ abreast => abreast.supply) fun _ _ hsame => hsame
      · intro t s
        cases collect with
        | true => exact Moves.metadataReader levels t s
        | false => exact .refl
      · rintro t _ s₁ s₂ rfl close
        exact agree_reader collect levels t close

/-- A closing brace that matches nothing in the first text, and an opening one in the second. -/
theorem replaceNested_append_unmatched :
    let c : Catalog :=
      { categories := [{ name := .text "fruits".toList, defaultLocation := .null }]
        gestures := [{ name := .text "waving".toList, tier := .easy }]
        locations := [], people := [], things := [], questions := [] }
    let a : Text := "\x7d{void meta: {gesture}}".toList
    let b : Text := "take {category}\x7b".toList
    let s := start c ⟨0⟩ .easy
    c.NamesAreText ∧ a.BracesClosed ∧ ¬ b.BracesClosed ∧
      (Text.wildcards? (a ++ b)).map (·.map Wildcard.index) = some [1, 28] ∧
      ∃ t u, s.replaceNested (a ++ b) 0 true =
          (.ok ("\x7dtake fruits\x7b".toList, ["waving".toList]), t) ∧
        inTurn (fun t s => s.replaceNested t 0 true) a b s =
          (.ok ("\x7dtake fruits\x7b".toList, ["waving".toList]), u) ∧
        t.supply = u.supply := by
  intro c a b s
  have named : c.NamesAreText := by
    intro k e he
    cases k <;> simp [Catalog.entities, c] at he <;> subst he <;> exact ⟨_, rfl⟩
  have closed : a.BracesClosed := by decide +kernel
  have hrun : (s.replaceNested (a ++ b) 0 true).1.toOption =
      some ("\x7dtake fruits\x7b".toList, ["waving".toList]) := by decide +kernel
  obtain ⟨hwildcards, hagree⟩ := replaceNested_append c named ⟨0⟩ .easy [] a b closed 0 true
  refine ⟨named, closed, by decide +kernel, ?_, ?_⟩
  · rw [hwildcards]
    decide +kernel
  · obtain ⟨both, t, hboth, rfl⟩ := Run.exists_ok (f := id) (by simpa using hrun)
    change Run.Agree _ _ (s.replaceNested (a ++ b) 0 true) _ at hagree
    rw [hboth] at hagree
    obtain ⟨_, u, hturn, close, rfl⟩ := hagree.of_ok
    exact ⟨t, u, hboth, hturn, close⟩

end Session

end Errand
