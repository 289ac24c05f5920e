import Errand.Proofs.Prototype.Weights
import Errand.Proofs.Wildcard.Marker
import Mathlib.Tactic.Ring

/-! # Writing prototypes

A prototype is written on a line with a backslash before each of its percent signs. The weight stands
between two percent signs anywhere on the line but behind a backslash. Whatever the prototype says, no
other percent sign opens a tag, so reading takes off just what writing has put on. Lines that are blank
and comments may stand between the others.
-/

namespace Errand

namespace Text

theorem number_append (ds es : Text) :
    number (ds ++ es) = number ds * 10 ^ es.length + number es := by
  have hfold (start : Nat) : es.foldl (fun total c => 10 * total + (digitValue? c).getD 0) start =
      start * 10 ^ es.length + number es := by
    unfold number
    induction es generalizing start with
    | nil => simp
    | cons c es ih =>
        rw [List.foldl_cons, List.foldl_cons, ih, ih (10 * 0 + _), List.length_cons, pow_succ]
        ring
  unfold number
  rw [List.foldl_append, hfold]
  rfl

/-! ## White space at the ends -/

theorem strip_of_stripped {t : Text} (h : Stripped t) (hne : t ≠ []) : strip t = t := by
  simpa using strip_append blank_nil h blank_nil hne

theorem strip_of_blank {t : Text} (h : Blank t) : strip t = [] := by
  have hfront : skipBlanks t = [] := by
    simpa using skipBlanks_append (r := []) h fun c hc => by cases hc
  unfold strip
  rw [hfront]
  rfl

theorem strip_blank_append {x y : Text} (hx : Blank x) (hy : Blank y) (t : Text) :
    strip (x ++ t ++ y) = strip t := by
  obtain ⟨v, w, hv, hw, ht⟩ := exists_blank_append_strip t
  have hstripped := stripped_strip t
  generalize strip t = s at ht hstripped ⊢
  subst ht
  have hwhole : x ++ (v ++ s ++ w) ++ y = x ++ v ++ s ++ (w ++ y) := by simp
  rw [hwhole]
  by_cases hne : s = []
  · subst hne
    rw [List.append_nil]
    exact strip_of_blank ((hx.append hv).append (hw.append hy))
  · exact strip_append (hx.append hv) hstripped (hw.append hy) hne

theorem head?_strip {before : Text} (hbefore : Blank before) {c : Char} (hc : isBlank c = false)
    (rest : Text) : (strip (before ++ c :: rest)).head? = some c := by
  obtain ⟨z, hz, hfront⟩ := exists_skipBlanks_eq (before ++ c :: rest)
  have hhead : ∀ d ∈ (c :: rest).head?, isBlank d = false := fun d hd => Option.some.inj hd ▸ hc
  rw [skipBlanks_append hbefore hhead] at hfront
  generalize strip (before ++ c :: rest) = s at hfront
  cases s with
  | nil =>
      rw [List.nil_append] at hfront
      have hblank := hz c (hfront ▸ List.mem_cons_self)
      rw [hc] at hblank
      cases hblank
  | cons d s =>
      rw [(List.cons.inj hfront).1]
      rfl

end Text

namespace WeightLiteral

@[simp] theorem value_one : one.value = 1 := by simp [one, value]

/-- Which texts stand for a weight: digits, or a point with digits behind it and perhaps before it. -/
inductive Spells : Text → ℚ≥0 → Prop
  | whole {digits : Text} (hdigits : ∀ c ∈ digits, c.isDigit = true) (hne : digits ≠ []) :
      Spells digits (Text.number digits)
  | pointed {whole fraction : Text} (hwhole : ∀ c ∈ whole, c.isDigit = true)
      (hfraction : ∀ c ∈ fraction, c.isDigit = true) (hne : fraction ≠ []) :
      Spells (whole ++ '.' :: fraction)
        (Text.number whole + Text.number fraction / 10 ^ fraction.length)

end WeightLiteral

namespace Prototype

open WeightLiteral Text

/-! ## Escapes -/

def escape (t : Text) : Text := t.flatMap fun c => if c = '%' then ['\\', '%'] else [c]

@[simp] theorem escape_nil : escape [] = [] := by simp [escape]

@[simp] theorem escape_percent (t : Text) : escape ('%' :: t) = '\\' :: '%' :: escape t := rfl

theorem escape_cons {c : Char} (hc : c ≠ '%') (t : Text) : escape (c :: t) = c :: escape t := by
  simp [escape, hc]

/-- A text that is written starts as before, unless with a percent sign, behind whose backslash it
stands. -/
theorem head?_escape_ne_percent (t : Text) : (escape t).head? ≠ some '%' := by
  cases t with
  | nil => simp
  | cons c t =>
      by_cases hc : c = '%'
      · subst hc
        simp
      · simpa [escape_cons hc] using hc

theorem unescape_cons {c : Char} {t : Text} (h : t.head? ≠ some '%') :
    unescape (c :: t) = c :: unescape t := by
  rw [unescape]
  intro rest _ ht
  simp [ht] at h

theorem unescape_escape (t : Text) : unescape (escape t) = t := by
  induction t with
  | nil => rfl
  | cons c t ih =>
      by_cases hc : c = '%'
      · subst hc
        rw [escape_percent, unescape, ih]
      · rw [escape_cons hc, unescape_cons (head?_escape_ne_percent t), ih]

/-! ## Tags -/

theorem weight?_append {w : Text} {q : ℚ≥0} (hw : Spells w q) (rest : Text) :
    ∃ weight, weight? (w ++ '%' :: rest) = some (weight, rest) ∧ weight.value = q := by
  have hspan {digits r : Text} (hdigits : ∀ c ∈ digits, c.isDigit = true)
      (hr : ∀ c ∈ r.head?, c.isDigit = false) : spanDigits (digits ++ r) = (digits, r) :=
    Prod.ext (takeWhile_append_of_stop hdigits hr) (dropWhile_append_of_stop hdigits hr)
  have hpercent : ∀ c ∈ ('%' :: rest).head?, c.isDigit = false := by simp
  cases hw with
  | whole hdigits hne =>
      refine ⟨⟨number w, 0⟩, ?_, by simp [value]⟩
      unfold weight?
      rw [hspan hdigits hpercent]
      simp [hne]
  | @pointed whole fraction hwhole hfraction hne =>
      refine ⟨⟨number (whole ++ fraction), fraction.length⟩, ?_, ?_⟩
      · have hpoint : ∀ c ∈ ('.' :: (fraction ++ '%' :: rest)).head?, c.isDigit = false := by simp
        unfold weight?
        rw [List.append_assoc, List.cons_append, hspan hwhole hpoint]
        simp [hspan hfraction hpercent, hne]
      · simp only [value, number_append, Nat.cast_add, Nat.cast_mul, Nat.cast_pow, Nat.cast_ofNat]
        rw [add_div, mul_div_cancel_right₀ _ (by positivity)]

theorem cutTag?_cons {c : Char} (hc : c ≠ '%') (escaped : Bool) (t : Text) :
    cutTag? escaped (c :: t) =
      (cutTag? (c = '\\') t).map fun found => (found.1, c :: found.2) := by
  simp [cutTag?, hc]

theorem cutTag?_percent (escaped : Bool) (t : Text) : cutTag? escaped ('\\' :: '%' :: t) =
    (cutTag? false t).map fun found => (found.1, '\\' :: '%' :: found.2) := by
  simp [cutTag?, Function.comp_def]

/-- No tag opens in the front of a text that is written, as long as it does not end between a percent
sign and its backslash. -/
theorem cutTag?_append {t before after : Text} (hcut : escape t = before ++ after)
    (hback : before.getLast? ≠ some '\\') {escaped : Bool} (hopen : before = [] → escaped = false)
    (rest : Text) : cutTag? escaped (before ++ rest) =
      (cutTag? false rest).map fun found => (found.1, before ++ found.2) := by
  induction t generalizing before escaped with
  | nil =>
      obtain ⟨rfl, _⟩ := List.append_eq_nil_iff.mp hcut.symm
      simp [hopen rfl]
  | cons c t ih =>
      rcases before with _ | ⟨d, before⟩
      · simp [hopen rfl]
      · by_cases hc : c = '%'
        · subst hc
          rcases before with _ | ⟨e, before⟩
          · -- The tag would stand between the percent sign and its backslash.
            have hd : d = '\\' := (List.cons.inj hcut).1.symm
            exact absurd (congrArg some hd) hback
          · simp only [escape_percent, List.cons_append, List.cons.injEq] at hcut
            obtain ⟨rfl, rfl, hcut⟩ := hcut
            have hlast : before.getLast? ≠ some '\\' := by
              intro hlast
              simp [List.getLast?_cons, hlast] at hback
            rw [List.cons_append, List.cons_append, cutTag?_percent, ih hcut hlast fun _ => rfl]
            simp [Function.comp_def]
        · simp only [escape_cons hc, List.cons_append, List.cons.injEq] at hcut
          obtain ⟨rfl, hcut⟩ := hcut
          have hlast : before.getLast? ≠ some '\\' := by
            intro hlast
            simp [List.getLast?_cons, hlast] at hback
          have hnext : before = [] → decide (c = '\\') = false := by
            rintro rfl
            simpa using hback
          rw [List.cons_append, cutTag?_cons hc, ih hcut hlast hnext]
          simp [Function.comp_def]

theorem cutTag?_escape (escaped : Bool) (t : Text) : cutTag? escaped (escape t) = none := by
  induction t generalizing escaped with
  | nil => rfl
  | cons c t ih =>
      by_cases hc : c = '%'
      · subst hc
        rw [escape_percent, cutTag?_percent, ih]
        rfl
      · rw [escape_cons hc, cutTag?_cons hc, ih]
        rfl

theorem cutTag?_tagged {t before after w : Text} {q : ℚ≥0} (hcut : escape t = before ++ after)
    (hback : before.getLast? ≠ some '\\') (hw : Spells w q) :
    ∃ weight, cutTag? false (before ++ '%' :: (w ++ '%' :: after)) = some (weight, before ++ after) ∧
      weight.value = q := by
  obtain ⟨weight, hweight, hvalue⟩ := weight?_append hw after
  refine ⟨weight, ?_, hvalue⟩
  rw [cutTag?_append hcut hback fun _ => rfl]
  simp [cutTag?, hweight]

/-! ## Lines -/

/-- A text that can be a prototype: there is no white space at its ends, and it is no comment. -/
structure Writable (t : Text) : Prop where
  ne_nil : t ≠ []
  stripped : Stripped t
  noComment : t.head? ≠ some '#'

/-- How a prototype is written with its weight. The tag may be left out for a weight of one. -/
inductive Written (t : Text) : ℚ≥0 → Text → Prop
  | plain : Written t 1 (escape t)
  | tagged {before after w : Text} {q : ℚ≥0} (hcut : escape t = before ++ after)
      (hback : before.getLast? ≠ some '\\') (hw : Spells w q) :
      Written t q (before ++ '%' :: (w ++ '%' :: after))

inductive Skipped : Text → Prop
  | blank {line : Text} (hline : Blank line) : Skipped line
  | comment {before rest : Text} (hbefore : Blank before) : Skipped (before ++ '#' :: rest)

/-- Lines on which prototypes are written with their weights, among others without a prototype. -/
inductive WrittenLines : List (Text × ℚ≥0) → List Text → Prop
  | nil : WrittenLines [] []
  | skipped {entries : List (Text × ℚ≥0)} {line : Text} {lines : List Text} (hline : Skipped line)
      (hlines : WrittenLines entries lines) : WrittenLines entries (line :: lines)
  | prototype {t line : Text} {q : ℚ≥0} {entries : List (Text × ℚ≥0)} {lines : List Text}
      (ht : Writable t) (hline : Written t q line) (hlines : WrittenLines entries lines) :
      WrittenLines ((t, q) :: entries) (line :: lines)

theorem head?_escape {t : Text} : ∀ c ∈ (escape t).head?, c = '\\' ∨ c ∈ t.head? := by
  cases t with
  | nil => simp
  | cons d t =>
      by_cases hd : d = '%'
      · subst hd
        simp
      · simp [escape_cons hd]

theorem getLast?_escape (t : Text) : (escape t).getLast? = t.getLast? := by
  induction t with
  | nil => rfl
  | cons c t ih =>
      by_cases hc : c = '%'
      · subst hc
        simp [List.getLast?_cons, ih]
      · simp [escape_cons hc, List.getLast?_cons, ih]

theorem escape_ne_nil {t : Text} (h : t ≠ []) : escape t ≠ [] := by
  intro hnil
  have hback := unescape_escape t
  rw [hnil] at hback
  exact h hback.symm

theorem Writable.escape {t : Text} (h : Writable t) : Writable (escape t) where
  ne_nil := escape_ne_nil h.ne_nil
  stripped := by
    constructor
    · intro c hc
      rcases head?_escape c hc with rfl | hc
      · decide
      · exact h.stripped.head c hc
    · rw [getLast?_escape]
      exact h.stripped.last
  noComment hc := by
    rcases head?_escape _ hc with hback | hc
    · cases hback
    · exact h.noComment hc

theorem Writable.tagged {before after w : Text} (h : Writable (before ++ after)) :
    Writable (before ++ '%' :: (w ++ '%' :: after)) := by
  have hhead : ∀ c ∈ (before ++ '%' :: (w ++ '%' :: after)).head?,
      c = '%' ∨ c ∈ (before ++ after).head? := by
    cases before <;> simp
  have hlast : ∀ c ∈ (before ++ '%' :: (w ++ '%' :: after)).getLast?,
      c = '%' ∨ c ∈ (before ++ after).getLast? := by
    rw [← List.cons_append, ← List.append_assoc, List.getLast?_append_of_ne_nil _ (List.cons_ne_nil _ _)]
    cases after <;> simp [List.getLast?_cons]
  refine ⟨by simp, ⟨?_, ?_⟩, ?_⟩
  · intro c hc
    rcases hhead c hc with rfl | hc
    · decide
    · exact h.stripped.head c hc
  · intro c hc
    rcases hlast c hc with rfl | hc
    · decide
    · exact h.stripped.last c hc
  · intro hc
    rcases hhead _ hc with hpercent | hc
    · cases hpercent
    · exact h.noComment hc

theorem ofLine?_of_writable {line : Text} (h : Writable line) :
    ofLine? line =
      let (weight, rest) := match cutTag? false line with
        | some (weight, rest) => (weight, strip rest)
        | none => (.one, line)
      if (unescape rest).isEmpty then none else some ⟨unescape rest, weight⟩ := by
  unfold ofLine?
  rw [strip_of_stripped h.stripped h.ne_nil]
  dsimp only
  obtain ⟨c, rest, rfl⟩ := List.exists_cons_of_ne_nil h.ne_nil
  split
  · next hnil => cases hnil
  · next hcomment =>
      cases hcomment
      exact absurd rfl h.noComment
  · rfl

theorem ofLine?_escape {t : Text} (ht : Writable t) : ofLine? (escape t) = some ⟨t, .one⟩ := by
  rw [ofLine?_of_writable ht.escape, cutTag?_escape]
  simp [unescape_escape, ht.ne_nil]

theorem ofLine?_of_written {t line : Text} {q : ℚ≥0} (ht : Writable t) (h : Written t q line) :
    ∃ weight, ofLine? line = some ⟨t, weight⟩ ∧ weight.value = q := by
  cases h with
  | plain => exact ⟨.one, ofLine?_escape ht, value_one⟩
  | tagged hcut hback hw =>
      obtain ⟨weight, hfound, hvalue⟩ := cutTag?_tagged hcut hback hw
      have hescape := ht.escape
      rw [hcut] at hescape
      refine ⟨weight, ?_, hvalue⟩
      rw [ofLine?_of_writable hescape.tagged, hfound]
      dsimp only
      rw [strip_of_stripped hescape.stripped hescape.ne_nil, ← hcut, unescape_escape]
      simp [ht.ne_nil]

theorem ofLine?_of_skipped {line : Text} (h : Skipped line) : ofLine? line = none := by
  unfold ofLine?
  cases h with
  | blank hline => rw [strip_of_blank hline]
  | comment hbefore =>
      have hmark : isBlank '#' = false := by decide
      obtain ⟨rest, hrest⟩ := List.head?_eq_some_iff.mp (head?_strip hbefore hmark _)
      rw [hrest]
      rfl

/-! ## Lists of lines -/

theorem ofLines_of_written {entries : List (Text × ℚ≥0)} {lines : List Text}
    (h : WrittenLines entries lines) :
    (ofLines lines).map (fun p => (p.text, p.weight.value)) = entries := by
  unfold ofLines
  induction h with
  | nil => rfl
  | skipped hline _ ih => rw [List.filterMap_cons_none (ofLine?_of_skipped hline), ih]
  | prototype ht hline _ ih =>
      obtain ⟨weight, hread, hvalue⟩ := ofLine?_of_written ht hline
      rw [List.filterMap_cons_some hread, List.map_cons, ih, hvalue]

/-- What is written on a line is read from it: the text without its escapes, and the weight of its tag,
or one. So lines read as the prototypes that are written on them, in their order, with their weights,
whatever arithmetic the weights are given to. -/
theorem ofLines_written :
    (∀ t, Writable t → ofLine? (escape t) = some ⟨t, .one⟩) ∧
    (∀ t before after w q, Writable t → escape t = before ++ after → before.getLast? ≠ some '\\' →
      Spells w q →
      ∃ weight, ofLine? (before ++ '%' :: (w ++ '%' :: after)) = some ⟨t, weight⟩ ∧
        weight.value = q) ∧
    ∀ entries lines, WrittenLines entries lines →
      ∃ weights : List WeightLiteral, weights.map (·.value) = entries.map (·.2) ∧
        ∀ (W : Type) [Weight W], (PrototypeList.ofLines lines : PrototypeList W) =
          { items := entries.map (·.1), weights := weights.map Weight.ofLiteral } := by
  refine ⟨fun _ => ofLine?_escape, ?_, ?_⟩
  · exact fun t before after w q ht hcut hback hw => ofLine?_of_written ht (.tagged hcut hback hw)
  · intro entries lines hlines
    have hread := ofLines_of_written hlines
    refine ⟨(ofLines lines).map (·.weight), ?_, fun W _ => ?_⟩
    · rw [← hread, List.map_map, List.map_map]
      rfl
    · rw [← hread, List.map_map, List.map_map]
      rfl

/-- A tag in front of an escaped percent sign, behind what looks like another. -/
theorem ofLines_written_glued :
    let lines := ["# weights".toList, "\\%80%.5%\\%".toList, " ".toList, "go".toList]
    WrittenLines [("%80%".toList, 1 / 2), ("go".toList, 1)] lines ∧
      ∃ weights : List WeightLiteral, weights.map (·.value) = [1 / 2, 1] ∧
        (PrototypeList.ofLines lines : PrototypeList ExactWeight) =
          { items := ["%80%".toList, "go".toList], weights := weights.map Weight.ofLiteral } := by
  intro lines
  have hpercents : Writable "%80%".toList := ⟨by decide, by decide, by decide⟩
  have hgo : Writable "go".toList := ⟨by decide, by decide, by decide⟩
  have hhalf : Spells ".5".toList (1 / 2) := by
    have hspelled : Spells ([] ++ '.' :: ['5']) (number [] + number ['5'] / 10 ^ 1) :=
      .pointed (List.all_eq_true.mp rfl) (List.all_eq_true.mp rfl) (by decide)
    have hvalue : ((number [] : ℚ≥0) + number ['5'] / 10 ^ 1) = 1 / 2 := by
      rw [show number [] = 0 from rfl, show number ['5'] = 5 from rfl]
      norm_num
    rwa [hvalue] at hspelled
  have hcut : escape "%80%".toList = "\\%80".toList ++ "\\%".toList := rfl
  have hblank : Blank " ".toList := by decide
  have hcomment : Skipped ([] ++ '#' :: " weights".toList) := .comment blank_nil
  have hlines : WrittenLines [("%80%".toList, 1 / 2), ("go".toList, 1)] lines :=
    .skipped hcomment (.prototype hpercents (.tagged hcut (by decide) hhalf)
      (.skipped (.blank hblank) (.prototype hgo .plain .nil)))
  obtain ⟨weights, hweights, hread⟩ := ofLines_written.2.2 _ _ hlines
  exact ⟨hlines, weights, hweights, hread ExactWeight⟩

end Prototype

end Errand
