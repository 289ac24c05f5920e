import Errand.Wildcard.Body
import Mathlib.Data.List.Chain
import Mathlib.Data.List.TakeWhile

/-! # The grammar of the text between the braces

A body is a name, and after it a type, a number, a question mark and metadata, each of which may be
missing. `Written` says how these parts are written and what sets them off. Reading accepts exactly
the bodies that are written so, and finds their parts: no text is written in two ways with different
parts.
-/

namespace Errand

namespace Text

/-! ## Classes of characters -/

theorem mem_of_inRanges {ranges : List (Nat × Nat)} {n : Nat} (h : inRanges ranges n = true) :
    n ∈ ranges.flatMap fun r => List.range' r.1 (r.2 + 1 - r.1) := by
  induction ranges with
  | nil => simp [inRanges] at h
  | cons range rest ih =>
      obtain ⟨first, last⟩ := range
      rw [List.flatMap_cons, List.mem_append]
      by_cases hfirst : n < first
      · simp [inRanges, hfirst] at h
      · by_cases hlast : n ≤ last
        · left
          rw [List.mem_range'_1]
          omega
        · right
          apply ih
          simpa [inRanges, hfirst, hlast] using h

theorem isWord_of_isBlank {c : Char} (h : isBlank c = true) : isWord c = false := by
  have hall : (blankRanges.flatMap fun r => List.range' r.1 (r.2 + 1 - r.1)).all
      (fun n => !inRanges wordRanges n) = true := by decide +kernel
  simpa [isWord] using List.all_eq_true.mp hall c.toNat (mem_of_inRanges h)

theorem inRanges_of_mem {ranges : List (Nat × Nat)} {r : Nat × Nat} {n : Nat}
    (ascending : (ranges.map Prod.fst).Pairwise (· ≤ ·)) (hr : r ∈ ranges) (hfirst : r.1 ≤ n)
    (hlast : n ≤ r.2) : inRanges ranges n = true := by
  induction ranges with
  | nil => cases hr
  | cons range rest ih =>
      rw [List.map_cons, List.pairwise_cons] at ascending
      unfold inRanges
      rcases List.mem_cons.mp hr with rfl | hr
      · simp [Nat.not_lt.mpr hfirst, hlast]
      · have hle : range.1 ≤ n :=
          (ascending.1 r.1 (List.mem_map_of_mem hr)).trans hfirst
        simp [Nat.not_lt.mpr hle, ih ascending.2 hr]

/-- Each range in turn takes the scripts off whose digits lie in it. -/
theorem exists_range_of_foldl {ranges : List (Nat × Nat)} {zeros : List Nat} {z : Nat}
    (h : ranges.foldl (fun zeros r =>
      zeros.dropWhile fun z => decide (r.1 ≤ z) && decide (z + 9 ≤ r.2)) zeros = [])
    (hz : z ∈ zeros) : ∃ r ∈ ranges, r.1 ≤ z ∧ z + 9 ≤ r.2 := by
  induction ranges generalizing zeros with
  | nil =>
      rw [List.foldl_nil] at h
      rw [h] at hz
      cases hz
  | cons r rest ih =>
      rw [List.foldl_cons] at h
      rw [← List.takeWhile_append_dropWhile (l := zeros)
        (p := fun z => decide (r.1 ≤ z) && decide (z + 9 ≤ r.2))] at hz
      rcases List.mem_append.mp hz with hz | hz
      · have hin := List.mem_takeWhile_imp hz
        simp only [Bool.and_eq_true, decide_eq_true_eq] at hin
        exact ⟨r, List.mem_cons_self, hin⟩
      · obtain ⟨q, hq, hin⟩ := ih h hz
        exact ⟨q, List.mem_cons_of_mem r hq, hin⟩

theorem isWord_of_isDigit {c : Char} (h : isDigit c = true) : isWord c = true := by
  simp only [isDigit, digitValue?, Option.isSome_map, List.find?_isSome, Bool.and_eq_true,
    decide_eq_true_eq] at h
  obtain ⟨z, hz, hlow, hhigh⟩ := h
  have ascending : (wordRanges.map Prod.fst).Pairwise (· ≤ ·) :=
    List.isChain_iff_pairwise.mp (by decide +kernel)
  obtain ⟨r, hr, hfirst, hlast⟩ :=
    exists_range_of_foldl (by decide +kernel : wordRanges.foldl _ digitZeros = []) hz
  exact inRanges_of_mem ascending hr (by omega) (by omega)

theorem isBlank_eq_false_of_isWord {c : Char} (h : isWord c = true) : isBlank c = false := by
  rw [Bool.eq_false_iff]
  intro hblank
  rw [isWord_of_isBlank hblank] at h
  cases h

theorem isDigit_eq_false_of_isWord {c : Char} (h : isWord c = false) : isDigit c = false := by
  rw [Bool.eq_false_iff]
  intro hdigit
  rw [isWord_of_isDigit hdigit] at h
  cases h

theorem toNat_mem_of_isNameStart {c : Char} (h : isNameStart c = true) :
    c.toNat ∈ [95, 304, 305, 383, 8490] ++ List.range' 65 26 ++ List.range' 97 26 := by
  simp only [isNameStart, Bool.or_eq_true, Bool.and_eq_true, decide_eq_true_eq, beq_iff_eq] at h
  simp only [List.mem_append, List.mem_range'_1]
  rcases h with ((((((⟨hlow, hhigh⟩ | ⟨hlow, hhigh⟩) | rfl) | rfl) | rfl) | rfl) | rfl)
  · left; right
    rw [Char.le_def, UInt32.le_iff_toNat_le] at hlow hhigh
    change 65 ≤ c.toNat at hlow
    change c.toNat ≤ 90 at hhigh
    omega
  · right
    rw [Char.le_def, UInt32.le_iff_toNat_le] at hlow hhigh
    change 97 ≤ c.toNat at hlow
    change c.toNat ≤ 122 at hhigh
    omega
  all_goals left; left; decide

theorem isWord_of_isNameStart {c : Char} (h : isNameStart c = true) : isWord c = true := by
  have hall : ([95, 304, 305, 383, 8490] ++ List.range' 65 26 ++ List.range' 97 26).all
      (inRanges wordRanges) = true := by decide +kernel
  exact List.all_eq_true.mp hall c.toNat (toNat_mem_of_isNameStart h)

theorem isNameStart_of_isDigit {c : Char} (h : isDigit c = true) : isNameStart c = false := by
  have hall : ([95, 304, 305, 383, 8490] ++ List.range' 65 26 ++ List.range' 97 26).all
      (fun n => (digitZeros.find? fun z => decide (z ≤ n) && decide (n < z + 10)).isNone) = true := by
    decide +kernel
  rw [Bool.eq_false_iff]
  intro hstart
  have hnone := List.all_eq_true.mp hall c.toNat (toNat_mem_of_isNameStart hstart)
  simp only [isDigit, digitValue?, Option.isSome_map] at h
  rw [Option.isNone_iff_eq_none] at hnone
  rw [hnone] at h
  cases h

theorem eq_or_toNat_of_toLower_eq {c d : Char} (h : c.toLower = d) :
    c = d ∨ c.toNat + 32 = d.toNat := by
  unfold Char.toLower at h
  split at h
  · next hupper =>
      right
      have hbound : c.val.toNat ≤ 90 := UInt32.le_iff_toNat_le.mp hupper.2
      rw [← h]
      change c.val.toNat + 32 = (c.val + 32).toNat
      rw [UInt32.toNat_add]
      change _ = (c.val.toNat + 32) % 2 ^ 32
      omega
  · exact .inl h

/-! ## Stretches of one class -/

def Blank (t : Text) : Prop := ∀ c ∈ t, isBlank c = true

instance decidableBlank (t : Text) : Decidable (Blank t) :=
  decidable_of_iff (t.all isBlank = true) List.all_eq_true

@[simp] theorem blank_nil : Blank [] := fun _ hc => absurd hc List.not_mem_nil

theorem Blank.append {x y : Text} (hx : Blank x) (hy : Blank y) : Blank (x ++ y) :=
  List.forall_mem_append.mpr ⟨hx, hy⟩

theorem takeWhile_append_of_stop {p : Char → Bool} {x r : Text} (hx : ∀ c ∈ x, p c = true)
    (hr : ∀ c ∈ r.head?, p c = false) : (x ++ r).takeWhile p = x := by
  rw [List.takeWhile_append_of_pos hx]
  cases r with
  | nil => simp
  | cons c r => simp [hr c rfl]

theorem dropWhile_append_of_stop {p : Char → Bool} {x r : Text} (hx : ∀ c ∈ x, p c = true)
    (hr : ∀ c ∈ r.head?, p c = false) : (x ++ r).dropWhile p = r := by
  rw [List.dropWhile_append_of_pos hx]
  cases r with
  | nil => rfl
  | cons c r => simp [hr c rfl]

theorem head?_dropWhile {p : Char → Bool} {t : Text} : ∀ c ∈ (t.dropWhile p).head?, p c = false := by
  intro c hc
  have h := List.head?_dropWhile_not p t
  rw [hc] at h
  exact h

theorem skipBlanks_append {x r : Text} (hx : Blank x) (hr : ∀ c ∈ r.head?, isBlank c = false) :
    skipBlanks (x ++ r) = r :=
  dropWhile_append_of_stop hx hr

theorem exists_blank_append_skipBlanks (t : Text) : ∃ x, Blank x ∧ t = x ++ skipBlanks t :=
  ⟨t.takeWhile isBlank, fun _ hc => List.mem_takeWhile_imp hc,
    (List.takeWhile_append_dropWhile).symm⟩

end Text

namespace Wildcard

open Text

/-! ## How the parts are written -/

def IsIdentifier (t : Text) : Prop :=
  ∃ first rest, t = first :: rest ∧ isNameStart first = true ∧ ∀ c ∈ rest, isWord c = true

def IsMeta (t : Text) : Prop := t.map Char.toLower = ['m', 'e', 't', 'a']

/-- What sets a part off from the one before it: a mark that may have white space around it, or
white space alone. -/
inductive Separates (mark : Char) : Text → Prop
  | marked {before after : Text} (hbefore : Blank before) (hafter : Blank after) :
      Separates mark (before ++ mark :: after)
  | blank {gap : Text} (hgap : Blank gap) (hne : gap ≠ []) : Separates mark gap

inductive TypePart : Option Text → Text → Prop
  | missing : TypePart none []
  | present {gap type : Text} (hgap : Separates ':' gap) (htype : IsIdentifier type)
      (hmeta : ¬ IsMeta type) : TypePart (some type) (gap ++ type)

inductive NumberPart : Option Text → Text → Prop
  | missing : NumberPart none []
  | present {gap digits : Text} (hgap : Separates '#' gap) (hdigits : ∀ c ∈ digits, isDigit c = true)
      (hne : digits ≠ []) : NumberPart (some digits) (gap ++ digits)

inductive MarkPart : Bool → Text → Prop
  | missing : MarkPart false []
  | present {gap : Text} (hgap : Blank gap) : MarkPart true (gap ++ ['?'])

/-- The parts before the metadata. -/
inductive Heading (b : Body) : Text → Prop
  | intro {lead type digits mark : Text} (hlead : Blank lead) (hname : IsIdentifier b.name)
      (htype : TypePart b.type type) (hdigits : NumberPart b.digits digits)
      (hmark : MarkPart b.obfuscated mark) : Heading b (lead ++ b.name ++ type ++ digits ++ mark)

/-- How a body is written. The word `meta` does not stand directly after a word character. -/
inductive Written (b : Body) : Text → Prop
  | bare {head gap : Text} (heading : Heading b head) (hgap : Blank gap) (hmeta : b.metadata = []) :
      Written b (head ++ gap)
  | withMetadata {head gap word space text : Text} (heading : Heading b head) (hgap : Blank gap)
      (hword : IsMeta word) (apart : ∀ c ∈ (head ++ gap).getLast?, isWord c = false)
      (hspace : Blank space) (hmeta : b.metadata = strip text) :
      Written b (head ++ gap ++ word ++ space ++ ':' :: text)

/-! ## Identifiers -/

theorem IsIdentifier.ne_nil {t : Text} (h : IsIdentifier t) : t ≠ [] := by
  obtain ⟨first, rest, rfl, _⟩ := h
  exact List.cons_ne_nil first rest

theorem IsIdentifier.isWord {t : Text} (h : IsIdentifier t) : ∀ c ∈ t, isWord c = true := by
  obtain ⟨first, rest, rfl, hfirst, hrest⟩ := h
  intro c hc
  rcases List.mem_cons.mp hc with rfl | hc
  · exact isWord_of_isNameStart hfirst
  · exact hrest c hc

theorem startsInWord_eq_false_iff {t : Text} :
    startsInWord t = false ↔ ∀ c ∈ t.head?, isWord c = false := by
  cases t <;> simp [startsInWord]

theorem identifier?_append {x r : Text} (hx : IsIdentifier x) (hr : startsInWord r = false) :
    identifier? (x ++ r) = some (x, r) := by
  obtain ⟨first, rest, rfl, hfirst, hrest⟩ := hx
  have hstop := startsInWord_eq_false_iff.mp hr
  rw [List.cons_append, identifier?, if_pos hfirst, takeWhile_append_of_stop hrest hstop,
    dropWhile_append_of_stop hrest hstop]

theorem identifier?_eq_some {t x r : Text} (h : identifier? t = some (x, r)) :
    t = x ++ r ∧ IsIdentifier x ∧ startsInWord r = false := by
  cases t with
  | nil => cases h
  | cons c t =>
      rw [identifier?] at h
      by_cases hfirst : isNameStart c = true
      · rw [if_pos hfirst, Option.some.injEq, Prod.mk.injEq] at h
        obtain ⟨rfl, rfl⟩ := h
        refine ⟨?_, ⟨c, _, rfl, hfirst, fun d hd => List.mem_takeWhile_imp hd⟩, ?_⟩
        · rw [List.cons_append, List.takeWhile_append_dropWhile]
        · exact startsInWord_eq_false_iff.mpr head?_dropWhile
      · rw [if_neg hfirst] at h
        cases h

theorem identifier?_eq_none {t : Text} (h : ∀ c ∈ t.head?, isNameStart c = false) :
    identifier? t = none := by
  cases t with
  | nil => rfl
  | cons c t => simp [identifier?, h c rfl]

/-! ## The word `meta` -/

theorem afterMeta?_append {word r : Text} (h : IsMeta word) : afterMeta? (word ++ r) = some r := by
  obtain ⟨m, e, t, a, rfl⟩ := List.length_eq_four.mp (by simpa using congrArg List.length h)
  simp only [List.cons_append, List.nil_append, afterMeta?]
  exact if_pos h

theorem afterMeta?_eq_some {t r : Text} (h : afterMeta? t = some r) :
    ∃ word, IsMeta word ∧ t = word ++ r := by
  unfold afterMeta? at h
  split at h
  · next m e t a rest =>
      split at h
      · next hword =>
          obtain rfl := Option.some.inj h
          exact ⟨[m, e, t, a], hword, rfl⟩
      · cases h
  · cases h

theorem IsMeta.toLower_mem {word : Text} (h : IsMeta word) :
    ∀ c ∈ word, c.toLower ∈ ['m', 'e', 't', 'a'] := by
  intro c hc
  unfold IsMeta at h
  rw [← h]
  exact List.mem_map_of_mem hc

theorem IsMeta.isWord {word : Text} (h : IsMeta word) : ∀ c ∈ word, isWord c = true := by
  intro c hc
  have hlower := h.toLower_mem c hc
  have hall : ([109, 101, 116, 97] : List Nat).all
      (fun n => inRanges wordRanges n && inRanges wordRanges (n - 32)) = true := by decide +kernel
  have hmem : c.toLower.toNat ∈ ([109, 101, 116, 97] : List Nat) :=
    List.mem_map_of_mem (f := Char.toNat) hlower
  have hboth := List.all_eq_true.mp hall _ hmem
  rw [Bool.and_eq_true] at hboth
  rcases eq_or_toNat_of_toLower_eq (c := c) rfl with heq | heq
  · rw [← heq] at hboth
    exact hboth.1
  · rw [← heq, Nat.add_sub_cancel] at hboth
    exact hboth.2

/-- A type that is not the word `meta` is not mistaken for it, whatever follows. -/
theorem startsWithMeta_append {type r : Text} (htype : IsIdentifier type) (hmeta : ¬ IsMeta type)
    (hr : startsInWord r = false) : startsWithMeta (type ++ r) = false := by
  unfold startsWithMeta
  cases hafter : afterMeta? (type ++ r) with
  | none => rfl
  | some rest =>
      obtain ⟨word, hword, heq⟩ := afterMeta?_eq_some hafter
      rcases List.append_eq_append_iff.mp heq with ⟨more, hmore, hsplit⟩ | ⟨more, hmore, hsplit⟩
      · -- The letters of the word go on behind the type, where no word character stands.
        cases more with
        | nil =>
            rw [List.append_nil] at hmore
            exact absurd (hmore ▸ hword) hmeta
        | cons c more =>
            have hc : isWord c = true := hword.isWord c (by simp [hmore])
            have hstop := startsInWord_eq_false_iff.mp hr c (by simp [hsplit])
            rw [hc] at hstop
            cases hstop
      · cases more with
        | nil =>
            rw [List.append_nil] at hmore
            exact absurd (hmore ▸ hword) hmeta
        | cons c more =>
            have hc : isWord c = true := htype.isWord c (by simp [hmore])
            simp [hsplit, startsInWord, hc]

/-! ## What sets parts off -/

theorem Separates.startsInWord {mark : Char} {gap : Text} (h : Separates mark gap)
    (hmark : isWord mark = false) (r : Text) : startsInWord (gap ++ r) = false := by
  rw [startsInWord_eq_false_iff]
  intro c hc
  cases h with
  | @marked before after hbefore =>
      cases before with
      | nil =>
          obtain rfl : mark = c := by simpa using hc
          exact hmark
      | cons d before =>
          obtain rfl : d = c := by simpa using hc
          exact isWord_of_isBlank (hbefore d List.mem_cons_self)
  | blank hgap hne =>
      cases gap with
      | nil => exact absurd rfl hne
      | cons d gap =>
          obtain rfl : d = c := by simpa using hc
          exact isWord_of_isBlank (hgap d List.mem_cons_self)

theorem afterSeparator?_append {mark c : Char} {gap r : Text} (h : Separates mark gap)
    (hmark : isBlank mark = false) (hc : isBlank c = false) (hne : c ≠ mark) :
    afterSeparator? mark (gap ++ c :: r) = some (c :: r) := by
  have hstop : ∀ d ∈ (c :: r).head?, isBlank d = false := by simpa using hc
  cases h with
  | @marked before after hbefore hafter =>
      have hskip : skipBlanks (before ++ mark :: (after ++ c :: r)) = mark :: (after ++ c :: r) :=
        skipBlanks_append hbefore (by simpa using hmark)
      rw [List.append_assoc, List.cons_append]
      unfold afterSeparator?
      rw [hskip]
      dsimp only
      rw [if_pos rfl, skipBlanks_append hafter hstop]
  | blank hgap hnonempty =>
      have hskip : skipBlanks (gap ++ c :: r) = c :: r := skipBlanks_append hgap hstop
      have hlength : (c :: r).length < (gap ++ c :: r).length := by
        have hpos := List.length_pos_iff.mpr hnonempty
        rw [List.length_append]
        omega
      unfold afterSeparator?
      rw [hskip]
      dsimp only
      rw [if_neg hne, if_pos hlength]

theorem afterSeparator?_eq_some {mark : Char} {t r : Text} (h : afterSeparator? mark t = some r) :
    ∃ gap, Separates mark gap ∧ t = gap ++ r := by
  obtain ⟨before, hbefore, hsplit⟩ := exists_blank_append_skipBlanks t
  unfold afterSeparator? at h
  split at h
  · next c rest hskip =>
      rw [hskip] at hsplit h
      split at h
      · next heq =>
          obtain rfl := Option.some.inj h
          obtain ⟨after, hafter, hrest⟩ := exists_blank_append_skipBlanks rest
          refine ⟨before ++ mark :: after, .marked hbefore hafter, ?_⟩
          rw [hsplit, List.append_assoc, List.cons_append, ← hrest, heq]
      · split at h
        · next hlength =>
            obtain rfl := Option.some.inj h
            refine ⟨before, .blank hbefore ?_, hsplit⟩
            rintro rfl
            rw [hsplit] at hlength
            exact absurd hlength (by simp)
        · cases h
  · cases h

theorem afterSeparator?_of_head {mark : Char} {t r : Text} (hhead : mark ∉ (skipBlanks t).head?)
    (h : afterSeparator? mark t = some r) : r = skipBlanks t := by
  unfold afterSeparator? at h
  split at h
  · next c rest hskip =>
      rw [hskip] at hhead h ⊢
      have hne : c ≠ mark := by simpa using hhead
      rw [if_neg hne] at h
      split at h
      · exact (Option.some.inj h).symm
      · cases h
  · cases h

/-! ## The type -/

theorem type?_append {type r x : Text} (h : TypePart (some type) x) (hr : startsInWord r = false) :
    type? (x ++ r) = some (type, r) := by
  cases h with
  | present hgap htype hmeta =>
      have hidentifier := htype
      obtain ⟨first, rest, rfl, hfirst, hrest⟩ := hidentifier
      have hword := isWord_of_isNameStart hfirst
      have hblank := isBlank_eq_false_of_isWord hword
      have hcolon : first ≠ ':' := by
        rintro rfl
        exact absurd hword (by decide +kernel)
      have hafter := afterSeparator?_append (r := rest ++ r) hgap (by decide) hblank hcolon
      rw [← List.cons_append] at hafter
      unfold type?
      rw [List.append_assoc, hafter, Option.bind_eq_bind, Option.bind_some,
        startsWithMeta_append htype hmeta hr]
      exact identifier?_append htype hr

theorem type?_eq_some {t type r : Text} (h : type? t = some (type, r)) :
    ∃ x, TypePart (some type) x ∧ t = x ++ r := by
  unfold type? at h
  rw [Option.bind_eq_bind, Option.bind_eq_some_iff] at h
  obtain ⟨rest, hafter, h⟩ := h
  obtain ⟨gap, hgap, rfl⟩ := afterSeparator?_eq_some hafter
  split at h
  · cases h
  · next hmeta =>
      obtain ⟨rfl, htype, hr⟩ := identifier?_eq_some h
      refine ⟨gap ++ type, .present hgap htype ?_, (List.append_assoc ..).symm⟩
      intro hword
      apply hmeta
      unfold startsWithMeta
      rw [afterMeta?_append hword]
      simp [hr]

theorem type?_eq_none {t : Text} (hcolon : ':' ∉ (skipBlanks t).head?)
    (h : startsWithMeta (skipBlanks t) = true ∨ identifier? (skipBlanks t) = none) :
    type? t = none := by
  unfold type?
  rw [Option.bind_eq_bind]
  cases hafter : afterSeparator? ':' t with
  | none => rfl
  | some r =>
      rw [afterSeparator?_of_head hcolon hafter, Option.bind_some]
      rcases h with h | h
      · rw [if_pos h]
      · rw [h, ite_self]

/-! ## The number -/

theorem digits?_append {digits r x : Text} (h : NumberPart (some digits) x)
    (hr : startsInWord r = false) : digits? (x ++ r) = some (digits, r) := by
  cases h with
  | present hgap hdigits hne =>
      obtain ⟨first, rest, rfl⟩ := List.exists_cons_of_ne_nil hne
      have hfirst := hdigits first List.mem_cons_self
      have hword := isWord_of_isDigit hfirst
      have hblank := isBlank_eq_false_of_isWord hword
      have hmark : first ≠ '#' := by
        rintro rfl
        exact absurd hword (by decide +kernel)
      have hafter := afterSeparator?_append (r := rest ++ r) hgap (by decide) hblank hmark
      have hstop : ∀ c ∈ r.head?, isDigit c = false := fun c hc =>
        isDigit_eq_false_of_isWord (startsInWord_eq_false_iff.mp hr c hc)
      rw [← List.cons_append] at hafter
      unfold digits?
      rw [List.append_assoc, hafter, Option.bind_eq_bind, Option.bind_some,
        takeWhile_append_of_stop hdigits hstop, dropWhile_append_of_stop hdigits hstop]
      rfl

theorem digits?_eq_some {t digits r : Text} (h : digits? t = some (digits, r)) :
    ∃ x, NumberPart (some digits) x ∧ t = x ++ r := by
  unfold digits? at h
  rw [Option.bind_eq_bind, Option.bind_eq_some_iff] at h
  obtain ⟨rest, hafter, h⟩ := h
  obtain ⟨gap, hgap, rfl⟩ := afterSeparator?_eq_some hafter
  dsimp only at h
  split at h
  · cases h
  · next hne =>
      rw [Option.some.injEq, Prod.mk.injEq] at h
      obtain ⟨rfl, rfl⟩ := h
      refine ⟨gap ++ rest.takeWhile isDigit, .present hgap ?_ (by simpa using hne), ?_⟩
      · intro c hc
        exact List.mem_takeWhile_imp hc
      · rw [List.append_assoc, List.takeWhile_append_dropWhile]

theorem digits?_eq_none {t : Text} (hmark : '#' ∉ (skipBlanks t).head?)
    (h : ∀ c ∈ (skipBlanks t).head?, isDigit c = false) : digits? t = none := by
  unfold digits?
  rw [Option.bind_eq_bind]
  cases hafter : afterSeparator? '#' t with
  | none => rfl
  | some r =>
      rw [afterSeparator?_of_head hmark hafter, Option.bind_some]
      cases hskip : skipBlanks t with
      | nil => rfl
      | cons c rest =>
          rw [hskip] at h
          simp [h c rfl]

/-! ## The question mark and the metadata -/

theorem mark_eq {t r : Text} {obfuscated : Bool} (h : mark t = (obfuscated, r)) :
    ∃ x gap, MarkPart obfuscated x ∧ Blank gap ∧ t = x ++ gap ++ r := by
  obtain ⟨before, hbefore, hsplit⟩ := exists_blank_append_skipBlanks t
  unfold mark at h
  split at h
  · next rest hskip =>
      rw [Prod.mk.injEq] at h
      obtain ⟨rfl, rfl⟩ := h
      obtain ⟨gap, hgap, hrest⟩ := exists_blank_append_skipBlanks rest
      refine ⟨before ++ ['?'], gap, .present hbefore, hgap, ?_⟩
      rw [List.append_assoc, ← hrest, List.append_assoc, List.singleton_append, ← hskip, ← hsplit]
  · rw [Prod.mk.injEq] at h
    obtain ⟨rfl, rfl⟩ := h
    exact ⟨[], before, .missing, hbefore, hsplit⟩

theorem metadata?_eq_some {t metadata : Text} (h : metadata? t = some metadata) :
    ∃ word space text, IsMeta word ∧ Blank space ∧ t = word ++ space ++ ':' :: text ∧
      metadata = strip text := by
  unfold metadata? at h
  rw [Option.bind_eq_bind, Option.bind_eq_some_iff] at h
  obtain ⟨rest, hafter, h⟩ := h
  obtain ⟨word, hword, rfl⟩ := afterMeta?_eq_some hafter
  split at h
  · next text hskip =>
      obtain ⟨space, hspace, hrest⟩ := exists_blank_append_skipBlanks rest
      refine ⟨word, space, text, hword, hspace, ?_, (Option.some.inj h).symm⟩
      rw [List.append_assoc, ← hskip, ← hrest]
  · cases h

theorem metadata?_append {word space text : Text} (hword : IsMeta word) (hspace : Blank space) :
    metadata? (word ++ space ++ ':' :: text) = some (strip text) := by
  unfold metadata?
  rw [List.append_assoc, afterMeta?_append hword, Option.bind_eq_bind, Option.bind_some,
    skipBlanks_append hspace (by simp [show isBlank ':' = false by decide])]
  rfl

/-! ## Reading what is written -/

theorem optional_type?_eq {t r : Text} {type : Option Text} (h : optional type? t = (type, r)) :
    ∃ x, TypePart type x ∧ t = x ++ r := by
  unfold optional at h
  split at h
  · next found rest hfound =>
      rw [Prod.mk.injEq] at h
      obtain ⟨rfl, rfl⟩ := h
      exact type?_eq_some hfound
  · rw [Prod.mk.injEq] at h
    obtain ⟨rfl, rfl⟩ := h
    exact ⟨[], .missing, rfl⟩

theorem optional_digits?_eq {t r : Text} {digits : Option Text}
    (h : optional digits? t = (digits, r)) : ∃ x, NumberPart digits x ∧ t = x ++ r := by
  unfold optional at h
  split at h
  · next found rest hfound =>
      rw [Prod.mk.injEq] at h
      obtain ⟨rfl, rfl⟩ := h
      exact digits?_eq_some hfound
  · rw [Prod.mk.injEq] at h
    obtain ⟨rfl, rfl⟩ := h
    exact ⟨[], .missing, rfl⟩

theorem MarkPart.isWord_of_mem {obfuscated : Bool} {mark gap : Text} (h : MarkPart obfuscated mark)
    (hgap : Blank gap) : ∀ c ∈ mark ++ gap, isWord c = false := by
  intro c hc
  rcases List.mem_append.mp hc with hc | hc
  · cases h with
    | missing => cases hc
    | present hbefore =>
        rcases List.mem_append.mp hc with hc | hc
        · exact isWord_of_isBlank (hbefore c hc)
        · obtain rfl := List.mem_singleton.mp hc
          decide +kernel
  · exact isWord_of_isBlank (hgap c hc)

/-- A body is read only as it is written. -/
theorem written_of_read? {t : Text} {b : Body} (h : Body.read? t = some b) : Written b t := by
  obtain ⟨lead, hlead, hskip⟩ := exists_blank_append_skipBlanks t
  unfold Body.read? at h
  rw [Option.bind_eq_bind, Option.bind_eq_some_iff] at h
  obtain ⟨⟨name, afterName⟩, hname, h⟩ := h
  rcases htype : optional type? afterName with ⟨type, afterType⟩
  rcases hdigits : optional digits? afterType with ⟨digits, afterDigits⟩
  rcases hmark : mark afterDigits with ⟨obfuscated, rest⟩
  simp only [htype, hdigits, hmark] at h
  obtain ⟨hsplit, isName, _⟩ := identifier?_eq_some hname
  obtain ⟨x, isType, rfl⟩ := optional_type?_eq htype
  obtain ⟨y, isNumber, rfl⟩ := optional_digits?_eq hdigits
  obtain ⟨z, gap, isMark, hgap, rfl⟩ := mark_eq hmark
  have hwhole : t = lead ++ name ++ x ++ y ++ z ++ gap ++ rest := by
    rw [hskip, hsplit]
    simp only [List.append_assoc]
  split at h
  · next hempty =>
      obtain rfl := Option.some.inj h
      obtain rfl := List.isEmpty_iff.mp hempty
      rw [hwhole, List.append_nil]
      exact .bare (.intro hlead isName isType isNumber isMark) hgap rfl
  · split at h
    · cases h
    · next hlength =>
        rw [Option.bind_eq_bind, Option.bind_eq_some_iff] at h
        obtain ⟨metadata, hmetadata, h⟩ := h
        obtain rfl := Option.some.inj h
        obtain ⟨word, space, text, hword, hspace, rfl, hmeta⟩ := metadata?_eq_some hmetadata
        have hne : z ++ gap ≠ [] := by
          intro hnil
          apply hlength
          rw [hnil, List.nil_append]
        have apart : ∀ c ∈ (lead ++ name ++ x ++ y ++ z ++ gap).getLast?, isWord c = false := by
          intro c hc
          rw [List.append_assoc _ z, List.getLast?_append_of_ne_nil _ hne] at hc
          exact isMark.isWord_of_mem hgap c (List.mem_of_getLast? hc)
        have hwritten := Written.withMetadata (b := ⟨name, type, digits, obfuscated, metadata⟩)
          (.intro hlead isName isType isNumber isMark) hgap hword apart hspace hmeta
        rw [hwhole]
        simpa only [List.append_assoc] using hwritten

/-- The rest of a body behind its number: no part before the question mark can go on with it. -/
structure Closes (t : Text) : Prop where
  noWord : startsInWord t = false
  noColon : ':' ∉ (skipBlanks t).head?
  noHash : '#' ∉ (skipBlanks t).head?
  noDigit : ∀ c ∈ (skipBlanks t).head?, isDigit c = false
  noType : startsWithMeta (skipBlanks t) = true ∨ identifier? (skipBlanks t) = none

/-- Nothing, or the metadata from the word `meta` on. -/
inductive MetadataPart : Text → Text → Prop
  | missing : MetadataPart [] []
  | present {word space text : Text} (hword : IsMeta word) (hspace : Blank space) :
      MetadataPart (strip text) (word ++ space ++ ':' :: text)

theorem MetadataPart.head {metadata tail : Text} (h : MetadataPart metadata tail) :
    ∀ c ∈ tail.head?, c.toLower = 'm' ∧ isWord c = true := by
  intro c hc
  cases h with
  | missing => cases hc
  | @present word space text hword =>
      obtain ⟨m, e, t, a, rfl⟩ :=
        List.length_eq_four.mp (by simpa using congrArg List.length hword)
      obtain rfl : m = c := by simpa using hc
      have hm : m.toLower = 'm' := (List.cons.inj hword).1
      exact ⟨hm, hword.isWord m List.mem_cons_self⟩

theorem MetadataPart.not_isBlank_head {metadata tail : Text} (h : MetadataPart metadata tail) :
    ∀ c ∈ tail.head?, isBlank c = false :=
  fun c hc => isBlank_eq_false_of_isWord (h.head c hc).2

theorem skipBlanks_closing {obfuscated : Bool} {mark gap metadata tail : Text}
    (hmark : MarkPart obfuscated mark) (hgap : Blank gap) (htail : MetadataPart metadata tail) :
    skipBlanks (mark ++ gap ++ tail) = if obfuscated then '?' :: (gap ++ tail) else tail := by
  cases hmark with
  | missing => exact skipBlanks_append hgap htail.not_isBlank_head
  | @present before hbefore =>
      have hquestion : isBlank '?' = false := by decide
      simp only [List.append_assoc, List.singleton_append]
      exact skipBlanks_append hbefore (by simp [hquestion])

/-- Metadata starts with a letter, which no other part starts with. -/
theorem MetadataPart.head_letter {metadata tail : Text} (h : MetadataPart metadata tail) :
    ∀ c ∈ tail.head?, c ≠ ':' ∧ c ≠ '#' ∧ isDigit c = false := by
  intro c hc
  obtain ⟨hm, _⟩ := h.head c hc
  refine ⟨?_, ?_, ?_⟩
  · rintro rfl
    exact absurd hm (by decide)
  · rintro rfl
    exact absurd hm (by decide)
  · rcases eq_or_toNat_of_toLower_eq hm with rfl | hcapital
    · decide +kernel
    · change c.toNat + 32 = 109 at hcapital
      have hM : c = 'M' := Char.toNat_inj.mp (by change c.toNat = 77; omega)
      rw [hM]
      decide +kernel

theorem closes_closing {obfuscated : Bool} {mark gap metadata tail : Text}
    (hmark : MarkPart obfuscated mark) (hgap : Blank gap) (htail : MetadataPart metadata tail)
    (apart : mark ++ gap = [] → tail = []) : Closes (mark ++ gap ++ tail) := by
  have hskip := skipBlanks_closing hmark hgap htail
  have hnoWord : startsInWord (mark ++ gap ++ tail) = false := by
    rw [startsInWord_eq_false_iff]
    intro c hc
    by_cases hnil : mark ++ gap = []
    · rw [hnil, apart hnil] at hc
      cases hc
    · rw [List.head?_append_of_ne_nil _ hnil] at hc
      exact hmark.isWord_of_mem hgap c (List.mem_of_mem_head? hc)
  cases obfuscated with
  | true =>
      rw [if_pos rfl] at hskip
      refine ⟨hnoWord, ?_, ?_, ?_, ?_⟩ <;> rw [hskip]
      · simp
      · simp
      · intro c hc
        obtain rfl : '?' = c := by simpa using hc
        decide +kernel
      · right
        exact identifier?_eq_none (by simp [show isNameStart '?' = false by decide])
  | false =>
      rw [if_neg (by simp)] at hskip
      refine ⟨hnoWord, ?_, ?_, ?_, ?_⟩ <;> rw [hskip]
      · intro hc
        exact (htail.head_letter _ hc).1 rfl
      · intro hc
        exact (htail.head_letter _ hc).2.1 rfl
      · intro c hc
        exact (htail.head_letter c hc).2.2
      · cases htail with
        | missing => exact .inr rfl
        | @present word space text hword hspace =>
            left
            unfold startsWithMeta
            have hcolon : Separates ':' (_ ++ [':']) := .marked hspace fun c hc => by cases hc
            have hstop := hcolon.startsInWord (by decide +kernel) text
            rw [List.append_assoc, List.singleton_append] at hstop
            rw [List.append_assoc, afterMeta?_append hword]
            dsimp only
            rw [hstop]
            rfl

theorem optional_digits?_append {digits : Option Text} {y t : Text} (hy : NumberPart digits y)
    (ht : Closes t) : optional digits? (y ++ t) = (digits, t) := by
  unfold optional
  cases hy with
  | missing => rw [List.nil_append, digits?_eq_none ht.noHash ht.noDigit]
  | present hgap hdigits hne => rw [digits?_append (.present hgap hdigits hne) ht.noWord]

theorem NumberPart.startsInWord {digits : Option Text} {y t : Text} (hy : NumberPart digits y)
    (ht : Closes t) : startsInWord (y ++ t) = false := by
  cases hy with
  | missing => exact ht.noWord
  | present hgap =>
      rw [List.append_assoc]
      exact hgap.startsInWord (by decide +kernel) _

theorem TypePart.startsInWord {type : Option Text} {x t : Text} (hx : TypePart type x)
    (ht : startsInWord t = false) : startsInWord (x ++ t) = false := by
  cases hx with
  | missing => exact ht
  | present hgap =>
      rw [List.append_assoc]
      exact hgap.startsInWord (by decide +kernel) _

theorem type?_number {digits y t : Text} (hy : NumberPart (some digits) y) :
    type? (y ++ t) = none := by
  cases hy with
  | @present gap digits hgap hdigits hne =>
      obtain ⟨first, rest, rfl⟩ := List.exists_cons_of_ne_nil hne
      have hfirst := hdigits first List.mem_cons_self
      have hblank := isBlank_eq_false_of_isWord (isWord_of_isDigit hfirst)
      have hskip : ∃ c r, skipBlanks (gap ++ first :: rest ++ t) = c :: r ∧ c ≠ ':' ∧
          isNameStart c = false := by
        cases hgap with
        | @marked before after hbefore hafter =>
            refine ⟨'#', after ++ first :: rest ++ t, ?_, by decide, by decide⟩
            have h := skipBlanks_append (r := '#' :: (after ++ first :: rest ++ t)) hbefore
              (by simp [show isBlank '#' = false by decide])
            simpa using h
        | @blank gap hgap =>
            refine ⟨first, rest ++ t, ?_, ?_, isNameStart_of_isDigit hfirst⟩
            · have h := skipBlanks_append (r := first :: (rest ++ t)) hgap (by simpa using hblank)
              simpa using h
            · rintro rfl
              exact absurd hfirst (by decide +kernel)
      obtain ⟨c, r, hskip, hcolon, hstart⟩ := hskip
      apply type?_eq_none
      · rw [hskip]
        simpa using hcolon
      · right
        rw [hskip]
        exact identifier?_eq_none (by simpa using hstart)

theorem optional_type?_append {type digits : Option Text} {x y t : Text} (hx : TypePart type x)
    (hy : NumberPart digits y) (ht : Closes t) :
    optional type? (x ++ (y ++ t)) = (type, y ++ t) := by
  unfold optional
  cases hx with
  | missing =>
      have hnone : type? (y ++ t) = none := by
        cases hy with
        | missing => exact type?_eq_none ht.noColon ht.noType
        | present hgap hdigits hne => exact type?_number (.present hgap hdigits hne)
      rw [List.nil_append, hnone]
  | present hgap htype hmeta =>
      rw [type?_append (.present hgap htype hmeta) (hy.startsInWord ht)]

theorem mark_closing {obfuscated : Bool} {mark gap metadata tail : Text}
    (hmark : MarkPart obfuscated mark) (hgap : Blank gap) (htail : MetadataPart metadata tail) :
    Wildcard.mark (mark ++ gap ++ tail) = (obfuscated, tail) := by
  have hskip := skipBlanks_closing hmark hgap htail
  unfold Wildcard.mark
  cases obfuscated with
  | true =>
      rw [if_pos rfl] at hskip
      rw [hskip]
      exact congrArg (Prod.mk true) (skipBlanks_append hgap htail.not_isBlank_head)
  | false =>
      rw [if_neg (by simp)] at hskip
      rw [hskip]
      split
      · next rest =>
          have hm := (htail.head '?' rfl).1
          exact absurd hm (by decide)
      · rfl

/-- What is written one part after the other is read for these parts. -/
theorem read?_parts {b : Body} {lead type digits mark gap tail : Text} (hlead : Blank lead)
    (hname : IsIdentifier b.name) (htype : TypePart b.type type)
    (hdigits : NumberPart b.digits digits) (hmark : MarkPart b.obfuscated mark) (hgap : Blank gap)
    (htail : MetadataPart b.metadata tail) (apart : mark ++ gap = [] → tail = []) :
    Body.read? (lead ++ (b.name ++ (type ++ (digits ++ (mark ++ gap ++ tail))))) = some b := by
  have hcloses := closes_closing hmark hgap htail apart
  have hafterName := htype.startsInWord (hdigits.startsInWord hcloses)
  have hskip : skipBlanks (lead ++ (b.name ++ (type ++ (digits ++ (mark ++ gap ++ tail))))) =
      b.name ++ (type ++ (digits ++ (mark ++ gap ++ tail))) := by
    apply skipBlanks_append hlead
    intro c hc
    rw [List.head?_append_of_ne_nil _ hname.ne_nil] at hc
    exact isBlank_eq_false_of_isWord (hname.isWord c (List.mem_of_mem_head? hc))
  unfold Body.read?
  rw [hskip, identifier?_append hname hafterName, Option.bind_eq_bind, Option.bind_some]
  dsimp only
  rw [optional_type?_append htype hdigits hcloses]
  dsimp only
  rw [optional_digits?_append hdigits hcloses]
  dsimp only
  rw [mark_closing hmark hgap htail]
  obtain ⟨name, type, digits, obfuscated, metadata⟩ := b
  dsimp only at htail ⊢
  cases htail with
  | missing => rfl
  | @present word space text hword hspace =>
      have hlength : (word ++ space ++ ':' :: text).length ≠
          (mark ++ gap ++ (word ++ space ++ ':' :: text)).length := by
        have hpos : 0 < (mark ++ gap).length :=
          List.length_pos_iff.mpr fun hnil => absurd (apart hnil) (by simp)
        have hsum : (mark ++ gap ++ (word ++ space ++ ':' :: text)).length =
            (mark ++ gap).length + (word ++ space ++ ':' :: text).length := List.length_append
        omega
      rw [if_neg (by simp), if_neg hlength, metadata?_append hword hspace]
      rfl

theorem exists_word_suffix {name type digits : Text} {type? digits? : Option Text}
    (hname : IsIdentifier name) (htype : TypePart type? type) (hdigits : NumberPart digits? digits)
    (lead : Text) : ∃ front word, lead ++ name ++ type ++ digits = front ++ word ∧ word ≠ [] ∧
      ∀ c ∈ word, isWord c = true := by
  cases hdigits with
  | @present gap digits _ hdigits hne =>
      refine ⟨lead ++ name ++ type ++ gap, digits, ?_, hne, ?_⟩
      · simp only [List.append_assoc]
      · exact fun c hc => isWord_of_isDigit (hdigits c hc)
  | missing =>
      rw [List.append_nil]
      cases htype with
      | @present gap type _ htype =>
          refine ⟨lead ++ name ++ gap, type, ?_, htype.ne_nil, htype.isWord⟩
          simp only [List.append_assoc]
      | missing =>
          rw [List.append_nil]
          exact ⟨lead, name, rfl, hname.ne_nil, hname.isWord⟩

/-- Whatever is written as a body is read, and for the parts that it is written of. -/
theorem read?_of_written {t : Text} {b : Body} (h : Written b t) : Body.read? t = some b := by
  cases h with
  | @bare head gap heading hgap hmeta =>
      obtain ⟨hlead, hname, htype, hdigits, hmark⟩ := heading
      have htail : MetadataPart b.metadata [] := by
        rw [hmeta]
        exact .missing
      have hread := read?_parts hlead hname htype hdigits hmark hgap htail fun _ => rfl
      simpa only [List.append_assoc, List.append_nil] using hread
  | @withMetadata head gap word space text heading hgap hword apart hspace hmeta =>
      obtain ⟨hlead, hname, htype, hdigits, hmark⟩ := heading
      have htail : MetadataPart b.metadata (word ++ space ++ ':' :: text) := by
        rw [hmeta]
        exact .present hword hspace
      have hread := read?_parts hlead hname htype hdigits hmark hgap htail ?_
      · simpa only [List.append_assoc] using hread
      · -- Without a question mark or a gap the word would stand directly behind another.
        intro hnil
        obtain ⟨hmark, hgap⟩ := List.append_eq_nil_iff.mp hnil
        obtain ⟨front, last, hsplit, hne, hlast⟩ := exists_word_suffix hname htype hdigits _
        rw [hmark, hgap, List.append_nil, List.append_nil, hsplit,
          List.getLast?_append_of_ne_nil _ hne] at apart
        obtain ⟨c, hc⟩ := Option.isSome_iff_exists.mp (List.getLast?_isSome.mpr hne)
        have hnot := apart c hc
        rw [hlast c (List.mem_of_getLast? hc)] at hnot
        cases hnot

/-- Reading accepts exactly what is written as a body, and finds its parts. -/
theorem read?_eq_some_iff {t : Text} {b : Body} : Body.read? t = some b ↔ Written b t :=
  ⟨written_of_read?, read?_of_written⟩

end Wildcard

end Errand
