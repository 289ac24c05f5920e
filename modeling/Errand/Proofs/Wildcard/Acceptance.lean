import Errand.Proofs.Wildcard.Depth

/-! # The braces that hold a wildcard

A wildcard is read where an opening brace is matched by a closing one and the text between them is
white space or written as a body. Its fields are then those of the parts, and there is one way only to
take the text apart. Everywhere else nothing is read.
-/

namespace Errand

namespace Wildcard

open Text

/-! ## The parts of a source -/

/-- What stands between the braces of a source: white space alone, or the parts of a body. -/
inductive Holds (source : Text) : Option Body → Prop
  | nothing (hblank : Blank (inner source)) : Holds source none
  | parts {b : Body} (hwritten : Written b (inner source)) : Holds source (some b)

def numeral (parts : Option Body) : Text := (parts.bind Body.digits).getD []

/-- The wildcard that a source at a place stands for. Metadata has been stripped when its text was
taken out of the body, so the white space that closes the body may count to it. -/
def ofParts (source : Text) (index : Int) : Option Body → Wildcard
  | none =>
    { source, index, name := [], type := none, id := none, obfuscated := false, metadata := [] }
  | some b =>
    { source, index
      name := lower b.name
      type := b.type.map lower
      id := b.digits.map number
      obfuscated := b.obfuscated
      metadata := b.metadata }

variable {source : Text} {parts : Option Body}

theorem not_blank_of_written {b : Body} {t : Text} (h : Written b t) : ¬ Blank t := by
  intro hblank
  have hread := read?_eq_some_iff.mpr h
  have hskip : skipBlanks t = [] := List.dropWhile_eq_nil_iff.mpr hblank
  unfold Body.read? at hread
  rw [hskip] at hread
  cases hread

theorem Holds.unique {other : Option Body} (h : Holds source parts) (hother : Holds source other) :
    parts = other := by
  cases h with
  | nothing hblank =>
      cases hother with
      | nothing => rfl
      | parts hwritten => exact absurd hblank (not_blank_of_written hwritten)
  | parts hwritten =>
      cases hother with
      | nothing hblank => exact absurd hblank (not_blank_of_written hwritten)
      | parts hagain => rw [← read?_eq_some_iff.mpr hwritten, read?_eq_some_iff.mpr hagain]

theorem ofSource_of_holds (h : Holds source parts) (index : Int) :
    ofSource source index =
      if digitLimit < (numeral parts).length then .oversized
      else .wildcard (ofParts source index parts) := by
  change ofInner source (inner source) index = _
  unfold ofInner
  cases h with
  | nothing hblank => exact if_pos (List.all_eq_true.mpr hblank)
  | parts hwritten =>
      have hnot : ¬ allBlank (inner source) = true :=
        fun hall => not_blank_of_written hwritten (List.all_eq_true.mp hall)
      rw [if_neg hnot, read?_eq_some_iff.mpr hwritten]
      rfl

theorem ofInner_eq_malformed {source inner : Text} {index : Int} :
    ofInner source inner index = .malformed ↔
      allBlank inner = false ∧ Body.read? inner = none := by
  unfold ofInner
  split
  · next hblank => simp [hblank]
  · next hblank =>
      split
      · next body hread =>
          unfold ofBody
          split <;> simp [hread]
      · next hread =>
          simp only [hread, and_true, true_iff]
          simpa using hblank

theorem ofSource_eq_malformed_iff {index : Int} :
    ofSource source index = .malformed ↔ ∀ parts, ¬ Holds source parts := by
  change ofInner source (inner source) index = _ ↔ _
  rw [ofInner_eq_malformed]
  constructor
  · intro ⟨hblank, hread⟩ parts hholds
    cases hholds with
    | nothing hall => simp [allBlank, List.all_eq_true.mpr hall] at hblank
    | parts hwritten => simp [read?_eq_some_iff.mpr hwritten] at hread
  · intro h
    constructor
    · rw [Bool.eq_false_iff]
      exact fun hall => h none (.nothing (List.all_eq_true.mp hall))
    · cases hread : Body.read? (inner source) with
      | none => rfl
      | some b => exact absurd (.parts (read?_eq_some_iff.mp hread)) (h (some b))

theorem ofSource_eq_wildcard_iff {index : Int} {w : Wildcard} :
    ofSource source index = .wildcard w ↔
      ∃ parts, Holds source parts ∧ (numeral parts).length ≤ digitLimit ∧
        w = ofParts source index parts := by
  constructor
  · intro h
    by_cases hnone : ∀ parts, ¬ Holds source parts
    · rw [ofSource_eq_malformed_iff.mpr hnone] at h
      cases h
    · obtain ⟨parts, hholds⟩ := not_forall_not.mp hnone
      rw [ofSource_of_holds hholds] at h
      split at h
      · cases h
      · next hsized => exact ⟨parts, hholds, by omega, (Reading.wildcard.inj h).symm⟩
  · rintro ⟨parts, hholds, hsized, rfl⟩
    rw [ofSource_of_holds hholds, if_neg (by omega)]

/-! ## At a place of a text -/

/-- The brace at a place opens a source that holds these parts. -/
structure HoldsAt (t : Text) (place : Nat) (source : Text) (parts : Option Body) : Prop where
  stands : source <+: t.drop place
  matched : BraceMatched source
  holds : Holds source parts

variable {t : Text} {i : Nat}

theorem read_of_matched {index : Int} {u rest : Text} (hmatched : BraceMatched source)
    (hsplit : u = source ++ rest) : read index u = ofSource source index := by
  rw [read, splitClosed?_of_matched hmatched hsplit]

theorem readAt?_of_holdsAt (h : HoldsAt t i source parts) :
    readAt? t i = some (if digitLimit < (numeral parts).length then (.oversized, (i : Int) + 1)
      else (.wildcard (ofParts source i parts), (i : Int) + source.length)) := by
  obtain ⟨⟨rest, hsplit⟩, hmatched, hholds⟩ := h
  rw [readAt?_natCast, read_of_matched hmatched hsplit.symm, ofSource_of_holds hholds]
  by_cases hlong : digitLimit < (numeral parts).length
  · rw [if_pos hlong, if_pos hlong]
  · rw [if_neg hlong, if_neg hlong]
    cases parts <;> rfl

theorem readAt?_of_no_parts (hopen : t[i]? = some '{')
    (h : ∀ source parts, ¬ HoldsAt t i source parts) :
    readAt? t i = some (.malformed, (i : Int) + 1) := by
  have hhead : (t.drop i).head? = some '{' := by rw [List.head?_drop, hopen]
  have hread : read i (t.drop i) = .malformed := by
    cases hfound : splitClosed? 0 (t.drop i) with
    | none => rw [read, hfound]
    | some found =>
        obtain ⟨source, rest⟩ := found
        obtain ⟨hsplit, hmatched⟩ := (splitClosed?_eq_some_iff hhead).mp hfound
        rw [read_of_matched hmatched hsplit, ofSource_eq_malformed_iff]
        exact fun parts hholds => h source parts ⟨⟨rest, hsplit.symm⟩, hmatched, hholds⟩
  rw [readAt?_natCast, hread]

/-- There is one way only in which a brace holds parts. -/
theorem HoldsAt.unique {other : Text} {otherParts : Option Body} (h : HoldsAt t i source parts)
    (hother : HoldsAt t i other otherParts) : source = other ∧ parts = otherParts := by
  obtain ⟨rest, hsplit⟩ := h.stands
  obtain ⟨tail, hsplitOther⟩ := hother.stands
  have hfound := splitClosed?_of_matched h.matched hsplit.symm
  rw [splitClosed?_of_matched hother.matched hsplitOther.symm, Option.some.injEq,
    Prod.mk.injEq] at hfound
  obtain ⟨rfl, _⟩ := hfound
  exact ⟨rfl, h.holds.unique hother.holds⟩

/-- At an opening brace exactly those wildcards are read that the grammar has there: the brace is
matched by a closing one, and white space or a body stands between them. Then the fields are those of
the parts and reading goes on behind the closing brace. The parts are the same whichever way they are
found. Without parts nothing is read and reading goes on behind the opening brace. -/
theorem readAt?_accepts_grammar (t : Text) (i : Nat) (opening : t[i]? = some '{') :
    (∀ w next, readAt? t i = some (.wildcard w, next) ↔
      ∃ source parts, HoldsAt t i source parts ∧ (numeral parts).length ≤ digitLimit ∧
        w = ofParts source i parts ∧ next = i + source.length) ∧
    (readAt? t i = some (.malformed, (i : Int) + 1) ↔ ∀ source parts, ¬ HoldsAt t i source parts) ∧
    (∀ source parts other otherParts, HoldsAt t i source parts → HoldsAt t i other otherParts →
      source = other ∧ parts = otherParts) := by
  refine ⟨?_, ?_, fun _ _ _ _ h hother => h.unique hother⟩
  · intro w next
    constructor
    · intro hread
      by_cases hnone : ∀ source parts, ¬ HoldsAt t i source parts
      · rw [readAt?_of_no_parts opening hnone] at hread
        cases hread
      · simp only [not_forall, not_not] at hnone
        obtain ⟨source, parts, hholds⟩ := hnone
        rw [readAt?_of_holdsAt hholds] at hread
        split at hread
        · cases hread
        · next hsized =>
            cases hread
            exact ⟨source, parts, hholds, by omega, rfl, rfl⟩
    · rintro ⟨source, parts, hholds, hsized, rfl, rfl⟩
      rw [readAt?_of_holdsAt hholds, if_neg (by omega)]
  · constructor
    · intro hread source parts hholds
      rw [readAt?_of_holdsAt hholds] at hread
      split at hread <;> cases hread
    · exact readAt?_of_no_parts opening

/-- All the parts of a body stand at once before the braces in its metadata. -/
theorem readAt?_accepts_grammar_nested :
    ∃ source parts, HoldsAt "to {Name MALE #12 ? meta: at {beacon}}!".toList 3 source parts ∧
      ofParts source 3 parts =
        { source := "{Name MALE #12 ? meta: at {beacon}}".toList, index := 3
          name := "name".toList, type := some "male".toList, id := some 12, obfuscated := true
          metadata := "at {beacon}".toList } := by
  have hread : readAt? "to {Name MALE #12 ? meta: at {beacon}}!".toList 3 = some (.wildcard
      { source := "{Name MALE #12 ? meta: at {beacon}}".toList, index := 3
        name := "name".toList, type := some "male".toList, id := some 12, obfuscated := true
        metadata := "at {beacon}".toList }, 38) := by decide +kernel
  obtain ⟨source, parts, hholds, _, hfields, _⟩ :=
    ((readAt?_accepts_grammar _ 3 (by decide)).1 _ _).mp hread
  exact ⟨source, parts, hholds, hfields.symm⟩

end Wildcard

end Errand
