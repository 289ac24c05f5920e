import Errand.Proofs.Wildcard.Acceptance
import Errand.Proofs.Wildcard.Marker

/-! # The wildcards of a text

A text is cut from the left. Where an opening brace is read the cut goes on behind the wildcard,
and where it is not, directly behind the brace. So the wildcards lie one behind the other, nothing
can be read at an opening brace outside them, and no other list of wildcards is like that.
-/

namespace Errand

namespace Segment

def collect? (segments : List Segment) : Option (List Wildcard) :=
  if segments.contains .oversized then none else some (segments.filterMap wildcard?)

variable (segments : List Segment)

@[simp] theorem collect?_nil : collect? [] = some [] := rfl

@[simp] theorem collect?_char (c : Char) : collect? (.char c :: segments) = collect? segments := by
  simp [collect?, List.filterMap_cons, wildcard?]

@[simp] theorem collect?_wildcard (w : Wildcard) :
    collect? (.wildcard w :: segments) = (collect? segments).map (w :: ·) := by
  by_cases h : .oversized ∈ segments <;> simp [collect?, wildcard?, h]

@[simp] theorem collect?_oversized : collect? (.oversized :: segments) = none := by
  simp [collect?]

def reading? : Segment → Option Wildcard.Reading
  | .char _ => none
  | .wildcard w => some (.wildcard w)
  | .oversized => some .oversized

theorem exists_read_of_mem {segment : Segment} (reading : Wildcard.Reading)
    (hreading : segment.reading? = some reading) {skip index : Nat} {t : Text}
    (h : segment ∈ scan skip index t) :
    ∃ i, t[i]? = some '{' ∧ Wildcard.read (index + i : Nat) (t.drop i) = reading := by
  induction t generalizing skip index with
  | nil => cases skip <;> simp [scan] at h
  | cons c t ih =>
      have hlater {skip : Nat} (h : segment ∈ scan skip (index + 1) t) :
          ∃ i, (c :: t)[i]? = some '{' ∧
            Wildcard.read (index + i : Nat) ((c :: t).drop i) = reading := by
        obtain ⟨i, hopen, hread⟩ := ih h
        rw [Nat.add_right_comm, Nat.add_assoc] at hread
        exact ⟨i + 1, hopen, hread⟩
      have hchar {skip : Nat} (h : segment ∈ .char c :: scan skip (index + 1) t) :
          segment ∈ scan skip (index + 1) t := by
        rcases List.mem_cons.mp h with rfl | h
        · cases hreading
        · exact h
      cases skip with
      | succ skip => exact hlater h
      | zero =>
          rw [scan] at h
          split at h
          · next hbrace =>
              split at h
              · next w hread =>
                  rcases List.mem_cons.mp h with rfl | h
                  · cases hreading
                    exact ⟨0, congrArg some hbrace, hread⟩
                  · exact hlater h
              · exact hlater (hchar h)
              · next hread =>
                  obtain rfl := List.mem_singleton.mp h
                  cases hreading
                  exact ⟨0, congrArg some hbrace, hread⟩
          · exact hlater (hchar h)

end Segment

theorem Text.wildcards?_eq (t : Text) : wildcards? t = Segment.collect? (segments t) := rfl

namespace Wildcard

open Text

/-- The source of the wildcard stands where its index says, from a brace to the one that matches it,
and this wildcard is read there. -/
structure Occurs (w : Wildcard) (t : Text) : Prop where
  stands : stretch t w.index w.stop = w.source
  matched : BraceMatched w.source
  closes : w.source.getLast? = some '}'
  read : readAt? t w.index = some (.wildcard w, w.stop)

variable {w : Wildcard} {t : Text} {i : Nat}

theorem Occurs.index_lt_stop (h : w.Occurs t) : w.index < w.stop := by
  have hne : w.source ≠ [] := by
    intro hnil
    have hopens := h.matched.opens
    rw [hnil] at hopens
    cases hopens
  have hpos := List.length_pos_iff.mpr hne
  unfold stop
  omega

theorem occurs_of_read (hopen : t[i]? = some '{') (h : read i (t.drop i) = .wildcard w) :
    w.Occurs t ∧ w.index = i := by
  have hhead : (t.drop i).head? = some '{' := by rw [List.head?_drop, hopen]
  have hread := readAt?_natCast t i
  rw [h] at hread
  unfold Wildcard.read at h
  split at h
  · next source rest found =>
      obtain ⟨hsplit, hmatched⟩ := (splitClosed?_eq_some_iff hhead).mp found
      obtain ⟨hsource, hindex⟩ := ofSource_eq_wildcard h
      subst hsource
      refine ⟨⟨?_, hmatched, getLast?_of_splitClosed? found, ?_⟩, hindex⟩
      · have hstop : w.stop = ((i + w.source.length : Nat) : Int) := by
          rw [stop, hindex, Int.natCast_add]
        rw [hindex, hstop, stretch_natCast, List.drop_take, Nat.add_sub_cancel_left, hsplit,
          List.take_left]
      · rw [hindex]
        exact hread
  · cases h

theorem Occurs.read_at (h : w.Occurs t) (hindex : w.index = i) :
    t[i]? = some '{' ∧ Wildcard.read i (t.drop i) = .wildcard w := by
  obtain ⟨hstands, hmatched, _, hread⟩ := h
  rw [hindex, readAt?_natCast, Option.some.injEq] at hread
  constructor
  · have hstop : w.stop = ((i + w.source.length : Nat) : Int) := by
      rw [stop, hindex, Int.natCast_add]
    rw [hindex, hstop, stretch_natCast, List.drop_take, Nat.add_sub_cancel_left] at hstands
    have hopens := hmatched.opens
    rw [← hstands, List.head?_take] at hopens
    split at hopens
    · cases hopens
    · rwa [List.head?_drop] at hopens
  · split at hread
    · next v found =>
        rw [found]
        exact congrArg Reading.wildcard (Reading.wildcard.inj (Prod.mk.inj hread).1)
    · next hnot =>
        exact absurd (Prod.mk.inj hread).1 (hnot w)

/-- From a place of the text on the wildcards lie one behind the other, each occurs there, and at no
opening brace outside them is anything read. -/
structure Segmentation (start : Nat) (t : Text) (ws : List Wildcard) : Prop where
  after : ∀ w ∈ ws, start ≤ w.index
  occurs : ∀ w ∈ ws, w.Occurs t
  apart : ws.Pairwise fun v w => v.stop ≤ w.index
  elsewhere : ∀ i : Nat, start ≤ i → t[i]? = some '{' →
    (∀ w ∈ ws, ¬ (w.index ≤ i ∧ i < w.stop)) → readAt? t i = some (.malformed, (i : Int) + 1)

namespace Segmentation

variable {ws : List Wildcard}

/-- Only at the brace itself can a wildcard from there on cover it. -/
theorem index_eq (h : Segmentation i t ws) (hw : w ∈ ws) (hcovers : w.index ≤ i ∧ i < w.stop) :
    w.index = i := by
  have hafter := h.after w hw
  omega

theorem read_cases (h : Segmentation i t ws) (hopen : t[i]? = some '{') :
    (∃ w ∈ ws, w.index = i ∧ read i (t.drop i) = .wildcard w) ∨
      read i (t.drop i) = .malformed := by
  by_cases hcovered : ∃ w ∈ ws, w.index ≤ i ∧ i < w.stop
  · obtain ⟨w, hw, hcovers⟩ := hcovered
    have hindex := h.index_eq hw hcovers
    exact .inl ⟨w, hw, hindex, ((h.occurs w hw).read_at hindex).2⟩
  · right
    have hread := h.elsewhere i (Nat.le_refl i) hopen fun w hw hcovers => hcovered ⟨w, hw, hcovers⟩
    rw [readAt?_natCast, Option.some.injEq] at hread
    split at hread
    · exact nomatch (Prod.mk.inj hread).1
    · exact (Prod.mk.inj hread).1

theorem of_end (hend : t.length ≤ i) : Segmentation i t ws ↔ ws = [] := by
  constructor
  · intro h
    refine List.eq_nil_iff_forall_not_mem.mpr fun w hw => ?_
    obtain ⟨place, hplace⟩ := Int.eq_ofNat_of_zero_le
      (Int.le_trans (Int.natCast_nonneg i) (h.after w hw))
    have hopen := ((h.occurs w hw).read_at hplace).1
    have hafter := h.after w hw
    rw [List.getElem?_eq_none (by omega)] at hopen
    cases hopen
  · rintro rfl
    refine ⟨by simp, by simp, .nil, fun j hj hopen _ => ?_⟩
    rw [List.getElem?_eq_none (by omega)] at hopen
    cases hopen

theorem of_skip (hskip : t[i]? = some '{' → read i (t.drop i) = .malformed) :
    Segmentation i t ws ↔ Segmentation (i + 1) t ws := by
  constructor
  · intro h
    refine ⟨fun w hw => ?_, h.occurs, h.apart, fun j hj => h.elsewhere j (by omega)⟩
    have hafter := h.after w hw
    have hne : w.index ≠ i := by
      intro hindex
      obtain ⟨hopen, hread⟩ := (h.occurs w hw).read_at hindex
      rw [hskip hopen] at hread
      cases hread
    omega
  · intro h
    refine ⟨fun w hw => ?_, h.occurs, h.apart, fun j hj hopen houtside => ?_⟩
    · have hafter := h.after w hw
      omega
    · by_cases hji : j = i
      · subst hji
        rw [readAt?_natCast, hskip hopen]
      · exact h.elsewhere j (by omega) hopen houtside

/-- A wildcard that is read at the place comes first, and the others lie behind it. -/
theorem of_wildcard (hopen : t[i]? = some '{') (hread : read i (t.drop i) = .wildcard w) :
    Segmentation i t ws ↔ ∃ vs, ws = w :: vs ∧ Segmentation (i + w.source.length) t vs := by
  obtain ⟨hoccurs, hindex⟩ := occurs_of_read hopen hread
  have hstop : w.stop = ((i + w.source.length : Nat) : Int) := by
    rw [stop, hindex, Int.natCast_add]
  constructor
  · intro h
    obtain ⟨v, hv, hvindex, hvread⟩ : ∃ v ∈ ws, v.index = i ∧ read i (t.drop i) = .wildcard v := by
      rcases h.read_cases hopen with hfound | hnone
      · exact hfound
      · rw [hread] at hnone
        cases hnone
    obtain rfl := Reading.wildcard.inj (hread.symm.trans hvread)
    obtain ⟨front, vs, rfl⟩ := List.append_of_mem hv
    obtain ⟨_, hrest, hbefore⟩ := List.pairwise_append.mp h.apart
    have hfront : front = [] := by
      refine List.eq_nil_iff_forall_not_mem.mpr fun u hu => ?_
      have hu' := List.mem_append_left (w :: vs) hu
      have hlt := (h.occurs u hu').index_lt_stop
      have hle := hbefore u hu w List.mem_cons_self
      have hafter := h.after u hu'
      omega
    subst hfront
    obtain ⟨hbehind, hapart⟩ := List.pairwise_cons.mp hrest
    refine ⟨vs, rfl, fun u hu => ?_, fun u hu => h.occurs u (List.mem_cons_of_mem w hu), hapart, ?_⟩
    · rw [← hstop]
      exact hbehind u hu
    · intro j hj hjopen houtside
      refine h.elsewhere j (by omega) hjopen (List.forall_mem_cons.mpr ⟨?_, houtside⟩)
      omega
  · rintro ⟨vs, rfl, h⟩
    refine ⟨List.forall_mem_cons.mpr ⟨by omega, fun u hu => ?_⟩,
      List.forall_mem_cons.mpr ⟨hoccurs, h.occurs⟩,
      List.pairwise_cons.mpr ⟨fun u hu => ?_, h.apart⟩, ?_⟩
    · have hafter := h.after u hu
      omega
    · rw [hstop]
      exact h.after u hu
    · intro j hj hjopen houtside
      obtain ⟨hself, hothers⟩ := List.forall_mem_cons.mp houtside
      exact h.elsewhere j (by omega) hjopen hothers

end Segmentation

/-- What is cut from a place on is the segmentation from there, unless a number is too long. -/
theorem segmentation_iff_scan (i : Nat) (t : Text) (ws : List Wildcard) :
    Segmentation i t ws ↔ Segment.collect? (Segment.scan 0 i (t.drop i)) = some ws := by
  induction hn : t.length - i using Nat.strongRecOn generalizing i ws with
  | ind n ih =>
      subst hn
      cases hdrop : t.drop i with
      | nil =>
          rw [Segmentation.of_end (List.drop_eq_nil_iff.mp hdrop), Segment.scan,
            Segment.collect?_nil, Option.some.injEq, eq_comm]
      | cons c u =>
          have hget : t[i]? = some c := by rw [← List.head?_drop, hdrop, List.head?_cons]
          obtain ⟨hlt, _⟩ := List.getElem?_eq_some_iff.mp hget
          have hnext : t.drop (i + 1) = u := by rw [← List.tail_drop, hdrop, List.tail_cons]
          have hrest := ih (t.length - (i + 1)) (by omega) (i + 1) ws rfl
          rw [hnext] at hrest
          by_cases hopen : c = '{'
          · subst hopen
            cases hread : read i ('{' :: u) with
            | malformed =>
                rw [Segmentation.of_skip (fun _ => hdrop ▸ hread), hrest,
                  Segment.scan_of_malformed hread, Segment.collect?_char]
            | wildcard w =>
                have hw : read i (t.drop i) = .wildcard w := hdrop ▸ hread
                obtain ⟨hoccurs, hindex⟩ := occurs_of_read hget hw
                have hpos := hoccurs.index_lt_stop
                unfold stop at hpos
                have hbehind (vs : List Wildcard) :=
                  ih (t.length - (i + w.source.length)) (by omega) (i + w.source.length) vs rfl
                rw [Segmentation.of_wildcard hget hw, Segment.scan_of_wildcard rfl hread, ← hdrop,
                  List.drop_drop, Segment.collect?_wildcard, Option.map_eq_some_iff]
                simp only [hbehind, and_comm, eq_comm]
            | oversized =>
                rw [Segment.scan, if_pos rfl, hread]
                refine iff_of_false (fun h => ?_) (by simp)
                have hcases := h.read_cases hget
                rw [hdrop, hread] at hcases
                simp at hcases
          · have hskip : t[i]? = some '{' → read i (t.drop i) = .malformed := by
              intro hbrace
              exact absurd (Option.some.inj (hget.symm.trans hbrace)) hopen
            rw [Segmentation.of_skip hskip, hrest, Segment.scan_of_ne_open hopen,
              Segment.collect?_char]

/-- Cutting stops only at a brace that holds a number with too many digits. -/
theorem exists_holdsAt_of_oversized (h : .oversized ∈ Text.segments t) :
    ∃ i source parts, HoldsAt t i source parts ∧ digitLimit < (numeral parts).length := by
  obtain ⟨i, hopen, hread⟩ := Segment.exists_read_of_mem .oversized rfl h
  rw [Nat.zero_add] at hread
  have hat := readAt?_natCast t i
  rw [hread] at hat
  by_cases hnone : ∀ source parts, ¬ HoldsAt t i source parts
  · rw [readAt?_of_no_parts hopen hnone] at hat
    cases hat
  · simp only [not_forall, not_not] at hnone
    obtain ⟨source, parts, hholds⟩ := hnone
    refine ⟨i, source, parts, hholds, ?_⟩
    by_contra hshort
    rw [readAt?_of_holdsAt hholds, if_neg hshort] at hat
    cases hat

/-- The wildcards of a text are its segmentation: they lie one behind the other, each where its
index says, from a brace to the one that matches it, and is read there; at every opening brace
outside them nothing is read. No other list is a segmentation. Every text has its wildcards, unless
the number in some braces is too long. -/
theorem wildcards?_segmentation (t : Text) :
    (∀ ws, Text.wildcards? t = some ws ↔ Segmentation 0 t ws) ∧
      ((∃ ws, Text.wildcards? t = some ws) ∨
        ∃ i source parts, HoldsAt t i source parts ∧ digitLimit < (numeral parts).length) := by
  constructor
  · intro ws
    rw [segmentation_iff_scan, List.drop_zero, Text.wildcards?_eq]
    rfl
  · cases hws : Text.wildcards? t with
    | some ws => exact .inl ⟨ws, rfl⟩
    | none =>
        right
        apply exists_holdsAt_of_oversized
        by_contra hsized
        simp [Text.wildcards?, hsized] at hws

/-- Braces that hold no wildcard lay open those inside them, and a wildcard hides those in its
metadata. -/
example : (Text.wildcards? "{1 {name}} {void meta: {name}}\x7b{pron}".toList).map
    (·.map Wildcard.index) = some [3, 11, 31] := by decide +kernel

end Wildcard

end Errand
