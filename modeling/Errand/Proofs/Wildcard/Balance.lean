import Errand.Proofs.Wildcard.Concatenation

/-! # Balanced metadata

What stands between a brace and the one that matches it is balanced, and the parts before the metadata
hold no brace. So metadata is balanced as well. In a balanced text every opening brace has its closing
one, and reading at a brace never looks past the end. The same is true of the metadata of all wildcards
inside, and it gets shorter from level to level.
-/

namespace Errand

namespace Text

/-- As many braces are closed as are opened, and none is closed before it is opened. -/
structure Balanced (t : Text) : Prop where
  starts : ∀ u, u <+: t → u.count '}' ≤ u.count '{'
  total : t.count '{' = t.count '}'

theorem balanced_iff_depth {t : Text} :
    Balanced t ↔ depth t = 0 ∧ ∀ u, u <+: t → 0 ≤ depth u := by
  unfold depth
  constructor
  · intro ⟨hstarts, htotal⟩
    refine ⟨by omega, fun u hu => ?_⟩
    have hle := hstarts u hu
    omega
  · intro ⟨hzero, hpos⟩
    refine ⟨fun u hu => ?_, by omega⟩
    have hle := hpos u hu
    omega

theorem balanced_nil : Balanced [] :=
  ⟨fun u hu => by rw [List.prefix_nil.mp hu]; rfl, rfl⟩

/-- A balanced text stays balanced without a front that opens nothing and a back that closes nothing. -/
theorem Balanced.of_append {x t y : Text} (h : Balanced (x ++ t ++ y)) (hx : '{' ∉ x)
    (hy : '}' ∉ y) : Balanced t := by
  obtain ⟨hzero, hstarts⟩ := balanced_iff_depth.mp h
  have hfront := hstarts x (by rw [List.append_assoc]; exact List.prefix_append _ _)
  have hwhole := hstarts (x ++ t) (List.prefix_append _ _)
  have hopen := List.count_eq_zero.mpr hx
  have hclose := List.count_eq_zero.mpr hy
  have hxdepth : depth x = 0 := by
    unfold depth at hfront ⊢
    omega
  rw [depth_append, depth_append, hxdepth] at hzero
  rw [depth_append, hxdepth] at hwhole
  have hback : 0 ≤ depth y := by
    unfold depth
    omega
  refine balanced_iff_depth.mpr ⟨by omega, fun u hu => ?_⟩
  have hlonger : x ++ u <+: x ++ t ++ y :=
    ((List.prefix_append_right_inj x).mpr hu).trans (List.prefix_append _ _)
  have hle := hstarts _ hlonger
  rw [depth_append, hxdepth] at hle
  omega

theorem Balanced.strip {t : Text} (h : Balanced t) : Balanced (strip t) := by
  obtain ⟨x, y, hx, hy, hsplit⟩ := exists_blank_append_strip t
  rw [hsplit] at h
  exact h.of_append (Wildcard.not_mem_of_blank hx (by decide)) (Wildcard.not_mem_of_blank hy (by decide))

theorem BraceMatched.balanced_inner {g : Text} (h : BraceMatched g) :
    Balanced (Wildcard.inner g) := by
  have hgroup : Wildcard.IsGroup g :=
    ⟨h.opens, Wildcard.splitClosed?_of_matched h (List.append_nil g).symm⟩
  have hwrap := hgroup.eq_wrap
  obtain ⟨_, hcloses, hinside⟩ := h
  generalize Wildcard.inner g = t at hwrap
  subst hwrap
  have hopening : descent '{' = 1 := rfl
  have hclosing : descent '}' = -1 := rfl
  rw [depth_cons, depth_append, depth_cons, depth_nil, hopening, hclosing] at hcloses
  refine balanced_iff_depth.mpr ⟨by omega, fun u hu => ?_⟩
  obtain ⟨rest, rfl⟩ := hu
  have hpos := hinside (u.length + 1) (Nat.succ_pos _) (by simp)
  rw [List.take_succ_cons, List.append_assoc, List.take_left, depth_cons, hopening] at hpos
  omega

end Text

namespace Wildcard

open Text

/-- From inside braces the search ends in a text that leads back up to depth zero. -/
theorem exists_splitClosed?_of_depth {d : Int} {t : Text} (hd : 0 < d) (h : d + depth t ≤ 0) :
    ∃ source rest, splitClosed? d t = some (source, rest) := by
  induction t generalizing d with
  | nil =>
      rw [depth_nil] at h
      omega
  | cons c t ih =>
      rw [splitClosed?_cons_of_pos hd]
      rw [depth_cons] at h
      have hlevel := neg_one_le_descent c
      by_cases hlast : d + descent c = 0
      · exact ⟨[c], t, if_pos hlast⟩
      · obtain ⟨source, rest, found⟩ := ih (d := d + descent c) (by omega) (by omega)
        exact ⟨c :: source, rest, by rw [if_neg hlast, found]; rfl⟩

end Wildcard

namespace Text

open Wildcard

theorem Balanced.bracesClosed {t : Text} (h : Balanced t) : BracesClosed t := by
  intro i hopen
  obtain ⟨hzero, hstarts⟩ := balanced_iff_depth.mp h
  obtain ⟨u, hdrop⟩ : ∃ u, t.drop i = '{' :: u :=
    List.head?_eq_some_iff.mp (by rw [List.head?_drop, hopen])
  -- The front leads down or stays level, so the brace and what follows lead back up.
  have hfront := hstarts (t.take i) (List.take_prefix i t)
  have hparts : depth (t.take i) + depth (t.drop i) = 0 := by
    rw [← depth_append, List.take_append_drop, hzero]
  rw [hdrop, depth_cons] at hparts
  have hopening : descent '{' = 1 := rfl
  obtain ⟨source, rest, found⟩ :=
    exists_splitClosed?_of_depth (d := 1) (t := u) Int.one_pos (by omega)
  have hsplit : splitClosed? 0 (t.drop i) = some ('{' :: source, rest) := by
    rw [hdrop, splitClosed?, if_pos rfl]
    change (splitClosed? 1 u).map _ = _
    rw [found]
    rfl
  obtain ⟨hwhole, hmatched⟩ := (splitClosed?_eq_some_iff (by rw [hdrop]; rfl)).mp hsplit
  exact ⟨'{' :: source, ⟨rest, hwhole.symm⟩, hmatched⟩

structure SelfContained (t : Text) : Prop where
  balanced : Balanced t
  closed : BracesClosed t
  confined : ∀ (i : Nat) (after : Text), t[i]? = some '{' →
    readAt? (t ++ after) i = readAt? t i

theorem Balanced.selfContained {t : Text} (h : Balanced t) : SelfContained t where
  balanced := h
  closed := h.bracesClosed
  confined := by
    intro i after hopen
    obtain ⟨source, ⟨rest, hsplit⟩, hmatched⟩ := h.bracesClosed i hopen
    obtain ⟨hlt, _⟩ := List.getElem?_eq_some_iff.mp hopen
    rw [readAt?_natCast, readAt?_natCast, List.drop_append_of_le_length (by omega),
      read_append hmatched hsplit.symm]

end Text

/-! ## Metadata -/

namespace Wildcard

open Text

theorem Written.balanced_metadata {b : Body} {t : Text} (h : Written b t) (ht : Balanced t) :
    Balanced b.metadata := by
  rcases h.metadata_cases with ⟨hnone, _⟩ | ⟨before, text, rfl, hbefore, hmeta, _⟩
  · rw [hnone]
    exact balanced_nil
  · rw [hmeta]
    have htext : Balanced (before ++ text ++ []) := by rwa [List.append_nil]
    exact (htext.of_append hbefore List.not_mem_nil).strip

variable {w v : Wildcard} {t : Text}

def ReadIn (w : Wildcard) (t : Text) : Prop :=
  ∃ (i : Nat) (next : Int), t[i]? = some '{' ∧ readAt? t i = some (.wildcard w, next)

/-- The wildcard is read in the text, or in the metadata of one that is, on any level. -/
inductive Nested (v : Wildcard) : Text → Prop
  | here {t : Text} (h : v.ReadIn t) : Nested v t
  | inside {t : Text} {w : Wildcard} (hw : w.ReadIn t) (h : Nested v w.metadata) : Nested v t

theorem read_of_readAt? {i : Nat} {next : Int} (h : readAt? t i = some (.wildcard w, next)) :
    read i (t.drop i) = .wildcard w := by
  rw [readAt?_natCast, Option.some.injEq] at h
  split at h
  · next found =>
      rw [found]
      exact (Prod.mk.inj h).1
  · next other => exact absurd (Prod.mk.inj h).1 (other w)

theorem metadata_of_readAt? {i : Nat} {next : Int} (h : readAt? t i = some (.wildcard w, next)) :
    w.metadata <:+: inner w.source ∧ w.metadata.length < w.source.length := by
  have hread := read_of_readAt? h
  obtain ⟨_, hne, _⟩ := read_eq_wildcard hread
  have hstretch : w.metadata <:+: inner w.source := by
    unfold read at hread
    split at hread
    · have hinside := isInfix_of_ofSource hread
      rwa [← (ofSource_eq_wildcard hread).1] at hinside
    · cases hread
  refine ⟨hstretch, ?_⟩
  have hlength := hstretch.length_le
  have hpos := List.length_pos_iff.mpr hne
  unfold inner at hlength
  rw [List.length_dropLast, List.length_drop] at hlength
  omega

theorem ReadIn.source_isInfix (h : w.ReadIn t) : w.source <:+: t := by
  obtain ⟨i, next, _, hread⟩ := h
  obtain ⟨⟨rest, hsplit⟩, _⟩ := read_eq_wildcard (read_of_readAt? hread)
  exact (hsplit ▸ List.prefix_append w.source rest).isInfix.trans (List.drop_suffix i t).isInfix

theorem ReadIn.metadata_isInfix (h : w.ReadIn t) : w.metadata <:+: t := by
  have hsource := h.source_isInfix
  obtain ⟨i, next, _, hread⟩ := h
  have hinner : inner w.source <:+: w.source :=
    (List.dropLast_prefix _).isInfix.trans (List.drop_suffix 1 w.source).isInfix
  exact ((metadata_of_readAt? hread).1.trans hinner).trans hsource

theorem ReadIn.length_metadata_lt (h : w.ReadIn t) : w.metadata.length < w.source.length := by
  obtain ⟨i, next, _, hread⟩ := h
  exact (metadata_of_readAt? hread).2

theorem ReadIn.balanced_metadata (h : w.ReadIn t) : Balanced w.metadata := by
  obtain ⟨i, next, hopen, hread⟩ := h
  have hfound := read_of_readAt? hread
  have hmatched := (occurs_of_read hopen hfound).1.matched
  unfold read at hfound
  split at hfound
  · obtain ⟨parts, hholds, _, rfl⟩ := ofSource_eq_wildcard_iff.mp hfound
    cases hholds with
    | nothing => exact balanced_nil
    | parts hwritten => exact hwritten.balanced_metadata hmatched.balanced_inner
  · cases hfound

theorem readIn_of_mem (h : .wildcard w ∈ segments t) : w.ReadIn t := by
  obtain ⟨i, hopen, hread⟩ := Segment.exists_read_of_mem (.wildcard w) rfl h
  rw [Nat.zero_add] at hread
  refine ⟨i, w.stop, hopen, ?_⟩
  rw [readAt?_natCast, hread]

/-- On every level metadata is balanced and shorter than its source, and nothing lies outside the text. -/
theorem Nested.enclosed (h : v.Nested t) :
    Balanced v.metadata ∧ v.metadata.length < v.source.length ∧ v.source <:+: t := by
  induction h with
  | here h => exact ⟨h.balanced_metadata, h.length_metadata_lt, h.source_isInfix⟩
  | inside hw _ ih => exact ⟨ih.1, ih.2.1, ih.2.2.trans hw.metadata_isInfix⟩

end Wildcard

end Errand
