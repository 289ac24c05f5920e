import Errand.Proofs.Wildcard.Grammar
import Errand.Wildcard.Segment
import Mathlib.Data.List.Infix

/-! # Nested braces

A group of a text is a stretch of it from an opening brace to the closing brace that matches it. The
source of a wildcard is a group, and its metadata stands between the braces of that group. So how
deep wildcards are nested is bounded by how deep groups are.
-/

namespace Errand

namespace Wildcard

/-- What follows the closing brace has no part in finding it. -/
theorem splitClosed?_append {depth : Int} {t source rest : Text}
    (h : splitClosed? depth t = some (source, rest)) (x : Text) :
    splitClosed? depth (source ++ x) = some (source, x) := by
  induction t generalizing depth source with
  | nil => cases h
  | cons c t ih =>
      rcases splitClosed?_cons_eq_some h with ⟨_, rfl, rfl, hends⟩ | ⟨d, inner, rfl, found, hstep⟩
      · exact hends x
      · exact hstep (inner ++ x) x (ih found)

def inner (source : Text) : Text := (source.drop 1).dropLast

/-- A text from an opening brace to the closing brace that matches it. -/
def IsGroup (g : Text) : Prop := g.head? = some '{' ∧ splitClosed? 0 g = some (g, [])

end Wildcard

namespace Text

open Wildcard

def groups (t : Text) : List Text :=
  t.tails.filterMap fun u =>
    if u.head? = some '{' then (splitClosed? 0 u).map Prod.fst else none

theorem mem_groups {t g : Text} : g ∈ groups t ↔ IsGroup g ∧ g <:+: t := by
  unfold groups
  rw [List.mem_filterMap]
  constructor
  · rintro ⟨u, hu, hg⟩
    split at hg
    · next hhead =>
        obtain ⟨⟨source, rest⟩, hsplit, rfl⟩ := Option.map_eq_some_iff.mp hg
        obtain ⟨rfl, hne⟩ := splitClosed?_eq_some hsplit
        rw [List.head?_append_of_ne_nil _ hne] at hhead
        have hsuffix := (List.mem_tails (source ++ rest) t).mp hu
        refine ⟨⟨hhead, by simpa using splitClosed?_append hsplit []⟩, ?_⟩
        exact (List.prefix_append source rest).isInfix.trans hsuffix.isInfix
    · cases hg
  · rintro ⟨⟨hhead, hsplit⟩, before, after, rfl⟩
    refine ⟨g ++ after, ?_, ?_⟩
    · rw [List.mem_tails, List.append_assoc]
      exact List.suffix_append before (g ++ after)
    · have hne : g ≠ [] := by
        rintro rfl
        cases hhead
      rw [List.head?_append_of_ne_nil _ hne, if_pos hhead, splitClosed?_append hsplit after]
      rfl

/-- No more than `n` groups of a text lie one within the other. -/
def BracesWithin : Nat → Text → Prop
  | 0, t => groups t = []
  | n + 1, t => ∀ g ∈ groups t, BracesWithin n (inner g)

instance decidableBracesWithin : (n : Nat) → (t : Text) → Decidable (BracesWithin n t)
  | 0, t => inferInstanceAs (Decidable (groups t = []))
  | n + 1, _ =>
      have (g : Text) : Decidable (BracesWithin n (inner g)) := decidableBracesWithin n (inner g)
      inferInstanceAs (Decidable (∀ g ∈ groups _, _))

theorem BracesWithin.of_isInfix {n : Nat} {t u : Text} (h : BracesWithin n u) (ht : t <:+: u) :
    BracesWithin n t := by
  have hgroups : ∀ g ∈ groups t, g ∈ groups u := by
    intro g hg
    obtain ⟨hgroup, hinfix⟩ := mem_groups.mp hg
    exact mem_groups.mpr ⟨hgroup, hinfix.trans ht⟩
  cases n with
  | zero =>
      refine List.eq_nil_iff_forall_not_mem.mpr fun g hg => ?_
      have hmem := hgroups g hg
      rw [show groups u = [] from h] at hmem
      cases hmem
  | succ n => exact fun g hg => h g (hgroups g hg)

theorem strip_isInfix (t : Text) : strip t <:+: t := by
  have hback : skipBlanks (skipBlanks t).reverse <:+ (skipBlanks t).reverse :=
    List.dropWhile_suffix isBlank
  have hfront : skipBlanks t <:+ t := List.dropWhile_suffix isBlank
  refine List.IsInfix.trans ?_ hfront.isInfix
  have hprefix := List.reverse_prefix.mpr hback
  rw [List.reverse_reverse] at hprefix
  exact hprefix.isInfix

end Text

namespace Wildcard

open Text

theorem isInfix_of_written {b : Body} {t : Text} (h : Written b t) : b.metadata <:+: t := by
  cases h with
  | bare _ _ hmeta =>
      rw [hmeta]
      exact List.nil_infix
  | @withMetadata head gap word space text _ _ _ _ _ hmeta =>
      rw [hmeta]
      refine (strip_isInfix text).trans (List.IsSuffix.isInfix ?_)
      exact ⟨head ++ gap ++ word ++ space ++ [':'], by simp⟩

theorem isInfix_of_ofSource {source : Text} {index : Int} {w : Wildcard}
    (h : ofSource source index = .wildcard w) : w.metadata <:+: inner source := by
  unfold ofSource ofInner at h
  split at h
  · cases h
    exact List.nil_infix
  · split at h
    · next body hread =>
        unfold ofBody at h
        split at h
        · cases h
        · cases h
          exact isInfix_of_written (read?_eq_some_iff.mp hread)
    · cases h

/-- How a wildcard of a text stands in it. -/
structure StandsIn (w : Wildcard) (t : Text) : Prop where
  read : ofSource w.source w.index = .wildcard w
  group : w.source ∈ Text.groups t

end Wildcard

theorem Segment.standsIn_of_mem_scan {skip index : Nat} {t : Text} {w : Wildcard}
    (h : .wildcard w ∈ scan skip index t) : w.StandsIn t := by
  induction t generalizing skip index with
  | nil => cases skip <;> simp [scan] at h
  | cons c t ih =>
      have hlater {skip : Nat} (h : .wildcard w ∈ scan skip (index + 1) t) :
          w.StandsIn (c :: t) := by
        obtain ⟨hread, hgroup⟩ := ih h
        obtain ⟨isGroup, hinfix⟩ := Text.mem_groups.mp hgroup
        exact ⟨hread, Text.mem_groups.mpr ⟨isGroup, hinfix.trans (List.suffix_cons c t).isInfix⟩⟩
      cases skip with
      | succ skip => exact hlater h
      | zero =>
          simp only [scan] at h
          split at h
          · next hopen =>
              split at h
              · next v found =>
                  rcases List.mem_cons.mp h with heq | h
                  · obtain rfl := Segment.wildcard.inj heq
                    unfold Wildcard.read at found
                    split at found
                    · next source rest hsplit =>
                        obtain ⟨hsource, hindex⟩ := Wildcard.ofSource_eq_wildcard found
                        obtain ⟨hwhole, hne⟩ := Wildcard.splitClosed?_eq_some hsplit
                        refine ⟨by rw [hsource, hindex]; exact found, ?_⟩
                        rw [hsource, Text.mem_groups]
                        refine ⟨⟨?_, by simpa using Wildcard.splitClosed?_append hsplit []⟩, ?_⟩
                        · rw [← List.head?_append_of_ne_nil source hne, ← hwhole, hopen]
                          rfl
                        · rw [hwhole]
                          exact (List.prefix_append source rest).isInfix
                    · cases found
                  · exact hlater h
              · rcases List.mem_cons.mp h with heq | h
                · cases heq
                · exact hlater h
              · simp at h
          · rcases List.mem_cons.mp h with heq | h
            · cases heq
            · exact hlater h

namespace Text

theorem standsIn_of_mem {t : Text} {w : Wildcard} (h : .wildcard w ∈ segments t) : w.StandsIn t :=
  Segment.standsIn_of_mem_scan h

theorem BracesWithin.metadata {n : Nat} {t : Text} {w : Wildcard} (h : BracesWithin (n + 1) t)
    (hw : .wildcard w ∈ segments t) : BracesWithin n w.metadata := by
  obtain ⟨hread, hgroup⟩ := standsIn_of_mem hw
  exact (h w.source hgroup).of_isInfix (Wildcard.isInfix_of_ofSource hread)

theorem BracesWithin.not_mem {t : Text} (h : BracesWithin 0 t) (w : Wildcard) :
    .wildcard w ∉ segments t := by
  intro hw
  have hgroup := (standsIn_of_mem hw).group
  rw [show groups t = [] from h] at hgroup
  cases hgroup

end Text

end Errand
