import Errand.Proofs.Wildcard.Recast

/-! # Without the question mark

The question mark of a wildcard can give way to a blank, and its metadata to other metadata with the
same braces: the other parts are read as before. So texts whose wildcards have lost their marks are cut
at the same places into wildcards that ask for the same.
-/

namespace Errand

namespace Text

/-! ## White space at the ends -/

structure Stripped (t : Text) : Prop where
  head : ∀ c ∈ t.head?, isBlank c = false
  last : ∀ c ∈ t.getLast?, isBlank c = false

instance decidableStripped (t : Text) : Decidable (Stripped t) :=
  decidable_of_iff (t.head?.all (!isBlank ·) = true ∧ t.getLast?.all (!isBlank ·) = true) <| by
    constructor
    · intro ⟨hhead, hlast⟩
      exact ⟨by simpa [Option.all_eq_true] using hhead, by simpa [Option.all_eq_true] using hlast⟩
    · intro ⟨hhead, hlast⟩
      exact ⟨by simpa [Option.all_eq_true] using hhead, by simpa [Option.all_eq_true] using hlast⟩

/-- White space around a text is all that stripping takes away. -/
theorem strip_append {x t y : Text} (hx : Blank x) (ht : Stripped t) (hy : Blank y) (hne : t ≠ []) :
    strip (x ++ t ++ y) = t := by
  have hfront : skipBlanks (x ++ t ++ y) = t ++ y := by
    rw [List.append_assoc]
    apply skipBlanks_append hx
    intro c hc
    rw [List.head?_append_of_ne_nil _ hne] at hc
    exact ht.head c hc
  have hback : skipBlanks (t ++ y).reverse = t.reverse := by
    rw [List.reverse_append]
    apply skipBlanks_append
    · exact fun c hc => hy c (List.mem_reverse.mp hc)
    · rw [List.head?_reverse]
      exact ht.last
  unfold strip
  rw [hfront, hback, List.reverse_reverse]

theorem exists_skipBlanks_eq (t : Text) : ∃ z, Blank z ∧ skipBlanks t = strip t ++ z := by
  obtain ⟨z, hz, hback⟩ := exists_blank_append_skipBlanks (skipBlanks t).reverse
  refine ⟨z.reverse, fun c hc => hz c (List.mem_reverse.mp hc), ?_⟩
  unfold strip
  rw [← List.reverse_append, ← hback, List.reverse_reverse]

theorem exists_blank_append_strip (t : Text) :
    ∃ x y, Blank x ∧ Blank y ∧ t = x ++ strip t ++ y := by
  obtain ⟨x, hx, hfront⟩ := exists_blank_append_skipBlanks t
  obtain ⟨y, hy, hrest⟩ := exists_skipBlanks_eq t
  refine ⟨x, y, hx, hy, ?_⟩
  rw [List.append_assoc, ← hrest, ← hfront]

theorem stripped_strip (t : Text) : Stripped (strip t) := by
  have hlast : ∀ c ∈ (strip t).getLast?, isBlank c = false := by
    unfold strip
    rw [List.getLast?_reverse]
    exact head?_dropWhile
  refine ⟨?_, hlast⟩
  intro c hc
  obtain ⟨z, hz, hrest⟩ := exists_skipBlanks_eq t
  have hhead := head?_dropWhile (p := isBlank) (t := t) c
  apply hhead
  change c ∈ (skipBlanks t).head?
  rw [hrest, List.head?_append]
  simp [Option.mem_def.mp hc]

theorem append_blank_inj {p q x y : Text} (h : p ++ x = q ++ y) (hx : Blank x) (hy : Blank y)
    (hp : ∀ c ∈ p.getLast?, isBlank c = false) (hq : ∀ c ∈ q.getLast?, isBlank c = false) :
    p = q := by
  have stuck {p q more : Text} (hq : q = p ++ more) (hmore : Blank more)
      (hlast : ∀ c ∈ q.getLast?, isBlank c = false) : more = [] := by
    by_contra hne
    obtain ⟨c, hc⟩ := Option.isSome_iff_exists.mp (List.getLast?_isSome.mpr hne)
    have hblank := hlast c (by rw [hq, List.getLast?_append_of_ne_nil _ hne]; exact hc)
    rw [hmore c (List.mem_of_getLast? hc)] at hblank
    cases hblank
  rcases List.append_eq_append_iff.mp h with ⟨more, hmore, rfl⟩ | ⟨more, hmore, rfl⟩
  · have hnil := stuck hmore (fun c hc => hx c (List.mem_append_left _ hc)) hq
    rw [hmore, hnil, List.append_nil]
  · have hnil := stuck hmore (fun c hc => hy c (List.mem_append_left _ hc)) hp
    rw [hmore, hnil, List.append_nil]

/-- A blank in the place of a question mark leaves the braces where they are. -/
theorem braces_replace (t : Text) : braces (t.replace '?' ' ') = braces t := by
  by_cases hmem : '?' ∈ t
  · obtain ⟨before, after, rfl, hbefore⟩ := List.eq_append_cons_of_mem hmem
    rw [List.replace_append_right hbefore, List.replace_cons_self, braces_append, braces_append]
    rfl
  · rw [List.replace_of_not_mem hmem]

end Text

namespace Wildcard

open Text

/-! ## The braces of a source -/

theorem getLast?_of_splitClosed? {depth : Int} {t source rest : Text}
    (h : splitClosed? depth t = some (source, rest)) : source.getLast? = some '}' := by
  induction t generalizing depth source with
  | nil => cases h
  | cons c t ih =>
      rcases splitClosed?_cons_eq_some h with ⟨rfl, rfl, _⟩ | ⟨d, inner, rfl, found, _⟩
      · rfl
      · rw [List.getLast?_cons, ih found]
        rfl

@[simp] theorem inner_wrap (t : Text) : inner ('{' :: (t ++ ['}'])) = t := by
  simp [inner]

theorem IsGroup.eq_wrap {g : Text} (h : IsGroup g) : g = '{' :: (inner g ++ ['}']) := by
  obtain ⟨rest, rfl⟩ := List.head?_eq_some_iff.mp h.1
  have hlast := getLast?_of_splitClosed? h.2
  cases rest with
  | nil => simp at hlast
  | cons c rest =>
      rw [List.getLast?_cons_cons] at hlast
      have hdrop := List.dropLast_append_getLast? '}' hlast
      change '{' :: (c :: rest) = '{' :: ((c :: rest).dropLast ++ ['}'])
      rw [hdrop]

theorem replace_wrap (t : Text) :
    ('{' :: (t ++ ['}'])).replace '?' ' ' = '{' :: (t.replace '?' ' ' ++ ['}']) := by
  have hopen : ('{' :: (t ++ ['}'])).replace '?' ' ' = '{' :: (t ++ ['}']).replace '?' ' ' := by
    rw [List.replace_cons]
    rfl
  rw [hopen]
  by_cases hmem : '?' ∈ t
  · rw [List.replace_append_left hmem]
  · rw [List.replace_append_right hmem, List.replace_of_not_mem hmem,
      List.replace_of_not_mem (by decide)]

/-! ## Reading a source -/

theorem written_of_ofSource {source : Text} {index : Int} {w : Wildcard}
    (h : ofSource source index = .wildcard w)
    (hparts : w.obfuscated = true ∨ w.metadata ≠ []) :
    ∃ b, Written b (inner source) ∧ (numeral (some b)).length ≤ digitLimit ∧
      w = ofParts source index (some b) := by
  obtain ⟨parts, hholds, hsized, rfl⟩ := ofSource_eq_wildcard_iff.mp h
  cases hholds with
  | nothing => simp [ofParts] at hparts
  | parts hwritten => exact ⟨_, hwritten, hsized, rfl⟩

/-! ## Without its mark -/

theorem foreign_question : Foreign '?' := by
  refine ⟨?_, ?_, ?_, ?_⟩ <;> decide +kernel

/-- A body whose question mark has become a blank asks for no stand-in; its parts are the same. -/
theorem Written.unmarked {b : Body} {t : Text} (h : Written b t) (marked : b.obfuscated = true) :
    Written { b with obfuscated := false } (t.replace '?' ' ') := by
  -- The first question mark is the mark, and the blank in its place joins the white space behind it.
  have hheading {head : Text} (heading : Heading b head) :
      ∃ front gap, head = front ++ gap ++ ['?'] ∧ '?' ∉ front ++ gap ∧ Blank gap ∧
        Heading { b with obfuscated := false } front := by
    obtain @⟨lead, type, digits, mark, hlead, hname, htype, hdigits, hmark⟩ := heading
    rw [marked] at hmark
    cases hmark with
    | @present gap hgap =>
        refine ⟨lead ++ b.name ++ type ++ digits, gap, by simp, ?_, hgap, ?_⟩
        · simp only [List.mem_append, not_or]
          exact ⟨⟨⟨⟨not_mem_of_blank hlead foreign_question.notBlank,
            hname.not_mem foreign_question.notWord⟩, htype.not_mem foreign_question⟩,
            hdigits.not_mem foreign_question⟩, not_mem_of_blank hgap foreign_question.notBlank⟩
        · have hbare := Heading.intro (b := { b with obfuscated := false }) hlead hname htype hdigits
            .missing
          rwa [List.append_nil] at hbare
  have hspread {gap later : Text} (hgap : Blank gap) (hlater : Blank later) :
      Blank (gap ++ ' ' :: later) :=
    hgap.append (List.forall_mem_cons.mpr ⟨by decide, hlater⟩)
  cases h with
  | bare heading hlater hmeta =>
      obtain ⟨front, gap, rfl, hfront, hgap, hbare⟩ := hheading heading
      rw [List.append_assoc, List.replace_append_right hfront, List.singleton_append,
        List.replace_cons_self, List.append_assoc]
      exact .bare hbare (hspread hgap hlater) hmeta
  | @withMetadata head later word space text heading hlater hword apart hspace hmeta =>
      obtain ⟨front, gap, rfl, hfront, hgap, hbare⟩ := hheading heading
      have hblank := hspread hgap hlater
      have hsplit : front ++ gap ++ ['?'] ++ later ++ word ++ space ++ ':' :: text =
          front ++ gap ++ '?' :: (later ++ word ++ space ++ ':' :: text) := by simp
      have hjoin : front ++ gap ++ ' ' :: (later ++ word ++ space ++ ':' :: text) =
          front ++ (gap ++ ' ' :: later) ++ word ++ space ++ ':' :: text := by simp
      rw [hsplit, List.replace_append_right hfront, List.replace_cons_self, hjoin]
      refine .withMetadata hbare hblank hword ?_ hspace hmeta
      intro c hc
      rw [List.getLast?_append_of_ne_nil _ (by simp)] at hc
      exact isWord_of_isBlank (hblank c (List.mem_of_getLast? hc))

/-- The wildcard without its mark: the first question mark of its source has become a blank. There is
none before the mark, in its name, its type or its number. -/
def unmarked (w : Wildcard) : Wildcard :=
  if w.obfuscated then { w with source := w.source.replace '?' ' ', obfuscated := false } else w

theorem unmarked_of_plain {w : Wildcard} (h : w.obfuscated = false) : w.unmarked = w := by
  simp [unmarked, h]

theorem unmarked_of_marked {w : Wildcard} (h : w.obfuscated = true) :
    w.unmarked = { w with source := w.source.replace '?' ' ', obfuscated := false } := by
  simp [unmarked, h]

theorem StandsIn.unmarked {w : Wildcard} {t : Text} (h : w.StandsIn t) :
    w.unmarked.StandsFor w := by
  obtain ⟨hread, hgroup⟩ := h
  cases hmarked : w.obfuscated with
  | false =>
      rw [unmarked_of_plain hmarked]
      exact ⟨rfl, rfl, hread⟩
  | true =>
      rw [unmarked_of_marked hmarked]
      refine ⟨rfl, braces_replace w.source, ?_⟩
      obtain ⟨b, hwritten, hsized, hw⟩ := written_of_ofSource hread (.inl hmarked)
      have hb : b.obfuscated = true := by rw [hw] at hmarked; exact hmarked
      have hinner : inner (w.source.replace '?' ' ') = (inner w.source).replace '?' ' ' := by
        have hwrap := (mem_groups.mp hgroup).1.eq_wrap
        generalize inner w.source = x at hwrap ⊢
        rw [hwrap, replace_wrap, inner_wrap]
      have hplain := hwritten.unmarked hb
      rw [← hinner] at hplain
      refine ofSource_eq_wildcard_iff.mpr ⟨_, .parts hplain, hsized, ?_⟩
      rw [hw]
      rfl

/-! ## With other metadata -/

/-- The metadata of a wildcard stands in its source behind `before`; after it come white space and the
closing brace. -/
structure Frames (w : Wildcard) (before gap : Text) : Prop where
  source : w.source = before ++ w.metadata ++ gap ++ ['}']
  blank : Blank gap

def withMetadata (w : Wildcard) (before metadata gap : Text) : Wildcard :=
  { w with source := before ++ metadata ++ gap ++ ['}'], metadata }

theorem StandsIn.stripped {w : Wildcard} {t : Text} (h : w.StandsIn t) : Stripped w.metadata := by
  have hnil : Stripped [] := by
    constructor <;> intro c hc <;> cases hc
  by_cases hne : w.metadata = []
  · rw [hne]
    exact hnil
  · obtain ⟨b, hwritten, _, hw⟩ := written_of_ofSource h.read (.inr hne)
    rw [show w.metadata = b.metadata from congrArg Wildcard.metadata hw]
    rcases hwritten.metadata_cases with ⟨hmeta, _⟩ | ⟨_, text, _, _, hmeta, _⟩
    · exact hmeta ▸ hnil
    · exact hmeta ▸ stripped_strip text

theorem Frames.unique {w : Wildcard} {before gap other space : Text} (h : w.Frames before gap)
    (hother : w.Frames other space) (hstripped : Stripped w.metadata) (hne : w.metadata ≠ []) :
    before = other ∧ gap = space := by
  have hwhole : before ++ w.metadata ++ gap = other ++ w.metadata ++ space :=
    List.append_cancel_right (h.source.symm.trans hother.source)
  have hlast (x : Text) : ∀ c ∈ (x ++ w.metadata).getLast?, isBlank c = false := by
    rw [List.getLast?_append_of_ne_nil _ hne]
    exact hstripped.last
  have hends := append_blank_inj hwhole h.blank hother.blank (hlast before) (hlast other)
  rw [hends] at hwhole
  exact ⟨List.append_cancel_right hends, List.append_cancel_left hwhole⟩

/-- Metadata that is not empty has a frame, in which other metadata is read as well. -/
theorem StandsIn.exists_frames {w : Wildcard} {t : Text} (h : w.StandsIn t) (hne : w.metadata ≠ []) :
    ∃ before gap, w.Frames before gap ∧ ∀ metadata, Stripped metadata → metadata ≠ [] →
      ofSource (w.withMetadata before metadata gap).source w.index =
        .wildcard (w.withMetadata before metadata gap) := by
  obtain ⟨hread, hgroup⟩ := h
  obtain ⟨b, hwritten, hsized, hw⟩ := written_of_ofSource hread (.inr hne)
  have hb : b.metadata = w.metadata := (congrArg Wildcard.metadata hw).symm
  rcases hwritten.metadata_cases with ⟨hnil, _⟩ | ⟨front, text, hinner, _, hmeta, hother⟩
  · exact absurd (hb.symm.trans hnil) hne
  · obtain ⟨space, gap, hspace, hgap, htext⟩ := exists_blank_append_strip text
    rw [← hmeta, hb] at htext
    refine ⟨'{' :: (front ++ space), gap, ⟨?_, hgap⟩, ?_⟩
    · rw [(mem_groups.mp hgroup).1.eq_wrap, hinner, htext]
      simp
    · intro metadata hstripped hnonempty
      have hagain := hother (space ++ metadata ++ gap)
      rw [strip_append hspace hstripped hgap hnonempty] at hagain
      have hwrap : (w.withMetadata ('{' :: (front ++ space)) metadata gap).source =
          '{' :: (front ++ (space ++ metadata ++ gap) ++ ['}']) := by
        simp [Wildcard.withMetadata]
      have hinnerAgain : inner (w.withMetadata ('{' :: (front ++ space)) metadata gap).source =
          front ++ (space ++ metadata ++ gap) := by
        rw [hwrap, inner_wrap]
      rw [← hinnerAgain] at hagain
      refine ofSource_eq_wildcard_iff.mpr ⟨_, .parts hagain, hsized, ?_⟩
      unfold Wildcard.withMetadata
      rw [hw]
      rfl

/-- A wildcard with other metadata can stand where it stood before, if the braces of the metadata are
at the same places. -/
theorem StandsIn.withMetadata {w : Wildcard} {t before metadata gap : Text} (h : w.StandsIn t)
    (frame : w.Frames before gap) (hbraces : Text.braces metadata = Text.braces w.metadata)
    (hstripped : Stripped metadata) (hne : w.metadata ≠ []) :
    (w.withMetadata before metadata gap).StandsFor w := by
  have hnonempty : metadata ≠ [] := by
    rintro rfl
    exact hne (List.eq_nil_of_length_eq_zero (length_eq_of_braces hbraces).symm)
  obtain ⟨other, space, hother, hread⟩ := h.exists_frames hne
  obtain ⟨rfl, rfl⟩ := frame.unique hother h.stripped hne
  refine ⟨rfl, ?_, hread metadata hstripped hnonempty⟩
  change Text.braces (before ++ metadata ++ gap ++ ['}']) = Text.braces w.source
  rw [frame.source]
  simp only [braces_append, hbraces]

theorem StandsIn.refl {w : Wildcard} {t : Text} (h : w.StandsIn t) : w.StandsFor w :=
  ⟨rfl, rfl, h.read⟩

end Wildcard

/-! ## Texts without marks -/

namespace Text

def unmarked (t : Text) : Text := recast Wildcard.unmarked t

def swap (t : Text) (w v : Wildcard) : Text := recast (fun x => if x = w then v else x) t

/-- In the second text a wildcard has lost its mark that stands on one of the first `levels` levels of
the first text. It is of a known kind, and so are the wildcards of these levels around it. -/
inductive Unmarks : Nat → Text → Text → Prop
  | here {levels : Nat} {t : Text} {w : Wildcard} (hw : .wildcard w ∈ segments t)
      (known : w.kind?.isSome = true) (marked : w.obfuscated = true) :
      Unmarks (levels + 1) t (t.swap w w.unmarked)
  | within {levels : Nat} {t before metadata gap : Text} {w : Wildcard}
      (hw : .wildcard w ∈ segments t) (known : w.kind?.isSome = true) (frame : w.Frames before gap)
      (inside : Unmarks levels w.metadata metadata) :
      Unmarks (levels + 1) t (t.swap w (w.withMetadata before metadata gap))

theorem Unmarks.ne_nil {levels : Nat} {t u : Text} (h : Unmarks levels t u) : t ≠ [] := by
  rintro rfl
  cases h with
  | here hw => cases hw
  | within hw => cases hw

/-- Everything that the text around a stretch can see of it. -/
structure SameOutline (u t : Text) : Prop where
  braces : Text.braces u = Text.braces t
  head : u.head? = t.head?
  last : u.getLast? = t.getLast?

theorem SameOutline.stripped {t u : Text} (h : SameOutline u t) (ht : Stripped t) : Stripped u :=
  ⟨by rw [h.head]; exact ht.head, by rw [h.last]; exact ht.last⟩

theorem SameOutline.append {t u v w : Text} (h : SameOutline u t) (hrest : SameOutline w v) :
    SameOutline (u ++ w) (t ++ v) where
  braces := by rw [braces_append, braces_append, h.braces, hrest.braces]
  head := by rw [List.head?_append, List.head?_append, h.head, hrest.head]
  last := by rw [List.getLast?_append, List.getLast?_append, h.last, hrest.last]

theorem SameOutline.refl (t : Text) : SameOutline t t := ⟨rfl, rfl, rfl⟩

theorem outline_of_standsFor {t : Text} {w v : Wildcard} (h : v.StandsFor w) (hw : w.StandsIn t) :
    SameOutline v.source w.source := by
  have hgroup := (mem_groups.mp hw.group).1
  have hlast := Wildcard.getLast?_of_splitClosed? hgroup.2
  refine ⟨h.braces, ?_, ?_⟩
  · rw [hgroup.1, head?_of_braces h.braces.symm hgroup.1]
  · rw [hlast, getLast?_of_braces h.braces.symm hlast]

theorem outline_recast {g : Wildcard → Wildcard} {t : Text} (sized : .oversized ∉ segments t)
    (h : ∀ w, .wildcard w ∈ segments t → (g w).StandsFor w) : SameOutline (recast g t) t := by
  have hsegments (rest : List Segment) (hrest : ∀ segment ∈ rest, segment ∈ segments t) :
      SameOutline (Segment.recast g rest) (rest.flatMap Segment.source) := by
    induction rest with
    | nil => exact .refl []
    | cons segment rest ih =>
        obtain ⟨hsegment, hrest⟩ := List.forall_mem_cons.mp hrest
        refine SameOutline.append ?_ (ih hrest)
        cases segment with
        | wildcard w => exact outline_of_standsFor (h w hsegment) (standsIn_of_mem hsegment)
        | char c => exact .refl _
        | oversized => exact .refl _
  have hwhole := hsegments (segments t) fun _ hsegment => hsegment
  rwa [show (segments t).flatMap Segment.source = t from Segment.flatMap_source_scan 0 0 t sized]
    at hwhole

theorem standsFor_swap {t : Text} {w v : Wildcard} (hv : v.StandsFor w) :
    ∀ x, .wildcard x ∈ segments t → (if x = w then v else x).StandsFor x := by
  intro x hx
  split
  · next heq => exact heq ▸ hv
  · exact (standsIn_of_mem hx).refl

end Text

end Errand
