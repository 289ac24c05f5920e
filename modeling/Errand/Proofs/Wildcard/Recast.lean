import Errand.Proofs.Wildcard.Acceptance

/-! # Other sources for the wildcards of a text

Where the wildcards of a text get other sources with the braces at the same places, and each of these
reads as a wildcard by itself, the text is cut at the same places as before. For the closing brace of a
group is found by looking at braces alone, and braces that hold no wildcard hold none because of what
stands before the next opening brace or because of the braces in them.
-/

namespace Errand

namespace Text

/-! ## Braces at the same places -/

def brace (c : Char) : Char := if c = '{' ∨ c = '}' then c else ' '

def braces (t : Text) : Text := t.map brace

theorem brace_eq_open {c : Char} : brace c = '{' ↔ c = '{' := by
  unfold brace
  split
  · rfl
  · next h => simp_all

theorem brace_eq_close {c : Char} : brace c = '}' ↔ c = '}' := by
  unfold brace
  split
  · rfl
  · next h => simp_all

@[simp] theorem braces_append (x y : Text) : braces (x ++ y) = braces x ++ braces y :=
  List.map_append

theorem length_eq_of_braces {t u : Text} (h : braces t = braces u) : t.length = u.length := by
  simpa [braces] using congrArg List.length h

theorem isEmpty_eq_of_braces {t u : Text} (h : braces t = braces u) : t.isEmpty = u.isEmpty := by
  rw [Bool.eq_iff_iff, List.isEmpty_iff_length_eq_zero, List.isEmpty_iff_length_eq_zero,
    length_eq_of_braces h]

theorem head?_of_braces {t u : Text} (h : braces t = braces u) (ht : t.head? = some '{') :
    u.head? = some '{' := by
  have hhead := congrArg List.head? h
  unfold braces at hhead
  rw [List.head?_map, List.head?_map, ht] at hhead
  obtain ⟨c, hc, hbrace⟩ := Option.map_eq_some_iff.mp hhead.symm
  rw [hc, brace_eq_open.mp hbrace]

theorem getLast?_of_braces {t u : Text} (h : braces t = braces u) (ht : t.getLast? = some '}') :
    u.getLast? = some '}' := by
  have hlast := congrArg List.getLast? h
  unfold braces at hlast
  rw [List.getLast?_map, List.getLast?_map, ht] at hlast
  obtain ⟨c, hc, hbrace⟩ := Option.map_eq_some_iff.mp hlast.symm
  rw [hc, brace_eq_close.mp hbrace]

end Text

namespace Wildcard

open Text

theorem splitClosed?_braces (depth : Int) (t : Text) :
    splitClosed? depth (braces t) =
      (splitClosed? depth t).map fun x => (braces x.1, braces x.2) := by
  induction t generalizing depth with
  | nil => rfl
  | cons c t ih =>
      have hcons : braces (c :: t) = brace c :: braces t := rfl
      have shift (d : Int) : (splitClosed? d (braces t)).map (fun x => (brace c :: x.1, x.2)) =
          ((splitClosed? d t).map fun x => (c :: x.1, x.2)).map
            fun x => (braces x.1, braces x.2) := by
        rw [ih, Option.map_map, Option.map_map]
        rfl
      rw [hcons]
      simp only [splitClosed?, brace_eq_open, brace_eq_close]
      by_cases hopen : c = '{'
      · rw [if_pos hopen, if_pos hopen]
        exact shift (depth + 1)
      · rw [if_neg hopen, if_neg hopen]
        by_cases hclose : c = '}'
        · rw [if_pos hclose, if_pos hclose]
          by_cases hdepth : depth = 1
          · rw [if_pos hdepth, if_pos hdepth]
            rfl
          · rw [if_neg hdepth, if_neg hdepth]
            exact shift (depth - 1)
        · rw [if_neg hclose, if_neg hclose]
          exact shift depth

theorem splitClosed?_of_braces {depth : Int} {t u source rest : Text} (h : braces t = braces u)
    (found : splitClosed? depth t = some (source, rest)) :
    splitClosed? depth u = some (u.take source.length, u.drop source.length) := by
  have hu := splitClosed?_braces depth u
  rw [← h, splitClosed?_braces depth t, found] at hu
  obtain ⟨⟨x, y⟩, hxy, hpair⟩ := Option.map_eq_some_iff.mp hu.symm
  simp only [Prod.mk.injEq] at hpair
  obtain ⟨rfl, _⟩ := splitClosed?_eq_some hxy
  rw [hxy, ← length_eq_of_braces hpair.1, List.take_left, List.drop_left]

theorem splitClosed?_none_of_braces {depth : Int} {t u : Text} (h : braces t = braces u)
    (found : splitClosed? depth t = none) : splitClosed? depth u = none := by
  have hu := splitClosed?_braces depth u
  rw [← h, splitClosed?_braces depth t, found] at hu
  exact Option.map_eq_none_iff.mp hu.symm

theorem IsGroup.of_braces {g u : Text} (hg : IsGroup g) (h : braces g = braces u) : IsGroup u := by
  obtain ⟨hhead, hsplit⟩ := hg
  refine ⟨head?_of_braces h hhead, ?_⟩
  rw [splitClosed?_of_braces h hsplit, length_eq_of_braces h, List.take_length, List.drop_length]

/-! ## Reading up to an opening brace -/

theorem IsIdentifier.not_mem {t : Text} (h : IsIdentifier t) {c : Char}
    (hc : Text.isWord c = false) : c ∉ t := by
  intro hmem
  rw [h.isWord c hmem] at hc
  cases hc

theorem not_mem_of_blank {t : Text} (h : Blank t) {c : Char} (hc : isBlank c = false) : c ∉ t := by
  intro hmem
  rw [h c hmem] at hc
  cases hc

theorem Separates.not_mem {mark c : Char} {gap : Text} (h : Separates mark gap) (hmark : c ≠ mark)
    (hc : isBlank c = false) : c ∉ gap := by
  cases h with
  | marked hbefore hafter =>
      simp [not_mem_of_blank hbefore hc, not_mem_of_blank hafter hc, hmark]
  | blank hgap => exact not_mem_of_blank hgap hc

/-- A character that neither names, numbers nor sets anything off stands in no part before the
question mark. -/
structure Foreign (c : Char) : Prop where
  notWord : isWord c = false
  notBlank : isBlank c = false
  notColon : c ≠ ':'
  notHash : c ≠ '#'

theorem TypePart.not_mem {type : Option Text} {x : Text} (h : TypePart type x) {c : Char}
    (hc : Foreign c) : c ∉ x := by
  cases h with
  | missing => exact List.not_mem_nil
  | present hgap htype =>
      rw [List.mem_append, not_or]
      exact ⟨hgap.not_mem hc.notColon hc.notBlank, htype.not_mem hc.notWord⟩

theorem NumberPart.not_mem {digits : Option Text} {x : Text} (h : NumberPart digits x) {c : Char}
    (hc : Foreign c) : c ∉ x := by
  cases h with
  | missing => exact List.not_mem_nil
  | present hgap hdigits =>
      rw [List.mem_append, not_or]
      refine ⟨hgap.not_mem hc.notHash hc.notBlank, ?_⟩
      intro hmem
      have hword := isWord_of_isDigit (hdigits c hmem)
      rw [hc.notWord] at hword
      cases hword

theorem MarkPart.not_mem {obfuscated : Bool} {x : Text} (h : MarkPart obfuscated x) {c : Char}
    (hc : Foreign c) (hmark : c ≠ '?') : c ∉ x := by
  cases h with
  | missing => exact List.not_mem_nil
  | present hgap =>
      rw [List.mem_append, not_or]
      exact ⟨not_mem_of_blank hgap hc.notBlank, by simpa using hmark⟩

theorem foreign_open : Foreign '{' := by
  refine ⟨?_, ?_, ?_, ?_⟩ <;> decide +kernel

theorem Heading.not_mem_open {b : Body} {head : Text} (h : Heading b head) : '{' ∉ head := by
  obtain ⟨hlead, hname, htype, hdigits, hmark⟩ := h
  simp only [List.mem_append, not_or]
  exact ⟨⟨⟨⟨not_mem_of_blank hlead foreign_open.notBlank, hname.not_mem foreign_open.notWord⟩,
    htype.not_mem foreign_open⟩, hdigits.not_mem foreign_open⟩,
    hmark.not_mem foreign_open (by decide)⟩

/-- Braces stand in the metadata only, and the parts before it do not depend on what it says. -/
theorem Written.metadata_cases {b : Body} {t : Text} (h : Written b t) :
    (b.metadata = [] ∧ '{' ∉ t) ∨
      ∃ before text, t = before ++ text ∧ '{' ∉ before ∧ b.metadata = strip text ∧
        ∀ other, Written { b with metadata := strip other } (before ++ other) := by
  cases h with
  | bare heading hgap hmeta =>
      refine .inl ⟨hmeta, ?_⟩
      simp [heading.not_mem_open, not_mem_of_blank hgap foreign_open.notBlank]
  | @withMetadata head gap word space text heading hgap hword apart hspace hmeta =>
      refine .inr ⟨head ++ gap ++ word ++ space ++ [':'], text, by simp, ?_, hmeta, ?_⟩
      · have hletters : '{' ∉ word := fun hmem => by
          have hletter := hword.isWord '{' hmem
          rw [foreign_open.notWord] at hletter
          cases hletter
        simp [heading.not_mem_open, not_mem_of_blank hgap foreign_open.notBlank, hletters,
          not_mem_of_blank hspace foreign_open.notBlank]
      · intro other
        have hheading : Heading { b with metadata := strip other } head := by
          obtain ⟨hlead, hname, htype, hdigits, hmark⟩ := heading
          exact .intro hlead hname htype hdigits hmark
        have hwritten : Written { b with metadata := strip other }
            (head ++ gap ++ word ++ space ++ ':' :: other) :=
          .withMetadata hheading hgap hword apart hspace rfl
        simpa using hwritten

/-- Whether a body is read is settled before its first opening brace. -/
theorem read?_eq_none_of_open {a b c : Text}
    (h : Body.read? (a ++ '{' :: b) = none) : Body.read? (a ++ '{' :: c) = none := by
  by_contra hsome
  obtain ⟨body, hbody⟩ := Option.ne_none_iff_exists'.mp hsome
  rcases (read?_eq_some_iff.mp hbody).metadata_cases with
    ⟨_, hopen⟩ | ⟨before, text, hsplit, hopen, _, hother⟩
  · exact hopen (by simp)
  · -- The parts before the metadata lie before the brace, so they stand in the other text as well.
    rcases List.append_eq_append_iff.mp hsplit with ⟨more, hbefore, hmore⟩ | ⟨more, hmore, _⟩
    · cases more with
      | nil =>
          rw [List.append_nil] at hbefore
          have hread := read?_eq_some_iff.mpr (hother ('{' :: b))
          rw [hbefore, h] at hread
          cases hread
      | cons d more =>
          obtain ⟨rfl, _⟩ := List.cons.inj hmore
          exact hopen (by simp [hbefore])
    · have hread := read?_eq_some_iff.mpr (hother (more ++ '{' :: b))
      rw [← List.append_assoc, ← hmore, h] at hread
      cases hread

end Wildcard

namespace Text

def front (t : Text) : Text := t.takeWhile fun c => c ≠ '{'

theorem front_take {t u : Text} (h : front t = front u) (n : Nat) :
    front (t.take n) = front (u.take n) := by
  unfold front at h ⊢
  rw [← List.take_takeWhile, ← List.take_takeWhile, h]

/-- Texts of one length that are the same up to the first opening brace are the same, or both go on
with one. -/
theorem eq_or_open_of_front {t u : Text} (h : front t = front u) (hlength : t.length = u.length) :
    t = u ∨ ∃ a b c, t = a ++ '{' :: b ∧ u = a ++ '{' :: c := by
  have hsplit (x : Text) : x = front x ++ x.dropWhile fun c => c ≠ '{' :=
    (List.takeWhile_append_dropWhile).symm
  have hopen (x : Text) {d : Char} {rest : Text}
      (hx : (x.dropWhile fun c => c ≠ '{') = d :: rest) : d = '{' := by
    have hhead := head?_dropWhile (p := fun c => decide (c ≠ '{')) (t := x) d (by rw [hx]; rfl)
    simpa using hhead
  have ht := hsplit t
  have hu := hsplit u
  rw [← h] at hu
  cases htrest : t.dropWhile fun c => c ≠ '{' with
  | nil =>
      have hshort : (u.dropWhile fun c => c ≠ '{') = [] := by
        apply List.eq_nil_of_length_eq_zero
        have hlt := congrArg List.length ht
        have hlu := congrArg List.length hu
        rw [List.length_append] at hlt hlu
        rw [htrest] at hlt
        simp only [List.length_nil] at hlt
        omega
      left
      rw [ht, hu, htrest, hshort]
  | cons d b =>
      cases hurest : u.dropWhile fun c => c ≠ '{' with
      | nil =>
          have hlt := congrArg List.length ht
          have hlu := congrArg List.length hu
          rw [List.length_append] at hlt hlu
          rw [htrest] at hlt
          rw [hurest] at hlu
          simp only [List.length_nil, List.length_cons] at hlt hlu
          omega
      | cons e c =>
          obtain rfl := hopen t htrest
          obtain rfl := hopen u hurest
          exact .inr ⟨front t, b, c, by rw [← htrest]; exact ht, by rw [← hurest]; exact hu⟩

end Text

namespace Wildcard

open Text

theorem inner_cons_take {c : Char} {t : Text} {n : Nat} (h : n ≤ t.length) :
    inner ((c :: t).take (n + 1)) = t.take (n - 1) := by
  unfold inner
  rw [List.take_succ_cons, List.drop_one, List.tail_cons, List.dropLast_eq_take, List.length_take,
    List.take_take]
  congr 1
  omega

/-- Braces that hold no wildcard still hold none when something behind another opening brace changes
between braces. -/
theorem read_malformed_of_front {index : Int} {t u : Text} (hbraces : braces t = braces u)
    (hfront : front t = front u) (h : read index ('{' :: t) = .malformed) :
    read index ('{' :: u) = .malformed := by
  have hwhole : braces ('{' :: t) = braces ('{' :: u) := congrArg (brace '{' :: ·) hbraces
  unfold read at h ⊢
  cases hsplit : splitClosed? 0 ('{' :: t) with
  | none => rw [splitClosed?_none_of_braces hwhole hsplit]
  | some found =>
      obtain ⟨source, rest⟩ := found
      rw [hsplit] at h
      rw [splitClosed?_of_braces hwhole hsplit]
      dsimp only at h ⊢
      obtain ⟨heq, hne⟩ := splitClosed?_eq_some hsplit
      have hsource : source = ('{' :: t).take source.length := by rw [heq, List.take_left]
      obtain ⟨n, hn⟩ : ∃ n, source.length = n + 1 :=
        Nat.exists_eq_succ_of_ne_zero (by simpa using hne)
      have hnt : n ≤ t.length := by
        have hle := congrArg List.length heq
        rw [List.length_append, List.length_cons] at hle
        omega
      have hnu : n ≤ u.length := by rwa [← length_eq_of_braces hbraces]
      unfold ofSource at h ⊢
      change ofInner _ (inner _) _ = _ at h
      change ofInner _ (inner _) _ = _
      rw [hsource, hn, inner_cons_take hnt, ofInner_eq_malformed] at h
      rw [hn, inner_cons_take hnu, ofInner_eq_malformed]
      have hlength : (t.take (n - 1)).length = (u.take (n - 1)).length := by
        rw [List.length_take, List.length_take, length_eq_of_braces hbraces]
      rcases eq_or_open_of_front (front_take hfront (n - 1)) hlength with hsame |
        ⟨a, b, c, htake, hutake⟩
      · rw [← hsame]
        exact h
      · rw [hutake]
        rw [htake] at h
        refine ⟨?_, read?_eq_none_of_open h.2⟩
        simp [allBlank, foreign_open.notBlank]

/-- A wildcard that can stand in the place of another. -/
structure StandsFor (v w : Wildcard) : Prop where
  index : v.index = w.index
  braces : Text.braces v.source = Text.braces w.source
  read : ofSource v.source v.index = .wildcard v

end Wildcard

/-! ## Cutting the text again -/

namespace Segment

def onWildcard (g : Wildcard → Wildcard) : Segment → Segment
  | .wildcard w => .wildcard (g w)
  | segment => segment

def recast (g : Wildcard → Wildcard) (segments : List Segment) : Text :=
  (segments.map (onWildcard g)).flatMap source

variable {g : Wildcard → Wildcard} {segments : List Segment}

theorem braces_recast
    (h : ∀ w, .wildcard w ∈ segments → Text.braces (g w).source = Text.braces w.source) :
    Text.braces (recast g segments) = Text.braces (segments.flatMap source) := by
  unfold recast
  induction segments with
  | nil => rfl
  | cons segment segments ih =>
      have hrest := ih fun w hw => h w (List.mem_cons_of_mem segment hw)
      rw [List.map_cons, List.flatMap_cons, List.flatMap_cons, Text.braces_append,
        Text.braces_append, hrest]
      cases segment with
      | wildcard w => exact congrArg (· ++ _) (h w List.mem_cons_self)
      | char c => rfl
      | oversized => rfl

theorem front_recast
    (h : ∀ w, .wildcard w ∈ segments →
      w.source.head? = some '{' ∧ (g w).source.head? = some '{') :
    Text.front (recast g segments) = Text.front (segments.flatMap source) := by
  unfold recast
  induction segments with
  | nil => rfl
  | cons segment segments ih =>
      have hrest := ih fun w hw => h w (List.mem_cons_of_mem segment hw)
      rw [List.map_cons, List.flatMap_cons, List.flatMap_cons]
      cases segment with
      | wildcard w =>
          obtain ⟨hw, hgw⟩ := h w List.mem_cons_self
          obtain ⟨x, hx⟩ := List.head?_eq_some_iff.mp hw
          obtain ⟨y, hy⟩ := List.head?_eq_some_iff.mp hgw
          simp [onWildcard, source, hx, hy, Text.front]
      | char c =>
          unfold Text.front at hrest ⊢
          simp only [onWildcard, source, List.singleton_append, List.takeWhile_cons, hrest]
      | oversized => exact hrest

theorem head?_source_of_mem_scan {skip index : Nat} {t : Text} {w : Wildcard}
    (h : .wildcard w ∈ scan skip index t) : w.source.head? = some '{' :=
  (Text.mem_groups.mp (standsIn_of_mem_scan h).group).1.1

theorem scan_of_ne_open {index : Nat} {c : Char} {t : Text} (h : c ≠ '{') :
    scan 0 index (c :: t) = .char c :: scan 0 (index + 1) t := by
  rw [scan, if_neg h]

theorem scan_of_malformed {index : Nat} {t : Text}
    (h : Wildcard.read index ('{' :: t) = .malformed) :
    scan 0 index ('{' :: t) = .char '{' :: scan 0 (index + 1) t := by
  rw [scan, if_pos rfl, h]

theorem scan_of_wildcard {index : Nat} {t : Text} {w : Wildcard} (hhead : t.head? = some '{')
    (h : Wildcard.read index t = .wildcard w) :
    scan 0 index t =
      .wildcard w :: scan 0 (index + w.source.length) (t.drop w.source.length) := by
  obtain ⟨t, rfl⟩ := List.head?_eq_some_iff.mp hhead
  obtain ⟨_, hne, _⟩ := Wildcard.read_eq_wildcard h
  obtain ⟨n, hn⟩ : ∃ n, w.source.length = n + 1 :=
    Nat.exists_eq_succ_of_ne_zero (by simpa using hne)
  rw [scan, if_pos rfl, h]
  dsimp only
  rw [scan_skip, hn, List.drop_succ_cons, Nat.add_sub_cancel, Nat.add_assoc, Nat.add_comm 1 n]

theorem read_malformed_recast {index : Nat} {t : Text}
    (sized : .oversized ∉ scan 0 (index + 1) t)
    (h : ∀ w, .wildcard w ∈ scan 0 (index + 1) t → (g w).StandsFor w)
    (hread : Wildcard.read index ('{' :: t) = .malformed) :
    Wildcard.read index ('{' :: recast g (scan 0 (index + 1) t)) = .malformed := by
  have hwhole := flatMap_source_scan 0 (index + 1) t sized
  have hbraces := braces_recast fun w hw => (h w hw).braces
  have hfront := front_recast fun w hw =>
    ⟨head?_source_of_mem_scan hw,
      Text.head?_of_braces (h w hw).braces.symm (head?_source_of_mem_scan hw)⟩
  rw [hwhole, List.drop_zero] at hbraces hfront
  exact Wildcard.read_malformed_of_front hbraces.symm hfront.symm hread

theorem scan_of_standsFor {w v : Wildcard} {t : Text} {index : Nat} (hw : w.StandsIn t)
    (hv : v.StandsFor w) (hindex : w.index = index) (x : Text) :
    scan 0 index (v.source ++ x) = .wildcard v :: scan 0 (index + w.source.length) x := by
  obtain ⟨hvindex, hbraces, hvread⟩ := hv
  obtain ⟨hhead, hsplit⟩ := (Text.mem_groups.mp hw.group).1.of_braces hbraces.symm
  have hread : Wildcard.read index (v.source ++ x) = .wildcard v := by
    unfold Wildcard.read
    rw [Wildcard.splitClosed?_append hsplit x]
    rwa [hvindex, hindex] at hvread
  have hopen : (v.source ++ x).head? = some '{' := by
    rw [List.head?_append, hhead]
    rfl
  rw [scan_of_wildcard hopen hread, List.drop_left, Text.length_eq_of_braces hbraces]

/-- A text with other wildcards in the place of its own is cut into these and the same characters. -/
theorem scan_recast {index : Nat} {t : Text} (sized : .oversized ∉ scan 0 index t)
    (h : ∀ w, .wildcard w ∈ scan 0 index t → (g w).StandsFor w) :
    scan 0 index (recast g (scan 0 index t)) = (scan 0 index t).map (onWildcard g) := by
  induction hn : t.length using Nat.strongRecOn generalizing t index with
  | ind n ih =>
      subst hn
      have hstep {segment : Segment} {next : Nat} {u : Text}
          (hscan : scan 0 index t = segment :: scan 0 next u) (hu : u.length < t.length) :
          scan 0 next (recast g (scan 0 next u)) = (scan 0 next u).map (onWildcard g) := by
        rw [hscan] at sized h
        exact ih u.length hu (fun hmem => sized (List.mem_cons_of_mem _ hmem))
          (fun w hw => h w (List.mem_cons_of_mem _ hw)) rfl
      cases t with
      | nil => rfl
      | cons c t =>
          by_cases hopen : c = '{'
          · subst hopen
            cases hread : Wildcard.read index ('{' :: t) with
            | oversized => simp [scan, hread] at sized
            | malformed =>
                have hscan := scan_of_malformed hread
                have hrest := hstep hscan (by simp)
                rw [hscan] at sized h ⊢
                change scan 0 index ('{' :: recast g (scan 0 (index + 1) t)) = _
                rw [scan_of_malformed (read_malformed_recast
                  (fun hmem => sized (List.mem_cons_of_mem _ hmem))
                  (fun w hw => h w (List.mem_cons_of_mem _ hw)) hread), hrest]
                rfl
            | wildcard w =>
                have hscan := scan_of_wildcard (t := '{' :: t) rfl hread
                have hmem : .wildcard w ∈ scan 0 index ('{' :: t) := by
                  rw [hscan]
                  exact List.mem_cons_self
                obtain ⟨_, hne, hindex⟩ := Wildcard.read_eq_wildcard hread
                have hpos := List.length_pos_iff.mpr hne
                have hrest := hstep hscan (by simp only [List.length_drop, List.length_cons]; omega)
                rw [hscan]
                change scan 0 index ((g w).source ++ recast g _) = _
                rw [scan_of_standsFor (standsIn_of_mem_scan hmem) (h w hmem) hindex, hrest]
                rfl
          · have hscan : scan 0 index (c :: t) = .char c :: scan 0 (index + 1) t := scan_of_ne_open hopen
            have hrest := hstep hscan (by simp)
            rw [hscan]
            change scan 0 index (c :: recast g (scan 0 (index + 1) t)) = _
            rw [scan_of_ne_open hopen, hrest]
            rfl

end Segment

/-- The text with other wildcards in the place of its own. -/
def Text.recast (g : Wildcard → Wildcard) (t : Text) : Text := Segment.recast g (Text.segments t)

theorem Text.segments_recast {g : Wildcard → Wildcard} {t : Text} (sized : .oversized ∉ segments t)
    (h : ∀ w, .wildcard w ∈ segments t → (g w).StandsFor w) :
    segments (recast g t) = (segments t).map (Segment.onWildcard g) :=
  Segment.scan_recast sized h

end Errand
