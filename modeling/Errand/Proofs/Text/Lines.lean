import Errand.Proofs.Wildcard.Braces
import Errand.Prototype.Choice

/-! # What lines leave out

A line has none of the characters and spellings that it ends at, be it typed, from a file, or of
metadata. The prototype on a line has only characters of the line.
-/

namespace Errand

namespace Text

theorem mem_prependChar {c : Char} {line : Text} {lines : List Text}
    (h : line ∈ prependChar c lines) : line = c :: lines.headD [] ∨ line ∈ lines := by
  cases lines with
  | nil => exact .inl (List.mem_singleton.mp h)
  | cons first lines =>
      rcases List.mem_cons.mp h with rfl | hmem
      · exact .inl rfl
      · exact .inr (List.mem_cons_of_mem first hmem)

/-! ## Lines of typed text and of files -/

theorem not_end_of_mem_breakAt {isEnd : Char → Bool} {t : Text} :
    ∀ line ∈ breakAt isEnd t, ∀ c ∈ line, c ≠ '\r' ∧ isEnd c = false := by
  fun_induction breakAt isEnd t with
  | case1 => simp
  | case2 t ih => simpa using ih
  | case3 c t _ hend ih => simpa using ih
  | case4 c t _ hin ih =>
      have hc : c ≠ '\r' ∧ isEnd c = false := by simpa using hin
      intro line hline d hd
      rcases mem_prependChar hline with rfl | hmem
      · rcases List.mem_cons.mp hd with rfl | hd
        · exact hc
        · cases hlines : breakAt isEnd t with
          | nil => simp [hlines] at hd
          | cons first lines =>
              rw [hlines] at ih hd
              exact ih first List.mem_cons_self d hd
      · exact ih line hmem d hd

theorem not_mem_of_mem_typedLines {t line : Text} (h : line ∈ typedLines t) : '\n' ∉ line :=
  fun hmem => by simpa [isLineEnd] using (not_end_of_mem_breakAt line h '\n' hmem).2

theorem not_mem_of_mem_fileLines {t line : Text} (h : line ∈ fileLines t) : '\n' ∉ line :=
  fun hmem => by simpa using (not_end_of_mem_breakAt line h '\n' hmem).2

/-! ## Lines of metadata -/

/-- Nothing in the text could end a line of metadata. -/
structure Unbroken (line : Text) : Prop where
  noReturn : '\r' ∉ line
  noFeed : '\n' ∉ line
  noEscape : ¬ ['\\', '\\'] <:+: line

theorem Unbroken.nil : Unbroken [] where
  noReturn := List.not_mem_nil
  noFeed := List.not_mem_nil
  noEscape := by simp

/-- A first line that is not empty starts as the text does. -/
theorem head?_of_metadataLines {t line : Text} {c : Char} {lines : List Text}
    (h : metadataLines t = (c :: line) :: lines) : t.head? = some c := by
  unfold metadataLines at h
  split at h
  case h_8 d t _ _ _ _ _ _ =>
    unfold prependChar at h
    split at h <;> cases h <;> rfl
  all_goals cases h

/-- A character before an unbroken line breaks it only if it ends a line or spells an end with the
next. -/
theorem Unbroken.cons {c : Char} {line : Text} (h : Unbroken line) (hreturn : c ≠ '\r')
    (hfeed : c ≠ '\n') (hescape : c = '\\' → line.head? ≠ some '\\') : Unbroken (c :: line) where
  noReturn := by simpa using ⟨hreturn.symm, h.noReturn⟩
  noFeed := by simpa using ⟨hfeed.symm, h.noFeed⟩
  noEscape := by
    rw [List.infix_cons_iff]
    rintro (hstart | hlater)
    · obtain ⟨rest, hrest⟩ := hstart
      obtain ⟨rfl, rfl⟩ := List.cons.inj hrest
      exact hescape rfl rfl
    · exact h.noEscape hlater

theorem unbroken_of_mem_metadataLines {t : Text} : ∀ line ∈ metadataLines t, Unbroken line := by
  fun_induction metadataLines t with
  | case1 => simpa using Unbroken.nil
  | case8 c t _ _ hescape _ hreturn hfeed ih =>
      intro line hline
      rcases mem_prependChar hline with rfl | hmem
      · obtain ⟨first, lines, hlines⟩ := List.exists_cons_of_ne_nil (metadataLines_ne_nil t)
        rw [hlines] at ih ⊢
        refine (ih first List.mem_cons_self).cons hreturn hfeed ?_
        rintro rfl hhead
        obtain ⟨rest, rfl⟩ := List.head?_eq_some_iff.mp hhead
        obtain ⟨after, hafter⟩ := List.head?_eq_some_iff.mp (head?_of_metadataLines hlines)
        exact hescape after rfl hafter
      · exact ih line hmem
  | _ => simp_all [Unbroken.nil]

end Text

/-! ## Prototypes -/

namespace Prototype

variable {t rest : Text} {weight : WeightLiteral}

theorem mem_of_mem_unescape {c : Char} (h : c ∈ unescape t) : c ∈ t := by
  fun_induction unescape t with
  | case1 => exact h
  | case2 t ih =>
      rcases List.mem_cons.mp h with rfl | hmem
      · simp
      · simp [ih hmem]
  | case3 d t _ ih =>
      rcases List.mem_cons.mp h with rfl | hmem
      · exact List.mem_cons_self
      · exact List.mem_cons_of_mem d (ih hmem)

theorem isSuffix_of_weight? (h : weight? t = some (weight, rest)) : rest <:+ t := by
  have hdigits (t : Text) : (Text.spanDigits t).2 <:+ t := List.dropWhile_suffix _
  have hwhole := hdigits t
  unfold weight? at h
  dsimp only at h
  split at h
  · next after hafter =>
      rw [hafter] at hwhole
      obtain ⟨_, h⟩ := Option.ite_none_left_eq_some.mp h
      cases h
      exact (List.suffix_cons '%' rest).trans hwhole
  · next after hafter =>
      rw [hafter] at hwhole
      have hfraction := hdigits after
      split at h
      · next fraction later hlater =>
          rw [hlater] at hfraction
          obtain ⟨_, h⟩ := Option.ite_none_left_eq_some.mp h
          cases h
          exact ((List.suffix_cons '%' rest).trans hfraction).trans
            ((List.suffix_cons '.' after).trans hwhole)
      · cases h
  · cases h

theorem mem_of_mem_cutTag? {escaped : Bool} (h : cutTag? escaped t = some (weight, rest)) :
    ∀ c ∈ rest, c ∈ t := by
  induction t generalizing escaped rest with
  | nil => cases h
  | cons d t ih =>
      rw [cutTag?] at h
      split at h
      · next found hfound =>
          obtain rfl := Option.some.inj h
          obtain ⟨_, htag⟩ := Option.ite_none_right_eq_some.mp hfound
          exact fun c hc => List.mem_cons_of_mem d ((isSuffix_of_weight? htag).subset hc)
      · obtain ⟨⟨_, kept⟩, hkept, heq⟩ := Option.map_eq_some_iff.mp h
        cases heq
        intro c hc
        rcases List.mem_cons.mp hc with rfl | hc
        · exact List.mem_cons_self
        · exact List.mem_cons_of_mem d (ih hkept c hc)

theorem mem_of_mem_ofLine? {line : Text} {p : Prototype} (h : ofLine? line = some p) :
    ∀ c ∈ p.text, c ∈ line := by
  have hstrip (t : Text) : ∀ c ∈ Text.strip t, c ∈ t := fun _ hc => (Text.strip_isInfix t).subset hc
  unfold ofLine? at h
  dsimp only at h
  split at h
  · cases h
  · cases h
  · obtain ⟨_, h⟩ := Option.ite_none_left_eq_some.mp h
    obtain rfl := Option.some.inj h
    intro c hc
    apply hstrip line
    have hmem := mem_of_mem_unescape hc
    split at hmem
    · next weight rest hcut => exact mem_of_mem_cutTag? hcut c (hstrip rest c hmem)
    · exact hmem

end Prototype

theorem PrototypeList.exists_line_of_mem_ofLines {W : Type} [Weight W] {lines : List Text} {q : Text}
    (h : q ∈ (ofLines lines : PrototypeList W).items) : ∃ line ∈ lines, ∀ c ∈ q, c ∈ line := by
  obtain ⟨p, hp, rfl⟩ := List.mem_map.mp h
  obtain ⟨line, hline, hread⟩ := List.mem_filterMap.mp hp
  exact ⟨line, hline, Prototype.mem_of_mem_ofLine? hread⟩

end Errand
