import Errand.Value.Reader
import Mathlib.Data.List.TakeWhile

/-! # Numbers with too many digits

A reader of catalog values gives a value and the end of the text that it has not read, or it fails. It
says that a number is too long only of a text in which more digits stand in a row than a number may
have, so a text without such a run is read, or is not written in the notation.
-/

namespace Errand

def Text.HasLongRun (t : Text) : Prop :=
  ∃ digits, digits <:+: t ∧ (∀ c ∈ digits, c.isDigit = true) ∧ digitLimit < digits.length

theorem Text.HasLongRun.of_suffix {t u : Text} (h : u.HasLongRun) (hu : u <:+ t) : t.HasLongRun := by
  obtain ⟨digits, hstretch, hdigits, hlong⟩ := h
  exact ⟨digits, hstretch.trans hu.isInfix, hdigits, hlong⟩

namespace Value

/-! ## What readers come to -/

/-- What a reader may come to on a text: a result and an end of the text, or a failure, which is that
of a long number only if the text has a long run of digits. -/
inductive Leads {α : Type} (t : Text) : Except Flaw (α × Text) → Prop
  | read (a : α) {rest : Text} (hrest : rest <:+ t) : Leads t (.ok (a, rest))
  | malformed : Leads t (.error .malformed)
  | oversized (hlong : t.HasLongRun) : Leads t (.error .oversizedInteger)

section

variable {α β : Type} {t u : Text} {x : Except Flaw (α × Text)}

theorem Leads.of_suffix (h : Leads u x) (hu : u <:+ t) : Leads t x := by
  cases h with
  | read a hrest => exact .read a (hrest.trans hu)
  | malformed => exact .malformed
  | oversized hlong => exact .oversized (hlong.of_suffix hu)

theorem Leads.bind {f : α × Text → Except Flaw (β × Text)} (h : Leads t x)
    (hf : ∀ a rest, rest <:+ t → Leads t (f (a, rest))) : Leads t (x >>= f) := by
  cases h with
  | read a hrest => exact hf a _ hrest
  | malformed => exact .malformed
  | oversized hlong => exact .oversized hlong

end

/-! ## Parts of a text -/

theorem suffix_skipSpaces (t : Text) : skipSpaces t <:+ t := List.dropWhile_suffix _

theorem suffix_of_skipSpaces {t rest : Text} {c : Char} (h : skipSpaces t = c :: rest) :
    rest <:+ t :=
  (List.suffix_cons c rest).trans (h ▸ suffix_skipSpaces t)

theorem suffix_of_spanDigits {t digits rest : Text} (h : Text.spanDigits t = (digits, rest)) :
    rest <:+ t := by
  obtain ⟨_, rfl⟩ := Prod.mk.inj h
  exact List.dropWhile_suffix _

theorem suffix_of_afterWord? {word t rest : Text} (h : afterWord? word t = some rest) :
    rest <:+ t := by
  unfold afterWord? at h
  split at h
  · cases h
    exact List.drop_suffix _ t
  · cases h

theorem suffix_of_readHex4 {t rest : Text} {n : Nat} (h : readHex4 t = some (n, rest)) :
    rest <:+ t := by
  unfold readHex4 at h
  split at h
  · next a b c d u =>
      simp only [Option.bind_eq_bind, Option.bind_eq_some_iff] at h
      obtain ⟨_, _, _, _, _, _, _, _, h⟩ := h
      cases h
      exact ⟨[a, b, c, d], rfl⟩
  · cases h

theorem suffix_of_readLowHalf? {t rest : Text} {n : Nat} (h : readLowHalf? t = some (n, rest)) :
    rest <:+ t := by
  unfold readLowHalf? at h
  split at h
  · next u =>
      obtain ⟨⟨low, rest⟩, hread, h⟩ := Option.bind_eq_some_iff.mp h
      dsimp only at h
      split at h
      · cases h
        exact (suffix_of_readHex4 hread).trans ⟨['\\', 'u'], rfl⟩
      · cases h
  · cases h

theorem suffix_of_readNumbered {t rest : Text} {c : Char} (h : readNumbered t = some (c, rest)) :
    rest <:+ t := by
  unfold readNumbered at h
  obtain ⟨⟨unit, after⟩, hread, h⟩ := Option.bind_eq_some_iff.mp h
  have hafter := suffix_of_readHex4 hread
  dsimp only at h
  split at h
  · split at h
    · next low tail hlow =>
        obtain ⟨_, rfl⟩ := Prod.mk.inj (Option.some.inj h)
        exact (suffix_of_readLowHalf? hlow).trans hafter
    · obtain ⟨_, rfl⟩ := Prod.mk.inj (Option.some.inj h)
      exact hafter
  · split at h <;> obtain ⟨_, rfl⟩ := Prod.mk.inj (Option.some.inj h) <;> exact hafter

/-! ## Text and numbers -/

theorem leads_readText (fuel : Nat) (t : Text) : Leads t (readText fuel t) := by
  induction fuel generalizing t with
  | zero => exact .malformed
  | succ fuel ih =>
      unfold readText
      split
      · next u => exact .read [] (List.suffix_cons _ u)
      · next u =>
          split
          · next c after hread =>
              refine Leads.bind ((ih after).of_suffix ?_) fun cs rest hrest => .read (c :: cs) hrest
              exact (suffix_of_readNumbered hread).trans ⟨['\\', 'u'], rfl⟩
          · exact .malformed
      · next c u _ =>
          split
          · next d _ =>
              refine Leads.bind ((ih u).of_suffix ?_) fun cs rest hrest => .read (d :: cs) hrest
              exact ⟨['\\', c], rfl⟩
          · exact .malformed
      · next c u _ _ _ =>
          split
          · exact .malformed
          · exact Leads.bind ((ih u).of_suffix (List.suffix_cons c u)) fun cs rest hrest =>
              .read (c :: cs) hrest
      · exact .malformed

theorem suffix_spanWhole (t : Text) : (spanWhole t).2 <:+ t := by
  unfold spanWhole
  split
  · next u => exact List.suffix_cons _ u
  · exact List.dropWhile_suffix _

theorem digits_spanWhole (t : Text) :
    (spanWhole t).1 <+: t ∧ ∀ c ∈ (spanWhole t).1, c.isDigit = true := by
  unfold spanWhole
  split
  · next u => exact ⟨⟨u, rfl⟩, by simp⟩
  · exact ⟨List.takeWhile_prefix _, List.all_eq_true.mp List.all_takeWhile⟩

theorem suffix_spanFraction (t : Text) : (spanFraction t).2 <:+ t := by
  unfold spanFraction
  split
  · next u =>
      split
      · exact List.suffix_refl _
      · next hspan => exact (suffix_of_spanDigits hspan).trans (List.suffix_cons _ u)
  · exact List.suffix_refl _

theorem suffix_spanPower (t : Text) : (spanPower t).2 <:+ t := by
  unfold spanPower
  split
  · next c u =>
      split
      · split
        next negative r hsign =>
        have hr : r <:+ u := by
          split at hsign <;> obtain ⟨_, rfl⟩ := Prod.mk.inj hsign
          · exact List.suffix_cons _ _
          · exact List.suffix_cons _ _
          · exact List.suffix_refl _
        split
        · exact List.suffix_refl _
        · next hspan =>
            exact ((suffix_of_spanDigits hspan).trans hr).trans (List.suffix_cons c u)
      · exact List.suffix_refl _
  · exact List.suffix_refl _

theorem leads_readNumber (negative : Bool) (t : Text) : Leads t (readNumber negative t) := by
  obtain ⟨hfront, hdigits⟩ := digits_spanWhole t
  have hwhole := suffix_spanWhole t
  unfold readNumber
  generalize spanWhole t = found at hfront hdigits hwhole ⊢
  obtain ⟨whole, afterWhole⟩ := found
  have hfraction := (suffix_spanFraction afterWhole).trans hwhole
  dsimp only at hfront hdigits ⊢
  generalize spanFraction afterWhole = found at hfraction ⊢
  obtain ⟨fraction, afterFraction⟩ := found
  have hpower := (suffix_spanPower afterFraction).trans hfraction
  dsimp only
  generalize spanPower afterFraction = found at hpower ⊢
  obtain ⟨power, rest⟩ := found
  dsimp only at hpower ⊢
  split
  · exact .malformed
  · split
    · split
      · next hlong => exact .oversized ⟨whole, hfront.isInfix, hdigits, hlong⟩
      · exact .read _ hpower
    · exact .read _ hpower

theorem leads_readAtom (t : Text) : Leads t (readAtom t) := by
  unfold readAtom
  dsimp only
  split
  · next found hfound =>
      obtain ⟨word, _, hword⟩ := List.exists_of_findSome?_eq_some hfound
      obtain ⟨rest, hrest, rfl⟩ := Option.map_eq_some_iff.mp hword
      exact .read _ (suffix_of_afterWord? hrest)
  · split
    · next u _ => exact (leads_readNumber true u).of_suffix (List.suffix_cons _ u)
    · exact leads_readNumber false t

/-! ## Values -/

/-- With so many steps each of the three readers that call each other leads to an end of its text. -/
structure LeadOn (fuel : Nat) : Prop where
  value : ∀ t, Leads t (readValue fuel t)
  items : ∀ t, Leads t (readItems fuel t)
  fields : ∀ t, Leads t (readFields fuel t)

section

variable {fuel : Nat}

theorem LeadOn.readValue (h : LeadOn fuel) (t : Text) : Leads t (readValue (fuel + 1) t) := by
  unfold Value.readValue
  split
  · next u =>
      refine Leads.bind ((leads_readText fuel u).of_suffix (List.suffix_cons '"' u)) ?_
      exact fun s rest hrest => .read _ hrest
  · next u =>
      have hu : u <:+ '[' :: u := List.suffix_cons '[' u
      split
      · next v hskip => exact .read _ ((suffix_of_skipSpaces hskip).trans hu)
      · refine Leads.bind ((h.items _).of_suffix ((suffix_skipSpaces u).trans hu)) ?_
        exact fun items rest hrest => .read _ hrest
  · next u =>
      have hu : u <:+ '{' :: u := List.suffix_cons '{' u
      split
      · next v hskip => exact .read _ ((suffix_of_skipSpaces hskip).trans hu)
      · refine Leads.bind ((h.fields _).of_suffix ((suffix_skipSpaces u).trans hu)) ?_
        exact fun fields rest hrest => .read _ hrest
  · exact leads_readAtom t

theorem LeadOn.readItems (h : LeadOn fuel) (t : Text) : Leads t (readItems (fuel + 1) t) := by
  unfold Value.readItems
  refine Leads.bind (h.value t) fun item after hafter => ?_
  dsimp only
  split
  · next u hskip => exact .read _ ((suffix_of_skipSpaces hskip).trans hafter)
  · next u hskip =>
      have hu : u <:+ t := (suffix_of_skipSpaces hskip).trans hafter
      refine Leads.bind ((h.items _).of_suffix ((suffix_skipSpaces u).trans hu)) ?_
      exact fun items rest hrest => .read _ hrest
  · exact .malformed

theorem LeadOn.readFields (h : LeadOn fuel) (t : Text) : Leads t (readFields (fuel + 1) t) := by
  unfold Value.readFields
  split
  · next u =>
      have hkey := (leads_readText fuel u).of_suffix (List.suffix_cons '"' u)
      refine Leads.bind hkey fun key afterKey hafterKey => ?_
      dsimp only
      split
      · next v hcolon =>
          have hv := (suffix_of_skipSpaces hcolon).trans hafterKey
          have hvalue := (h.value _).of_suffix ((suffix_skipSpaces v).trans hv)
          refine Leads.bind hvalue fun value after hafter => ?_
          dsimp only
          split
          · next w hskip => exact .read _ ((suffix_of_skipSpaces hskip).trans hafter)
          · next w hskip =>
              have hw := (suffix_of_skipSpaces hskip).trans hafter
              refine Leads.bind ((h.fields _).of_suffix ((suffix_skipSpaces w).trans hw)) ?_
              exact fun fields rest hrest => .read _ hrest
          · exact .malformed
      · exact .malformed
  · exact .malformed

end

theorem leadOn (fuel : Nat) : LeadOn fuel := by
  induction fuel with
  | zero => exact ⟨fun _ => .malformed, fun _ => .malformed, fun _ => .malformed⟩
  | succ fuel ih => exact ⟨ih.readValue, ih.readItems, ih.readFields⟩

/-- A number is too long only in a text with a long run of digits. -/
theorem hasLongRun_of_read {t : Text} (h : read t = .error .oversizedInteger) : t.HasLongRun := by
  unfold read at h
  have hvalue := ((leadOn (2 * t.length + 2)).value (skipSpaces t)).of_suffix (suffix_skipSpaces t)
  generalize Value.readValue (2 * t.length + 2) (skipSpaces t) = x at h hvalue
  cases hvalue with
  | read value hrest =>
      change (if _ then _ else _) = _ at h
      split at h <;> cases h
  | malformed => cases h
  | oversized hlong => exact hlong

/-! ## A text of digits -/

section

variable {d : Char} {digits : Text}

theorem ne_of_isDigit {c : Char} (hd : d.isDigit = true) (hc : c.isDigit = false) : d ≠ c := by
  rintro rfl
  rw [hd] at hc
  cases hc

theorem afterWord?_of_isDigit {word : String} {c : Char} (hd : d.isDigit = true)
    (hfirst : word.toList.head? = some c) (hc : c.isDigit = false) :
    afterWord? word.toList (d :: digits) = none := by
  obtain ⟨rest, hrest⟩ := List.head?_eq_some_iff.mp hfirst
  unfold afterWord?
  rw [hrest]
  exact if_neg (by simp [(ne_of_isDigit hd hc).symm])

variable (hdigits : ∀ c ∈ d :: digits, c.isDigit = true)

include hdigits

theorem skipSpaces_of_digits : skipSpaces (d :: digits) = d :: digits := by
  have hne (c : Char) (hc : c.isDigit = false) : d ≠ c :=
    ne_of_isDigit (hdigits d List.mem_cons_self) hc
  unfold skipSpaces
  rw [List.dropWhile_cons_of_neg]
  simp [hne ' ' rfl, hne '\t' rfl, hne '\n' rfl, hne '\r' rfl]

variable (hd : d ≠ '0') (hlong : Text.digitLimit ≤ digits.length)

include hd hlong

theorem readNumber_of_digits :
    readNumber false (d :: digits) = .error .oversizedInteger := by
  have hspan : Text.spanDigits (d :: digits) = (d :: digits, []) :=
    Prod.ext (List.takeWhile_eq_self_iff.mpr hdigits) (List.dropWhile_eq_nil_iff.mpr hdigits)
  have hwhole : spanWhole (d :: digits) = (d :: digits, []) := by
    unfold spanWhole
    split
    · next heq => exact absurd (List.cons.inj heq).1 hd
    · exact hspan
  have hlonger : Text.digitLimit < (d :: digits).length := by
    simpa using Nat.lt_succ_of_le hlong
  unfold readNumber
  rw [hwhole]
  exact if_pos hlonger

theorem readAtom_of_digits : readAtom (d :: digits) = .error .oversizedInteger := by
  have hdigit : d.isDigit = true := hdigits d List.mem_cons_self
  have hword (word : String) {c : Char} (hfirst : word.toList.head? = some c)
      (hc : c.isDigit = false) : afterWord? word.toList (d :: digits) = none :=
    afterWord?_of_isDigit hdigit hfirst hc
  unfold readAtom
  simp only [List.findSome?, hword "null" rfl rfl, hword "true" rfl rfl,
    hword "false" rfl rfl, hword "NaN" rfl rfl,
    hword "Infinity" rfl rfl, hword "-Infinity" rfl rfl, Option.map_none]
  split
  · next heq => exact absurd (List.cons.inj heq).1 (ne_of_isDigit hdigit rfl)
  · exact readNumber_of_digits hdigits hd hlong

theorem readValue_of_digits (fuel : Nat) :
    readValue (fuel + 1) (d :: digits) = .error .oversizedInteger := by
  have hne {c : Char} (hc : c.isDigit = false) : d ≠ c :=
    ne_of_isDigit (hdigits d List.mem_cons_self) hc
  unfold readValue
  split
  · next heq => exact absurd (List.cons.inj heq).1 (hne rfl)
  · next heq => exact absurd (List.cons.inj heq).1 (hne rfl)
  · next heq => exact absurd (List.cons.inj heq).1 (hne rfl)
  · exact readAtom_of_digits hdigits hd hlong

theorem read_of_digits : read (d :: digits) = .error .oversizedInteger := by
  unfold read
  rw [skipSpaces_of_digits hdigits, readValue_of_digits hdigits hd hlong]
  rfl

end

end Value

end Errand
