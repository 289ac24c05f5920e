import Errand.Proofs.Wildcard.Keycode
import Errand.Session.Resolve
import Errand.Wildcard.Segment

/-! # What a key tells

A key spells what a wildcard asks for, and its number behind that. Words of kinds have letters only,
so a key without a type in it tells both. A type may end in digits of its own, and nothing divides
them from the number. So wildcards with one key ask for the same and have the same number, unless
their types differ and read the same once the numbers stand behind them.
-/

namespace Errand

/-- What a wildcard asks for, whatever its number. -/
inductive Qualified
  /-- The kind that a name stands for, or a type that is one of its choices. -/
  | kind (k : Kind)
  /-- A name, and beside it a type that is none of its choices. -/
  | pair (base : Kind) (type : Text)
  deriving DecidableEq

def Qualified.spelling : Qualified → Text
  | .kind k => k.label
  | .pair base type => base.label ++ ':' :: type

namespace Text

theorem decimal_injective {i j : Nat} (h : decimal i = decimal j) : i = j := by
  calc i = Nat.ofDigitChars 10 (decimal i) 0 := Nat.ofDigitChars_ten_toDigits.symm
    _ = Nat.ofDigitChars 10 (decimal j) 0 := by rw [h]
    _ = j := Nat.ofDigitChars_ten_toDigits

theorem isDigit_of_mem_decimal {i : Nat} {c : Char} (h : c ∈ decimal i) : c.isDigit = true :=
  Nat.isDigit_of_mem_toDigits (by decide) (by decide) h

/-- A text that does not end in a digit ends where the digits behind it begin. -/
theorem append_digits_inj {t u d e : Text} (hd : ∀ c ∈ d, c.isDigit = true)
    (he : ∀ c ∈ e, c.isDigit = true) (ht : ∀ c ∈ t.getLast?, c.isDigit = false)
    (hu : ∀ c ∈ u.getLast?, c.isDigit = false) (h : t ++ d = u ++ e) : t = u ∧ d = e := by
  have hstop {x y : Text} (hy : ∀ c ∈ y, c.isDigit = true)
      (hx : ∀ c ∈ x.getLast?, c.isDigit = false) :
      (x ++ y).reverse.dropWhile Char.isDigit = x.reverse := by
    rw [List.reverse_append, List.dropWhile_append_of_pos (by simpa using hy)]
    cases hlast : x.reverse with
    | nil => rfl
    | cons c rest =>
        have hc : c.isDigit = false := hx c (by rw [← List.head?_reverse, hlast]; rfl)
        rw [List.dropWhile_cons_of_neg (by simp [hc])]
  have hreverse : t.reverse = u.reverse := by rw [← hstop hd ht, ← hstop he hu, h]
  obtain rfl := List.reverse_inj.mp hreverse
  exact ⟨rfl, List.append_cancel_left h⟩

end Text

namespace Wildcard

variable {w v : Wildcard} {n m : Kind}

def qualified (w : Wildcard) (n : Kind) : Qualified :=
  match w.type with
  | none => .kind n
  | some type =>
    match w.narrowed? n with
    | some k => .kind k
    | none => .pair n type

def digits (w : Wildcard) : Text := w.id.elim [] Text.decimal

theorem isDigit_of_mem_digits {c : Char} (h : c ∈ w.digits) : c.isDigit = true := by
  unfold digits at h
  cases hid : w.id with
  | none => simp [hid] at h
  | some i =>
      rw [hid] at h
      exact Text.isDigit_of_mem_decimal h

theorem digits_injective (h : w.digits = v.digits) : w.id = v.id := by
  unfold digits at h
  have hne (i : Nat) : Text.decimal i ≠ [] := Nat.toDigits_ne_nil
  cases hw : w.id with
  | none =>
      cases hv : v.id with
      | none => rfl
      | some j =>
          rw [hw, hv] at h
          exact absurd h.symm (hne j)
  | some i =>
      cases hv : v.id with
      | none =>
          rw [hw, hv] at h
          exact absurd h (hne i)
      | some j =>
          rw [hw, hv] at h
          rw [Text.decimal_injective h]

theorem qualified_eq (w : Wildcard) (n : Kind) :
    w.qualified n = match w.aside? n with
      | none => .kind (w.lead n)
      | some type => .pair n type := by
  unfold qualified aside? lead
  cases htype : w.type with
  | none =>
      have hnone : w.narrowed? n = none := by
        unfold narrowed?
        rw [htype]
        rfl
      rw [hnone]
      rfl
  | some type => cases w.narrowed? n <;> rfl

theorem lead_of_aside? {type : Text} (h : w.aside? n = some type) : w.lead n = n := by
  unfold aside? at h
  unfold lead
  cases hnarrowed : w.narrowed? n with
  | none => rfl
  | some k => simp [hnarrowed] at h

theorem keycode_eq_spelling (h : w.kind? = some n) :
    w.keycode = (w.qualified n).spelling ++ w.digits := by
  rw [keycode_eq h, qualified_eq]
  unfold keyTail
  cases haside : w.aside? n with
  | none => rfl
  | some type =>
      rw [lead_of_aside? haside]
      exact (List.append_assoc ..).symm

/-- The types of two wildcards differ, but with the numbers behind them they read the same. -/
def Blurs (w v : Wildcard) (n m : Kind) : Prop :=
  ∃ k t u, w.qualified n = .pair k t ∧ v.qualified m = .pair k u ∧ t ≠ u ∧
    t ++ w.digits = u ++ v.digits

/-- The type of a wildcard stands in its key as it is and ends in a digit. -/
def EndsInDigit (w : Wildcard) (n : Kind) : Prop :=
  ∃ k t c, w.qualified n = .pair k t ∧ t.getLast? = some c ∧ c.isDigit = true

theorem same_or_blurs_of_keycode_eq (hw : w.kind? = some n) (hv : v.kind? = some m)
    (h : w.keycode = v.keycode) : w.qualified n = v.qualified m ∧ w.id = v.id ∨ w.Blurs v n m := by
  obtain ⟨hlead, haside⟩ := lead_eq_of_keycode_eq hw hv h
  rw [keycode_eq_spelling hw, keycode_eq_spelling hv] at h
  unfold Blurs
  rw [qualified_eq, qualified_eq] at h ⊢
  cases ht : w.aside? n with
  | none =>
      cases hu : v.aside? m with
      | some u => simp [ht, hu] at haside
      | none =>
          simp only [ht, hu, hlead] at h
          exact .inl ⟨congrArg Qualified.kind hlead, digits_injective (List.append_cancel_left h)⟩
  | some t =>
      cases hu : v.aside? m with
      | none => simp [ht, hu] at haside
      | some u =>
          obtain rfl : n = m := by rw [← lead_of_aside? ht, ← lead_of_aside? hu, hlead]
          simp only [ht, hu, Qualified.spelling, List.append_assoc] at h
          have hrest : t ++ w.digits = u ++ v.digits := List.cons.inj (List.append_cancel_left h) |>.2
          by_cases htu : t = u
          · subst htu
            exact .inl ⟨rfl, digits_injective (List.append_cancel_left hrest)⟩
          · exact .inr ⟨n, t, u, rfl, rfl, htu, hrest⟩

theorem keycode_eq_of_blurs (hw : w.kind? = some n) (hv : v.kind? = some m)
    (h : w.Blurs v n m) : w.keycode = v.keycode := by
  obtain ⟨k, t, u, ht, hu, _, hrest⟩ := h
  rw [keycode_eq_spelling hw, keycode_eq_spelling hv, ht, hu]
  simp only [Qualified.spelling, List.append_assoc, List.cons_append, hrest]

/-- Where types and numbers cannot be told apart, one of the types ends in a digit. -/
theorem endsInDigit_of_blurs (h : w.Blurs v n m) : w.EndsInDigit n ∨ v.EndsInDigit m := by
  obtain ⟨k, t, u, ht, hu, hne, hrest⟩ := h
  have hlast {x : Wildcard} {l : Kind} {r : Text} (hr : x.qualified l = .pair k r)
      (hno : ¬ x.EndsInDigit l) : ∀ c ∈ r.getLast?, c.isDigit = false := by
    intro c hc
    rw [Bool.eq_false_iff]
    exact fun hdigit => hno ⟨k, r, c, hr, hc, hdigit⟩
  by_cases hw : w.EndsInDigit n
  · exact .inl hw
  · by_cases hv : v.EndsInDigit m
    · exact .inr hv
    · obtain ⟨heq, _⟩ := Text.append_digits_inj (fun _ => isDigit_of_mem_digits)
        (fun _ => isDigit_of_mem_digits) (hlast ht hw) (hlast hu hv) hrest
      exact absurd heq hne

/-- Wildcards have one key if they ask for the same and have the same number, or if their types and
numbers cannot be told apart. The latter needs a type that ends in a digit; without one a key tells
what its wildcard asks for and which number it has. -/
theorem keycode_eq_iff (w v : Wildcard) (n m : Kind) (hw : w.kind? = some n)
    (hv : v.kind? = some m) :
    (w.keycode = v.keycode ↔ w.qualified n = v.qualified m ∧ w.id = v.id ∨ w.Blurs v n m) ∧
      (¬ w.EndsInDigit n → ¬ v.EndsInDigit m →
        (w.keycode = v.keycode ↔ w.qualified n = v.qualified m ∧ w.id = v.id)) := by
  have hboth : w.keycode = v.keycode ↔
      w.qualified n = v.qualified m ∧ w.id = v.id ∨ w.Blurs v n m := by
    constructor
    · exact same_or_blurs_of_keycode_eq hw hv
    · rintro (⟨hqualified, hid⟩ | hblurs)
      · rw [keycode_eq_spelling hw, keycode_eq_spelling hv, hqualified, digits, hid, digits]
      · exact keycode_eq_of_blurs hw hv hblurs
  refine ⟨hboth, fun hwEnd hvEnd => hboth.trans (or_iff_left fun hblurs => ?_)⟩
  exact (endsInDigit_of_blurs hblurs).elim hwEnd hvEnd

/-- A type that is a choice of the name gives way to the kind it stands for, and one that is not
stays. -/
theorem keycode_eq_iff_narrowed :
    let w : Wildcard :=
      { source := "{name male 1}".toList, index := 0, name := "name".toList
        type := some "male".toList, id := some 1, obfuscated := false, metadata := [] }
    let v : Wildcard := { w with name := "male".toList, type := none }
    let x : Wildcard := { w with type := some "beacon".toList }
    (w.kind? = some .name ∧ v.kind? = some .male ∧ x.kind? = some .name) ∧
      (¬ w.EndsInDigit .name ∧ ¬ v.EndsInDigit .male ∧ ¬ x.EndsInDigit .name) ∧
      w.keycode = v.keycode ∧ w.keycode ≠ x.keycode := by
  intro w v x
  have hw : w.kind? = some .name := by decide
  have hv : v.kind? = some .male := by decide
  have hx : x.kind? = some .name := by decide
  have hwEnd : ¬ w.EndsInDigit .name := by
    rintro ⟨k, t, c, hpair, _⟩
    cases hpair
  have hvEnd : ¬ v.EndsInDigit .male := by
    rintro ⟨k, t, c, hpair, _⟩
    cases hpair
  have hxEnd : ¬ x.EndsInDigit .name := by
    rintro ⟨k, t, c, hpair, hc, hdigit⟩
    cases hpair
    cases hc
    exact absurd hdigit (by decide)
  refine ⟨⟨hw, hv, hx⟩, ⟨hwEnd, hvEnd, hxEnd⟩, ?_, ?_⟩
  · exact ((keycode_eq_iff w v _ _ hw hv).2 hwEnd hvEnd).mpr ⟨by decide, rfl⟩
  · intro h
    have hsame := ((keycode_eq_iff w x _ _ hw hx).2 hwEnd hxEnd).mp h
    exact absurd hsame.1 (by decide)

/-- The number of one wildcard passes for the end of another's type: both have one key, and both get
the only person there is. -/
theorem keycode_blurs_number :
    let bob : Person := { name := .text "Bob".toList, gender := .male }
    let s := Session.start { Catalog.empty with people := [bob] } ⟨0⟩ .easy
    ∃ w v, Text.wildcards? "{name x1}{name x 1}".toList = some [w, v] ∧
      w.kind? = some .name ∧ v.kind? = some .name ∧
      w.isInstance = false ∧ v.isInstance = false ∧
      w.qualified .name ≠ v.qualified .name ∧ w.id ≠ v.id ∧ w.keycode = v.keycode ∧
      (Session.resolve w s).result = .ok (some (.entry ⟨0, .person bob⟩)) ∧
      (Session.resolve v (Session.resolve w s).session).result =
        .ok (some (.entry ⟨0, .person bob⟩)) := by
  intro bob s
  let w : Wildcard :=
    { source := "{name x1}".toList, index := 0, name := "name".toList, type := some "x1".toList
      id := none, obfuscated := false, metadata := [] }
  let v : Wildcard :=
    { source := "{name x 1}".toList, index := 9, name := "name".toList, type := some "x".toList
      id := some 1, obfuscated := false, metadata := [] }
  exact ⟨w, v, by decide +kernel, by decide, by decide, by decide, by decide, by decide, by decide,
    by decide, rfl, rfl⟩

end Wildcard

end Errand
