import Errand.Wildcard.Basic

/-! # The key of a wildcard

A key starts with the word of a kind, its lead. A type that does not narrow the kind follows after a
colon, and the number ends the key. Words of kinds have letters only, so the lead of a key and
whether a type follows can be read off the key. Both together decide which kinds the wildcard may
settle on; names, types and numbers that lead to the same key in different ways agree on that.
-/

namespace Errand

namespace Kind

theorem label_injective {k l : Kind} (h : k.label = l.label) : k = l := by
  have hk := ofName?_label k
  rw [h, ofName?_label] at hk
  exact Option.some.inj hk.symm

theorem isAlpha_of_mem_label (k : Kind) : ∀ c ∈ k.label, c.isAlpha = true := by
  apply List.all_eq_true.mp
  cases k <;> rfl

theorem collection?_of_mem_options {k l : Kind} (h : l ∈ k.options) :
    l.collection? = k.collection? := by
  cases k <;> cases l <;> first | rfl | exact absurd h (by decide)

theorem options_of_mem_options {k l : Kind} (h : l ∈ k.options) : l.options = [] := by
  cases k <;> cases l <;> first | rfl | exact absurd h (by decide)

theorem options_of_ofQualifier? {type : Text} {k : Kind} (h : ofQualifier? type = some k) :
    k.options = [] := by
  obtain ⟨entry, hfind, hk⟩ := Option.map_eq_some_iff.mp h
  have hmem := List.mem_of_find?_eq_some hfind
  have hall : ∀ entry ∈ qualifiers, entry.2.options = [] := by decide
  rw [← hk]
  exact hall entry hmem

end Kind

namespace Wildcard

/-- The wildcard is of kind `k`, which collection `c` serves. -/
def Asks (w : Wildcard) (k : Kind) (c : Collection) : Prop :=
  w.kind? = some k ∧ k.collection? = some c

variable {w v : Wildcard} {n m : Kind}

theorem kind?_of_blank (h : w.name = []) : w.kind? = none := by
  rw [kind?, h]
  rfl

theorem not_asks_of_unknown (h : w.kind? = none) (k : Kind) (c : Collection) : ¬ w.Asks k c := by
  rintro ⟨hk, _⟩
  rw [h] at hk
  cases hk

theorem not_asks_of_unserved (hn : w.kind? = some n) (h : n.collection? = none) (k : Kind)
    (c : Collection) : ¬ w.Asks k c := by
  rintro ⟨hk, hc⟩
  obtain rfl := Option.some.inj (hn.symm.trans hk)
  rw [h] at hc
  cases hc

/-- The kind that the type of a wildcard of kind `n` stands for, if the type is one of the choices
of `n` or repeats it. -/
def narrowed? (w : Wildcard) (n : Kind) : Option Kind :=
  match w.type.bind Kind.ofQualifier? with
  | some q => if q = n ∨ q ∈ n.options then some q else none
  | none => none

theorem narrowed?_eq_some {q : Kind} (h : w.narrowed? n = some q) : q = n ∨ q ∈ n.options := by
  unfold narrowed? at h
  split at h
  · next p _ =>
      by_cases hfit : p = n ∨ p ∈ n.options
      · rw [if_pos hfit] at h
        obtain rfl := Option.some.inj h
        exact hfit
      · simp [hfit] at h
  · simp at h

def lead (w : Wildcard) (n : Kind) : Kind := (w.narrowed? n).getD n

def aside? (w : Wildcard) (n : Kind) : Option Text :=
  if (w.narrowed? n).isSome then none else w.type

def keyTail (w : Wildcard) (n : Kind) : Text :=
  ((w.aside? n).elim [] fun type => ':' :: type) ++ w.id.elim [] Text.decimal

theorem keycode_eq (h : w.kind? = some n) : w.keycode = (w.lead n).label ++ w.keyTail n := by
  have hname : w.name = n.label := (Kind.label_of_ofName? h).symm
  have hoptions : w.options = n.options := by simp [options, h]
  have hlabel (q : Kind) : (q.label = n.label) ↔ q = n :=
    ⟨Kind.label_injective, fun heq => congrArg Kind.label heq⟩
  have hmeaning : w.meaning =
      (w.lead n).label ++ (w.aside? n).elim [] fun type => ':' :: type := by
    unfold meaning lead aside? narrowed?
    rw [hname, hoptions]
    cases w.type with
    | none => simp
    | some type =>
        cases hq : Kind.ofQualifier? type with
        | none => simp [hq]
        | some q =>
            by_cases hfit : q = n ∨ q ∈ n.options
            · simp [hq, hlabel, hfit]
            · simp [hq, hlabel, hfit]
  unfold keycode keyTail
  rw [hmeaning, List.append_assoc]
  cases w.id <;> rfl

/-! ## Reading the key -/

theorem head?_keyTail (w : Wildcard) (n : Kind) :
    (w.keyTail n).head? = some ':' ↔ (w.aside? n).isSome = true := by
  unfold keyTail
  cases w.aside? n with
  | some type => simp
  | none =>
      cases w.id with
      | none => simp
      | some number =>
          have hdigit : ':' ∉ Text.decimal number := by
            intro hmem
            have h := Nat.isDigit_of_mem_toDigits (by decide) (by decide) hmem
            exact absurd h (by decide)
          simp only [Option.elim_none, Option.elim_some, List.nil_append, Option.isSome_none,
            Bool.false_eq_true, iff_false]
          intro hhead
          exact hdigit (List.mem_of_mem_head? hhead)

theorem not_isAlpha_head_keyTail (w : Wildcard) (n : Kind) :
    ∀ c ∈ (w.keyTail n).head?, c.isAlpha = false := by
  intro c hc
  unfold keyTail at hc
  cases haside : w.aside? n with
  | some type =>
      simp only [haside, Option.elim_some, List.cons_append, List.head?_cons,
        Option.mem_some_iff] at hc
      subst hc
      rfl
  | none =>
      cases hid : w.id with
      | none => simp [haside, hid] at hc
      | some number =>
          simp only [haside, hid, Option.elim_none, Option.elim_some, List.nil_append] at hc
          have hdigit : c.isDigit = true :=
            Nat.isDigit_of_mem_toDigits (by decide) (by decide) (List.mem_of_mem_head? hc)
          simp only [Char.isDigit, Bool.and_eq_true, decide_eq_true_eq, UInt32.le_iff_toNat_le,
            ge_iff_le] at hdigit
          change 48 ≤ c.toNat ∧ c.toNat ≤ 57 at hdigit
          rw [Bool.eq_false_iff]
          intro halpha
          unfold Char.isAlpha Char.isUpper Char.isLower at halpha
          simp only [Bool.or_eq_true, Bool.and_eq_true, decide_eq_true_eq,
            UInt32.le_iff_toNat_le, ge_iff_le] at halpha
          change ((65 ≤ c.toNat ∧ c.toNat ≤ 90) ∨ (97 ≤ c.toNat ∧ c.toNat ≤ 122)) at halpha
          omega

theorem takeWhile_keycode (h : w.kind? = some n) :
    w.keycode.takeWhile Char.isAlpha = (w.lead n).label := by
  rw [keycode_eq h, List.takeWhile_append_of_pos (Kind.isAlpha_of_mem_label (w.lead n))]
  have htail : (w.keyTail n).takeWhile Char.isAlpha = [] := by
    have hhead := not_isAlpha_head_keyTail w n
    cases hl : w.keyTail n with
    | nil => rfl
    | cons c rest =>
        rw [hl] at hhead
        simp [hhead c rfl]
  rw [htail, List.append_nil]

/-- Equal keys have the same lead, and a type in both or in none. -/
theorem lead_eq_of_keycode_eq (hw : w.kind? = some n) (hv : v.kind? = some m)
    (h : w.keycode = v.keycode) :
    w.lead n = v.lead m ∧ (w.aside? n).isSome = (v.aside? m).isSome := by
  have hlead : w.lead n = v.lead m := by
    apply Kind.label_injective
    rw [← takeWhile_keycode hw, ← takeWhile_keycode hv, h]
  refine ⟨hlead, ?_⟩
  have htail : w.keyTail n = v.keyTail m := by
    rw [keycode_eq hw, keycode_eq hv, hlead] at h
    exact List.append_cancel_left h
  rw [Bool.eq_iff_iff, ← head?_keyTail, ← head?_keyTail, htail]

/-! ## Kinds to settle on -/

/-- The kinds that a wildcard of kind `n` may settle on. -/
def choices (w : Wildcard) (n : Kind) : List Kind :=
  if (w.aside? n).isSome = true ∨ (w.lead n).options = [] then [w.lead n] else (w.lead n).options

theorem choices_eq_of_keycode_eq (hw : w.kind? = some n) (hv : v.kind? = some m)
    (h : w.keycode = v.keycode) : w.choices n = v.choices m := by
  obtain ⟨hlead, haside⟩ := lead_eq_of_keycode_eq hw hv h
  unfold choices
  rw [hlead, haside]

theorem lead_eq_or_mem (w : Wildcard) (n : Kind) : w.lead n = n ∨ w.lead n ∈ n.options := by
  unfold lead
  cases hq : w.narrowed? n with
  | none => exact .inl rfl
  | some q => exact narrowed?_eq_some hq

theorem collection?_lead (w : Wildcard) (n : Kind) :
    (w.lead n).collection? = n.collection? := by
  rcases lead_eq_or_mem w n with heq | hmem
  · rw [heq]
  · exact Kind.collection?_of_mem_options hmem

theorem collection?_of_mem_choices {k : Kind} (h : k ∈ w.choices n) :
    k.collection? = n.collection? := by
  unfold choices at h
  split at h
  · rw [List.mem_singleton.mp h, collection?_lead]
  · rw [Kind.collection?_of_mem_options h, collection?_lead]

/-- A kind without choices stays; among choices the type decides, and without one each may do. A
type that is none of the choices leaves the kind as it is. -/
theorem mem_choices_iff {k : Kind} :
    k ∈ w.choices n ↔
      if n.options = [] then k = n
      else match w.type with
        | none => k ∈ n.options
        | some type => match Kind.ofQualifier? type with
          | none => k = n
          | some q => k = if q ∈ n.options then q else n := by
  by_cases hn : n.options = []
  · have hlead : w.lead n = n := by
      rcases lead_eq_or_mem w n with heq | hmem
      · exact heq
      · simp [hn] at hmem
    simp [choices, hlead, hn]
  · rw [if_neg hn]
    unfold choices aside? lead narrowed?
    cases w.type with
    | none => simp [hn]
    | some type =>
        cases hq : Kind.ofQualifier? type with
        | none => simp [hq]
        | some q =>
            have hqn : q ≠ n := by
              rintro rfl
              exact hn (Kind.options_of_ofQualifier? hq)
            by_cases hmem : q ∈ n.options
            · simp [hq, hmem, Kind.options_of_mem_options hmem]
            · simp [hq, hmem, hqn]

/-- Kinds that different collections serve never share a key. -/
theorem keycode_ne_of_collection_ne {c d : Collection} (hw : w.Asks n c) (hv : v.Asks m d)
    (hne : c ≠ d) : w.keycode ≠ v.keycode := by
  intro h
  obtain ⟨hlead, _⟩ := lead_eq_of_keycode_eq hw.1 hv.1 h
  apply hne
  have heq : n.collection? = m.collection? := by
    rw [← collection?_lead w n, ← collection?_lead v m, hlead]
  rw [hw.2, hv.2] at heq
  exact Option.some.inj heq

end Wildcard

end Errand
