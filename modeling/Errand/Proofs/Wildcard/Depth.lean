import Errand.Proofs.Wildcard.Braces

/-! # Depth counting

An opening brace leads one level down, a closing brace one level up. The closing brace that matches
the one at the start of a text stands where the depth is back at zero for the first time, and there
the search for it ends.
-/

namespace Errand

namespace Text

def depth (t : Text) : Int := (t.count '{' : Int) - t.count '}'

def descent (c : Char) : Int := if c = '{' then 1 else if c = '}' then -1 else 0

@[simp] theorem depth_nil : depth [] = 0 := rfl

@[simp] theorem depth_cons (c : Char) (t : Text) : depth (c :: t) = descent c + depth t := by
  unfold depth descent
  by_cases hopen : c = '{'
  · simp [hopen]
    omega
  · by_cases hclose : c = '}'
    · simp [hclose]
      omega
    · simp [hopen, hclose]

@[simp] theorem depth_append (t u : Text) : depth (t ++ u) = depth t + depth u := by
  unfold depth
  rw [List.count_append, List.count_append]
  omega

theorem neg_one_le_descent (c : Char) : -1 ≤ descent c := by
  unfold descent
  split
  · decide
  · split <;> decide

/-- A text whose last character closes the brace that it opens with: the depth is zero at its end and
nowhere between. -/
structure BraceMatched (g : Text) : Prop where
  opens : g.head? = some '{'
  closes : depth g = 0
  inside : ∀ n, 0 < n → n < g.length → 0 < depth (g.take n)

end Text

namespace Wildcard

open Text

variable {d : Int} {t source rest : Text}

theorem splitClosed?_cons_of_pos (hd : 0 < d) (c : Char) (t : Text) :
    splitClosed? d (c :: t) =
      if d + descent c = 0 then some ([c], t)
      else (splitClosed? (d + descent c) t).map fun x => (c :: x.1, x.2) := by
  unfold descent
  rw [splitClosed?]
  by_cases hopen : c = '{'
  · rw [if_pos hopen, if_pos hopen, if_neg (by omega)]
  · rw [if_neg hopen, if_neg hopen]
    by_cases hclose : c = '}'
    · rw [if_pos hclose, if_pos hclose]
      by_cases hlast : d = 1
      · rw [if_pos hlast, if_pos (by omega)]
      · rw [if_neg hlast, if_neg (by omega)]
        rfl
    · rw [if_neg hclose, if_neg hclose, if_neg (by omega), Int.add_zero]

/-- Where the search has ended the depth is zero, and before that it is not. -/
theorem depth_of_splitClosed? (hd : 0 < d) (h : splitClosed? d t = some (source, rest)) :
    d + depth source = 0 ∧ ∀ n, n < source.length → 0 < d + depth (source.take n) := by
  induction t generalizing d source with
  | nil => cases h
  | cons c t ih =>
      have hfirst (source : Text) : 0 < d + depth (source.take 0) := by simpa using hd
      -- The search goes on at the depth behind the character, from which the rest of the source counts.
      rw [splitClosed?_cons_of_pos hd] at h
      by_cases hlast : d + descent c = 0
      · rw [if_pos hlast] at h
        cases h
        refine ⟨by simpa using hlast, ?_⟩
        intro n hn
        obtain rfl : n = 0 := by simpa using hn
        exact hfirst [c]
      · rw [if_neg hlast] at h
        obtain ⟨⟨inner, _⟩, found, hpair⟩ := Option.map_eq_some_iff.mp h
        simp only [Prod.mk.injEq] at hpair
        obtain ⟨rfl, rfl⟩ := hpair
        have hlevel := neg_one_le_descent c
        obtain ⟨hzero, hinside⟩ := ih (by omega) found
        refine ⟨by rw [depth_cons]; omega, ?_⟩
        intro n hn
        cases n with
        | zero => exact hfirst (c :: inner)
        | succ n =>
            have hpos := hinside n (by simpa using hn)
            rw [List.take_succ_cons, depth_cons]
            omega

theorem splitClosed?_of_depth (hzero : d + depth source = 0)
    (hinside : ∀ n, n < source.length → 0 < d + depth (source.take n)) (hne : source ≠ []) :
    splitClosed? d (source ++ rest) = some (source, rest) := by
  induction source generalizing d with
  | nil => exact absurd rfl hne
  | cons c inner ih =>
      have hd : 0 < d := by simpa using hinside 0 (by simp)
      rw [List.cons_append, splitClosed?_cons_of_pos hd]
      rw [depth_cons] at hzero
      cases inner with
      | nil => rw [if_pos (by simpa using hzero)]; rfl
      | cons e inner =>
          have hnext : 0 < d + descent c := by simpa using hinside 1 (by simp)
          rw [if_neg (by omega), ih (by omega) ?_ (by simp)]
          · rfl
          · intro n hn
            have hpos := hinside (n + 1) (by simpa using hn)
            rw [List.take_succ_cons, depth_cons] at hpos
            omega

/-- From an opening brace the search finds the closing brace that matches it. -/
theorem splitClosed?_eq_some_iff (hopen : t.head? = some '{') :
    splitClosed? 0 t = some (source, rest) ↔ t = source ++ rest ∧ BraceMatched source := by
  obtain ⟨u, rfl⟩ := List.head?_eq_some_iff.mp hopen
  have hstep : splitClosed? 0 ('{' :: u) =
      (splitClosed? 1 u).map fun x => ('{' :: x.1, x.2) := by
    rw [splitClosed?, if_pos rfl]
    rfl
  rw [hstep]
  constructor
  · intro h
    obtain ⟨⟨inner, _⟩, found, hpair⟩ := Option.map_eq_some_iff.mp h
    simp only [Prod.mk.injEq] at hpair
    obtain ⟨rfl, rfl⟩ := hpair
    obtain ⟨hzero, hinside⟩ := depth_of_splitClosed? Int.one_pos found
    refine ⟨by rw [(splitClosed?_eq_some found).1]; rfl, rfl, by rw [depth_cons]; exact hzero, ?_⟩
    intro n hn hlength
    obtain ⟨k, rfl⟩ := Nat.exists_eq_succ_of_ne_zero hn.ne'
    rw [List.take_succ_cons, depth_cons]
    exact hinside k (by simpa using hlength)
  · rintro ⟨hsplit, hopens, hcloses, hinside⟩
    obtain ⟨inner, rfl⟩ := List.head?_eq_some_iff.mp hopens
    obtain rfl : u = inner ++ rest := List.tail_eq_of_cons_eq hsplit
    have hne : inner ≠ [] := by
      rintro rfl
      exact absurd hcloses (by decide)
    rw [depth_cons] at hcloses
    have hinner : ∀ n, n < inner.length → 0 < descent '{' + depth (inner.take n) := by
      intro n hn
      have hpos := hinside (n + 1) n.succ_pos (by simpa using hn)
      rwa [List.take_succ_cons, depth_cons] at hpos
    rw [show (1 : Int) = descent '{' from rfl, splitClosed?_of_depth hcloses hinner hne]
    rfl

theorem splitClosed?_of_matched (hmatched : BraceMatched source) (hsplit : t = source ++ rest) :
    splitClosed? 0 t = some (source, rest) := by
  have hopen : t.head? = some '{' := by
    rw [hsplit, List.head?_append, hmatched.opens]
    rfl
  exact (splitClosed?_eq_some_iff hopen).mpr ⟨hsplit, hmatched⟩

end Wildcard

end Errand
