import Errand.Proofs.Batch
import Mathlib.Algebra.Order.BigOperators.Group.List
import Mathlib.Algebra.Order.Field.Rat
import Mathlib.Algebra.Order.Ring.NNRat
import Mathlib.Tactic.Positivity

/-! # Choosing by weight

Without rounding, the running totals of the weights cut the stretch from zero to their sum into one
interval for each weight, as long as the weight: closed below and open above, and empty for a weight of
zero. The point that is drawn lies in exactly one of them, and halving finds it. So the choice falls on
no weight of zero, whatever stands around it, unless all are.
-/

namespace Errand

def WeightLiteral.value (w : WeightLiteral) : ℚ≥0 := w.digits / 10 ^ w.places

structure ExactWeight where
  value : ℚ≥0

instance ExactWeight.instWeight : Weight ExactWeight where
  add x y := ⟨x.value + y.value⟩
  mul x y := ⟨x.value * y.value⟩
  zero := ⟨0⟩
  lt x y := x.value < y.value
  le x y := x.value ≤ y.value
  decidableLT x y := inferInstanceAs (Decidable (x.value < y.value))
  decidableLE x y := inferInstanceAs (Decidable (x.value ≤ y.value))
  ofLiteral w := ⟨w.value⟩
  ofFraction n := ⟨n / 2 ^ 53⟩

namespace Twister

theorem fraction_lt (g : Twister) : g.fraction.1 < 2 ^ 53 := by
  have hhigh (a : UInt32) : (a >>> 5).toNat < 2 ^ 27 := by
    have ha := a.toNat_lt
    rw [UInt32.toNat_shiftRight]
    change a.toNat >>> 5 < _
    rw [Nat.shiftRight_eq_div_pow]
    omega
  have hlow (b : UInt32) : (b >>> 6).toNat < 2 ^ 26 := by
    have hb := b.toNat_lt
    rw [UInt32.toNat_shiftRight]
    change b.toNat >>> 6 < _
    rw [Nat.shiftRight_eq_div_pow]
    omega
  change (g.word.1 >>> 5).toNat * 2 ^ 26 + (g.word.2.word.1 >>> 6).toNat < _
  have ha := hhigh g.word.1
  have hb := hlow g.word.2.word.1
  omega

end Twister

/-- The point of the unit interval that is drawn. -/
def Dice.unit (dice : Dice) : ℚ≥0 := dice.fraction.1 / 2 ^ 53

theorem Dice.unit_lt_one (dice : Dice) : dice.unit < 1 := by
  unfold Dice.unit
  rw [div_lt_one₀ (by positivity)]
  exact_mod_cast Twister.fraction_lt dice.generator

namespace PrototypeList

/-! ## Search by halving -/

section

variable {W : Type} [Weight W] {totals : Array W} {x : W}

/-- Where totals do not fall below the point again, halving ends at the first that lies above it. -/
theorem firstAbove_spec
    (rising : ∀ i j, i ≤ j → j < totals.size → x < totals.getD i 0 → x < totals.getD j 0)
    {fuel low high : Nat} (hfuel : high ≤ low + fuel) (hle : low ≤ high) (hsize : high ≤ totals.size)
    (below : ∀ j < low, ¬ x < totals.getD j 0) (above : high < totals.size → x < totals.getD high 0) :
    let i := firstAbove totals x fuel low high
    i ≤ totals.size ∧ (∀ j < i, ¬ x < totals.getD j 0) ∧
      (i < totals.size → x < totals.getD i 0) := by
  induction fuel generalizing low high with
  | zero =>
      obtain rfl : low = high := by omega
      exact ⟨hsize, below, above⟩
  | succ fuel ih =>
      unfold firstAbove
      by_cases hlt : low < high
      · have hlow : low ≤ (low + high) / 2 := by omega
        have hhigh : (low + high) / 2 < high := by omega
        rw [if_pos hlt]
        dsimp only
        by_cases hmiddle : x < totals.getD ((low + high) / 2) 0
        · rw [if_pos hmiddle]
          exact ih (by omega) hlow (by omega) below fun _ => hmiddle
        · rw [if_neg hmiddle]
          refine ih (by omega) (by omega) hsize ?_ above
          intro j hj habove
          exact hmiddle (rising j _ (by omega) (by omega) habove)
      · obtain rfl : low = high := by omega
        rw [if_neg hlt]
        exact ⟨hsize, below, above⟩

end

/-! ## Intervals -/

def mass (weights : List ExactWeight) : ℚ≥0 := (weights.map (·.value)).sum

/-- The point lies in the interval of a place: not below the weights before it, and below these with the
weight of the place. -/
structure Covers (weights : List ExactWeight) (i : Nat) (x : ℚ≥0) : Prop where
  lt_length : i < weights.length
  le : mass (weights.take i) ≤ x
  lt : x < mass (weights.take (i + 1))

variable {weights : List ExactWeight} {i j : Nat} {x : ℚ≥0}

@[simp] theorem mass_nil : mass [] = 0 := by simp [mass]

@[simp] theorem mass_cons (w : ExactWeight) (weights : List ExactWeight) :
    mass (w :: weights) = w.value + mass weights := List.sum_cons

theorem mass_take_succ (h : i < weights.length) :
    mass (weights.take (i + 1)) = mass (weights.take i) + weights[i].value := by
  unfold mass
  rw [List.take_succ_eq_append_getElem h, List.map_append, List.sum_append, List.map_singleton,
    List.sum_singleton]

theorem mass_take_mono (h : i ≤ j) : mass (weights.take i) ≤ mass (weights.take j) :=
  ((List.take_sublist_take_left h).map _).sum_le_sum fun _ _ => zero_le

theorem Covers.unique (hi : Covers weights i x) (hj : Covers weights j x) : i = j := by
  rcases Nat.lt_trichotomy i j with h | h | h
  · exact absurd (hi.lt.trans_le ((mass_take_mono h).trans hj.le)) (lt_irrefl x)
  · exact h
  · exact absurd (hj.lt.trans_le ((mass_take_mono h).trans hi.le)) (lt_irrefl x)

theorem Covers.pos (h : Covers weights i x) : ∃ hi : i < weights.length, 0 < weights[i].value := by
  have hlt := h.le.trans_lt h.lt
  rw [mass_take_succ h.lt_length] at hlt
  exact ⟨h.lt_length, pos_of_lt_add_right hlt⟩

/-! ## Running totals -/

theorem getElem?_totalsAfter (total : ExactWeight) (h : i < weights.length) :
    (totalsAfter total weights)[i]? = some ⟨total.value + mass (weights.take (i + 1))⟩ := by
  induction weights generalizing total i with
  | nil => cases h
  | cons w weights ih =>
      have hsum : total + w = ⟨total.value + w.value⟩ := rfl
      cases i with
      | zero => simp [totalsAfter, hsum]
      | succ i =>
          have hnext := ih (total + w) (Nat.lt_of_succ_lt_succ h)
          simpa [totalsAfter, hsum, add_assoc] using hnext

theorem getElem?_totals (h : i < weights.length) :
    (totals weights)[i]? = some ⟨mass (weights.take (i + 1))⟩ := by
  cases weights with
  | nil => cases h
  | cons w weights =>
      cases i with
      | zero => simp [totals]
      | succ i => simpa [totals] using getElem?_totalsAfter w (Nat.lt_of_succ_lt_succ h)

theorem getLast?_totals (hne : weights ≠ []) : (totals weights).getLast? = some ⟨mass weights⟩ := by
  have hpos := List.length_pos_iff.mpr hne
  rw [List.getLast?_eq_getElem?, length_totals, getElem?_totals (by omega), Nat.sub_add_cancel hpos,
    List.take_length]

theorem lt_getD_totals (h : i < weights.length) :
    (⟨x⟩ : ExactWeight) < (totals weights).toArray.getD i 0 ↔ x < mass (weights.take (i + 1)) := by
  rw [Array.getD_eq_getD_getElem?, List.getElem?_toArray, getElem?_totals h]
  exact Iff.rfl

/-- Halving finds the interval of a point below the sum without being held at the last place. -/
theorem covers_firstAbove (hx : x < mass weights) :
    Covers weights (firstAbove (totals weights).toArray ⟨x⟩ weights.length 0 weights.length) x := by
  have hsize : (totals weights).toArray.size = weights.length := by simp
  have rising (i j : Nat) (hij : i ≤ j) (hj : j < (totals weights).toArray.size)
      (hi : (⟨x⟩ : ExactWeight) < (totals weights).toArray.getD i 0) :
      (⟨x⟩ : ExactWeight) < (totals weights).toArray.getD j 0 := by
    rw [hsize] at hj
    rw [lt_getD_totals (hij.trans_lt hj)] at hi
    exact (lt_getD_totals hj).mpr (hi.trans_le (mass_take_mono (by omega)))
  have hspec := firstAbove_spec rising (Nat.le_add_left weights.length 0) (Nat.zero_le _) hsize.ge
    (fun j hj => absurd hj (Nat.not_lt_zero j)) (fun hlt => absurd hsize.le (Nat.not_le.mpr hlt))
  dsimp only at hspec
  generalize firstAbove (totals weights).toArray ⟨x⟩ weights.length 0 weights.length = i at hspec ⊢
  rw [hsize] at hspec
  obtain ⟨hle, hbelow, hfound⟩ := hspec
  have hbefore : mass (weights.take i) ≤ x := by
    cases i with
    | zero => simp
    | succ i => exact not_lt.mp fun hlt => hbelow i (Nat.lt_succ_self i) ((lt_getD_totals hle).mpr hlt)
  have hlt : i < weights.length := by
    refine Nat.lt_of_le_of_ne hle ?_
    rintro rfl
    rw [List.take_length] at hbefore
    exact absurd hx (not_lt.mpr hbefore)
  exact ⟨hlt, hbefore, (lt_getD_totals hlt).mp (hfound hlt)⟩

/-! ## Choices -/

theorem placeOf_of_lt (hx : x < mass weights) :
    placeOf (totals weights) ⟨x⟩ =
      firstAbove (totals weights).toArray ⟨x⟩ weights.length 0 weights.length := by
  have hlt := (covers_firstAbove hx).lt_length
  unfold placeOf
  rw [length_totals]
  omega

theorem chooseIndex_of_mass_pos (hpos : 0 < mass weights) (dice : Dice) :
    chooseIndex weights dice =
      (placeOf (totals weights) ⟨dice.unit * mass weights⟩, dice.next) := by
  have hne : weights ≠ [] := by
    rintro rfl
    exact absurd hpos (lt_irrefl 0)
  have hsum : ¬ (⟨mass weights⟩ : ExactWeight) ≤ 0 := not_le.mpr hpos
  unfold chooseIndex
  rw [getLast?_totals hne]
  dsimp only
  rw [if_neg hsum]
  rfl

theorem chooseIndex_pos (hpos : 0 < mass weights) (dice : Dice) :
    ∃ h : (chooseIndex weights dice).1 < weights.length,
      0 < weights[(chooseIndex weights dice).1].value := by
  have hx : dice.unit * mass weights < mass weights := mul_lt_of_lt_one_left hpos dice.unit_lt_one
  have hcovers := covers_firstAbove hx
  rw [← placeOf_of_lt hx] at hcovers
  rw [chooseIndex_of_mass_pos hpos dice]
  exact hcovers.pos

end PrototypeList

namespace PrototypeSource

open PrototypeList

variable {source : PrototypeSource ExactWeight} {ls : List Text}

theorem choose_eq_nothing_iff (hlines : source.list = .ofLines ls) (dice : Dice) :
    (source.choose dice).1 = .nothing ↔ ∀ line ∈ ls, Prototype.ofLine? line = none := by
  rw [← items_ofLines_eq_nil_iff (W := ExactWeight), ← hlines]
  by_cases hempty : source.list.items = []
  · simp [choose_of_unusable hempty, hempty]
  · obtain ⟨q, hq⟩ := choose_of_usable hlines hempty dice
    simp [hq, hempty]

theorem exists_chosen (hlines : source.list = .ofLines ls) (dice : Dice)
    (hsome : (source.choose dice).1 ≠ .nothing) :
    ∃ p ∈ Prototype.ofLines ls, (source.choose dice).1 = .prototype p.text ∧
      ((∃ q ∈ Prototype.ofLines ls, 0 < q.weight.value) → 0 < p.weight.value) := by
  have hitems : source.list.items = (Prototype.ofLines ls).map (·.text) := by
    rw [hlines]
    rfl
  have hweights : source.list.weights = (Prototype.ofLines ls).map fun p => ⟨p.weight.value⟩ := by
    rw [hlines]
    rfl
  have husable : source.list.items ≠ [] := fun hempty =>
    hsome (congrArg Prod.fst (choose_of_unusable hempty dice))
  obtain ⟨hlt, hchosen⟩ := choose_at hlines husable dice
  have hplace : (chooseIndex source.list.weights dice).1 < (Prototype.ofLines ls).length := by
    rwa [hitems, List.length_map] at hlt
  refine ⟨(Prototype.ofLines ls)[(chooseIndex source.list.weights dice).1], List.getElem_mem hplace,
    ?_, ?_⟩
  · rw [hchosen]
    simp only [hitems, List.getElem_map]
  · intro ⟨q, hq, hpos⟩
    have hmass : 0 < mass source.list.weights := by
      have hmem : q.weight.value ∈ source.list.weights.map (·.value) := by
        rw [hweights, List.map_map]
        exact List.mem_map_of_mem hq
      exact hpos.trans_le (List.single_le_sum (fun _ _ => zero_le) _ hmem)
    obtain ⟨_, hweight⟩ := chooseIndex_pos hmass dice
    simpa only [hweights, List.getElem_map] using hweight

end PrototypeSource

open PrototypeList in
/-- Without rounding: a point on the way from zero to the sum of the weights lies in the interval of
exactly one place, and this place has a weight and is the one chosen, without being held at the last
one. A draw is such a point. Where all weights are zero some place is chosen. So from lines, be they
typed, given one by one or parsed before, nothing is chosen only if no line holds a prototype; otherwise
one of them is, and one with a weight unless all are zero. -/
theorem choice_by_weight :
    (∀ weights : List ExactWeight, 0 < mass weights →
      (∀ u < 1, ∃ i, placeOf (totals weights) ⟨u * mass weights⟩ = i ∧
        firstAbove (totals weights).toArray ⟨u * mass weights⟩ weights.length 0 weights.length = i ∧
        (∀ j, Covers weights j (u * mass weights) ↔ j = i) ∧
        ∃ hi : i < weights.length, 0 < weights[i].value) ∧
      ∀ dice, dice.unit < 1 ∧ chooseIndex weights dice =
        (placeOf (totals weights) ⟨dice.unit * mass weights⟩, dice.next)) ∧
    (∀ weights : List ExactWeight, weights ≠ [] → mass weights = 0 → ∀ dice,
      (chooseIndex weights dice).1 < weights.length) ∧
    ∀ (source : PrototypeSource ExactWeight) (ls : List Text), source.list = .ofLines ls → ∀ dice,
      ((source.choose dice).1 = .nothing ↔ ∀ line ∈ ls, Prototype.ofLine? line = none) ∧
      ((source.choose dice).1 ≠ .nothing → ∃ p ∈ Prototype.ofLines ls,
        (source.choose dice).1 = .prototype p.text ∧
          ((∃ q ∈ Prototype.ofLines ls, 0 < q.weight.value) → 0 < p.weight.value)) := by
  refine ⟨?_, ?_, ?_⟩
  · intro weights hpos
    refine ⟨fun u hu => ?_, fun dice => ⟨dice.unit_lt_one, chooseIndex_of_mass_pos hpos dice⟩⟩
    have hx : u * mass weights < mass weights := mul_lt_of_lt_one_left hpos hu
    have hcovers := covers_firstAbove hx
    refine ⟨_, placeOf_of_lt hx, rfl, fun j => ?_, hcovers.pos⟩
    constructor
    · exact fun hj => hj.unique hcovers
    · rintro rfl
      exact hcovers
  · exact fun weights hne _ dice => (chooseIndex_spec hne dice).1
  · intro source ls hlines dice
    exact ⟨PrototypeSource.choose_eq_nothing_iff hlines dice,
      PrototypeSource.exists_chosen hlines dice⟩

open PrototypeList in
/-- The point zero lies behind a weight of zero, and of three prototypes the one with a weight is
chosen. -/
theorem choice_by_weight_between_zeros :
    let weights : List ExactWeight := [⟨0⟩, ⟨5⟩, ⟨0⟩]
    placeOf (totals weights) ⟨0 * mass weights⟩ = 1 ∧
      ((PrototypeSource.text "go %0%\nstay %2%\nwait %0%".toList :
        PrototypeSource ExactWeight).choose ⟨0⟩).1 = .prototype "stay".toList := by
  intro weights
  obtain ⟨hplaces, _, hsources⟩ := choice_by_weight
  constructor
  · have hmass : mass weights = 5 := by simp [weights]
    obtain ⟨i, hplace, _, hcovers, _⟩ := (hplaces weights (by simp [hmass])).1 0 zero_lt_one
    have hone : Covers weights 1 (0 * mass weights) := by constructor <;> simp [weights]
    rw [hplace, ← (hcovers 1).mp hone]
  · have hlines : Prototype.ofLines (Text.typedLines "go %0%\nstay %2%\nwait %0%".toList) =
        [⟨"go".toList, ⟨0, 0⟩⟩, ⟨"stay".toList, ⟨2, 0⟩⟩, ⟨"wait".toList, ⟨0, 0⟩⟩] := by
      decide +kernel
    obtain ⟨hnothing, hchosen⟩ :=
      hsources (.text "go %0%\nstay %2%\nwait %0%".toList) _ rfl ⟨0⟩
    obtain ⟨p, hp, hpicked, hpos⟩ := hchosen (hnothing.not.mpr (by decide +kernel))
    rw [hlines] at hp hpos
    have hweight := hpos ⟨⟨"stay".toList, ⟨2, 0⟩⟩, by simp, by simp [WeightLiteral.value]⟩
    simp only [List.mem_cons, List.not_mem_nil, or_false] at hp
    rcases hp with rfl | rfl | rfl
    · simp [WeightLiteral.value] at hweight
    · exact hpicked
    · simp [WeightLiteral.value] at hweight

end Errand
